import DebugBridge.Json.Number
import DebugBridge.Text.Utf8

/-! Splitting the octets of a JSON text into tokens.

A token that cannot be read ends the list and says how its text is at fault. -/

set_option autoImplicit false

namespace DebugBridge.Json

inductive Lexeme where
  | openBrace
  | closeBrace
  | openBracket
  | closeBracket
  | comma
  | colon
  | string (text : String)
  /-- Null, a boolean or a number. -/
  | scalar (value : Json)
  | badString (fault : Fault)
  | badScalar (fault : Fault)

def asciiOf (octet : UInt8) : Char := Char.ofNat octet.toNat

def isSpace (octet : UInt8) : Bool :=
  let c := asciiOf octet
  c == ' ' || c == '\n' || c == '\t' || c == '\r'

def hexValue? (octet : UInt8) : Option Nat :=
  let n := octet.toNat
  if 0x30 ≤ n ∧ n ≤ 0x39 then some (n - 0x30)
  else if 0x41 ≤ n ∧ n ≤ 0x46 then some (n - 0x37)
  else if 0x61 ≤ n ∧ n ≤ 0x66 then some (n - 0x57)
  else none

def unit? (a b c d : UInt8) : Option Nat := do
  let a ← hexValue? a
  let b ← hexValue? b
  let c ← hexValue? c
  let d ← hexValue? d
  return ((a * 16 + b) * 16 + c) * 16 + d

def escaped? (octet : UInt8) : Option UInt8 :=
  match asciiOf octet with
  | '"' => some 0x22
  | '\\' => some 0x5C
  | '/' => some 0x2F
  | 'b' => some 0x08
  | 'f' => some 0x0C
  | 'n' => some 0x0A
  | 'r' => some 0x0D
  | 't' => some 0x09
  | _ => none

def scanUnit : List UInt8 → Except Fault (Nat × List UInt8)
  | a :: b :: c :: d :: rest =>
    match unit? a b c d with
    | some unit => .ok (unit, rest)
    | none => .error .malformed
  | _ => .error .truncated

/-- The `\u` that must follow the first half of a surrogate pair. -/
def scanSecondHalf : List UInt8 → Except Fault (Nat × List UInt8)
  | [] => .error .truncated
  | backslash :: rest =>
    if asciiOf backslash = '\\' then
      match rest with
      | [] => .error .truncated
      | u :: rest => if asciiOf u = 'u' then scanUnit rest else .error .malformed
    else .error .malformed

def scanEscape : List UInt8 → Except Fault (List UInt8 × List UInt8)
  | [] => .error .truncated
  | e :: rest =>
    if asciiOf e = 'u' then
      match scanUnit rest with
      | .error fault => .error fault
      | .ok (unit, after) =>
        if unit < 0xD800 ∨ 0xDFFF < unit then .ok (Text.Utf8.encodeChar (Char.ofNat unit), after)
        -- a second half without a first
        else if 0xDC00 ≤ unit then .error .malformed
        else
          match scanSecondHalf after with
          | .error fault => .error fault
          | .ok (second, after) =>
            if 0xDC00 ≤ second ∧ second ≤ 0xDFFF then
              let code := 0x10000 + (unit - 0xD800) * 0x400 + (second - 0xDC00)
              .ok (Text.Utf8.encodeChar (Char.ofNat code), after)
            else .error .malformed
    else
      match escaped? e with
      | some plain => .ok ([plain], rest)
      | none => .error .malformed

theorem scanUnit_length {octets after : List UInt8} {unit : Nat} (h : scanUnit octets = .ok (unit, after)) :
    after.length < octets.length := by
  unfold scanUnit at h
  split at h
  · split at h
    · cases h; simp only [List.length_cons]; omega
    · cases h
  · cases h

theorem scanSecondHalf_length {octets after : List UInt8} {unit : Nat}
    (h : scanSecondHalf octets = .ok (unit, after)) : after.length < octets.length := by
  unfold scanSecondHalf at h
  split at h
  · cases h
  split at h
  · split at h
    · cases h
    split at h
    · have := scanUnit_length h
      simp only [List.length_cons]
      omega
    · cases h
  · cases h

theorem scanEscape_length {octets inside after : List UInt8} (h : scanEscape octets = .ok (inside, after)) :
    after.length < octets.length := by
  unfold scanEscape at h
  split at h
  · cases h
  split at h
  · split at h
    · cases h
    rename_i first
    have := scanUnit_length first
    simp only [List.length_cons]
    split at h
    · simp only [Except.ok.injEq, Prod.mk.injEq] at h
      obtain ⟨-, rfl⟩ := h
      omega
    split at h
    · cases h
    split at h
    · cases h
    rename_i second
    have := scanSecondHalf_length second
    split at h
    · simp only [Except.ok.injEq, Prod.mk.injEq] at h
      obtain ⟨-, rfl⟩ := h
      omega
    · cases h
  · split at h
    · cases h; simp
    · cases h

def scanString : List UInt8 → Except Fault (List UInt8 × List UInt8)
  | [] => .error .truncated
  | octet :: rest =>
    if asciiOf octet = '"' then .ok ([], rest)
    else if asciiOf octet = '\\' then
      match _escape : scanEscape rest with
      | .error fault => .error fault
      | .ok (plain, after) =>
        match scanString after with
        | .error fault => .error fault
        | .ok (inside, after) => .ok (plain ++ inside, after)
    else if octet < 0x20 then .error .malformed
    else
      -- octets past ASCII are judged when the literal is complete
      match scanString rest with
      | .error fault => .error fault
      | .ok (inside, after) => .ok (octet :: inside, after)
termination_by octets => octets.length
decreasing_by
  · have := scanEscape_length _escape
    simp only [List.length_cons]
    omega
  · simp

theorem scanString_length {octets inside after : List UInt8}
    (h : scanString octets = .ok (inside, after)) : after.length < octets.length := by
  fun_induction scanString octets generalizing inside after with
  | case1 => cases h
  | case2 => cases h; simp
  | case3 => cases h
  | case4 => cases h
  | case5 octet rest _ _ plain tail escape inner last found ih =>
    cases h
    have := scanEscape_length escape
    have := ih found
    simp only [List.length_cons]
    omega
  | case6 => cases h
  | case7 => cases h
  | case8 octet rest _ _ _ inner last found ih =>
    cases h
    have := ih found
    simp only [List.length_cons]
    omega

def scanWord : List Char → List UInt8 → Except Fault (List UInt8)
  | [], rest => .ok rest
  | _ :: _, [] => .error .truncated
  | c :: word, octet :: rest => if asciiOf octet = c then scanWord word rest else .error .malformed

def scanLiteral (value : Json) (word : List Char) (octets : List UInt8) : Lexeme × List UInt8 :=
  match scanWord word octets with
  | .error fault => (.badScalar fault, [])
  | .ok after => (.scalar value, after)

/-- The octets that can occur in a number. Where one of them follows a number, the text is malformed. -/
def isNumberOctet (octet : UInt8) : Bool :=
  let c := asciiOf octet
  c.isDigit || c == '-' || c == '+' || c == '.' || c == 'e' || c == 'E'

def scanNumber (octets : List UInt8) : Except Fault (Json × List UInt8) :=
  let after := octets.dropWhile isNumberOctet
  match readNumber (if after.isEmpty then .truncated else .malformed)
      ((octets.takeWhile isNumberOctet).map asciiOf) with
  | .error fault => .error fault
  | .ok value => .ok (value, after)

/-- The first token of a text that does not begin with white space. A faulty one leaves no rest. -/
def scanLexeme (first : UInt8) (rest : List UInt8) : Lexeme × List UInt8 :=
  match asciiOf first with
  | '\x7b' => (.openBrace, rest)
  | '\x7d' => (.closeBrace, rest)
  | '[' => (.openBracket, rest)
  | ']' => (.closeBracket, rest)
  | ',' => (.comma, rest)
  | ':' => (.colon, rest)
  | '"' =>
    match scanString rest with
    | .error fault => (.badString fault, [])
    | .ok (octets, after) =>
      match Text.Utf8.decode? octets with
      | some text => (.string text, after)
      | none => (.badString .malformed, [])
  | 'n' => scanLiteral .null ['u', 'l', 'l'] rest
  | 't' => scanLiteral (.boolean true) ['r', 'u', 'e'] rest
  | 'f' => scanLiteral (.boolean false) ['a', 'l', 's', 'e'] rest
  | c =>
    if c.isDigit ∨ c = '-' then
      match scanNumber (first :: rest) with
      | .error fault => (.badScalar fault, [])
      | .ok (value, after) => (.scalar value, after)
    else (.badScalar .malformed, [])

theorem scanWord_length {word : List Char} {octets after : List UInt8}
    (h : scanWord word octets = .ok after) : after.length ≤ octets.length := by
  induction word generalizing octets with
  | nil => cases h; simp
  | cons c word ih =>
    cases octets with
    | nil => cases h
    | cons octet rest =>
      simp only [scanWord] at h
      split at h
      · have := ih h
        simp only [List.length_cons]
        omega
      · cases h

theorem scanLiteral_length (value : Json) (word : List Char) (octets : List UInt8) :
    (scanLiteral value word octets).2.length ≤ octets.length := by
  unfold scanLiteral
  split
  · simp
  · exact scanWord_length (by assumption)

theorem scanLexeme_length (first : UInt8) (rest : List UInt8) :
    (scanLexeme first rest).2.length ≤ rest.length := by
  unfold scanLexeme
  split <;> try simp
  · split
    · simp
    · rename_i found
      have := scanString_length found
      split
      · simp only; omega
      · simp
  · exact scanLiteral_length _ _ _
  · exact scanLiteral_length _ _ _
  · exact scanLiteral_length _ _ _
  · split
    · rename_i digit
      unfold scanNumber
      have number : isNumberOctet first = true := by
        simp only [isNumberOctet, Bool.or_eq_true, beq_iff_eq]
        rcases digit with digit | digit <;> simp [digit]
      simp only [List.dropWhile_cons, number]
      have := (@List.dropWhile_sublist _ rest isNumberOctet).length_le
      split
      · simp
      · rename_i found
        split at found
        · cases found
        · cases found; simpa using this
    · simp

/-- The tokens of a text, up to the first faulty one. -/
def lexemes : List UInt8 → List Lexeme
  | [] => []
  | octet :: rest =>
    if isSpace octet then lexemes rest
    else (scanLexeme octet rest).1 :: lexemes (scanLexeme octet rest).2
termination_by octets => octets.length
decreasing_by
  · simp
  · have := scanLexeme_length octet rest
    simp only [List.length_cons]
    omega

end DebugBridge.Json
