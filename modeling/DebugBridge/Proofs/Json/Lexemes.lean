import DebugBridge.Json.Lexer
import DebugBridge.Json.Printer
import DebugBridge.Proofs.Text.Decimal
import DebugBridge.Proofs.Text.Utf8

/-! The compact text of a value splits into the tokens of the value. -/

set_option autoImplicit false

namespace DebugBridge.Json

open Text.Utf8 (encodeChar encodeChars)

/-! ## Strings -/

theorem asciiOf_octet {n : Nat} (ascii : n < 0x80) : asciiOf (UInt8.ofNat n) = Char.ofNat n := by
  rw [asciiOf, Text.Utf8.toNat_octet (by omega)]

theorem toNat_asciiOf (octet : UInt8) : (asciiOf octet).toNat = octet.toNat := by
  have below := octet.toNat_lt
  have valid : octet.toNat.isValidChar := .inl (by omega)
  rw [asciiOf, Char.ofNat, dif_pos valid]
  rfl

structure Verbatim (octet : UInt8) : Prop where
  noQuote : asciiOf octet ≠ '"'
  noBackslash : asciiOf octet ≠ '\\'
  noControl : ¬ octet < 0x20

theorem scanString_verbatim {octet : UInt8} {rest inside after : List UInt8} (verbatim : Verbatim octet)
    (scanned : scanString rest = .ok (inside, after)) :
    scanString (octet :: rest) = .ok (octet :: inside, after) := by
  rw [scanString, if_neg verbatim.noQuote, if_neg verbatim.noBackslash, if_neg verbatim.noControl, scanned]

theorem scanString_verbatims {octets rest inside after : List UInt8} (verbatim : ∀ octet ∈ octets, Verbatim octet)
    (scanned : scanString rest = .ok (inside, after)) :
    scanString (octets ++ rest) = .ok (octets ++ inside, after) := by
  induction octets with
  | nil => exact scanned
  | cons octet octets ih =>
    rw [List.forall_mem_cons] at verbatim
    exact scanString_verbatim verbatim.1 (ih verbatim.2)

theorem scanString_escape {octets rest plain inside after : List UInt8}
    (escape : scanEscape octets = .ok (plain, rest)) (scanned : scanString rest = .ok (inside, after)) :
    scanString (0x5C :: octets) = .ok (plain ++ inside, after) := by
  rw [scanString, if_neg (by decide), if_pos (by decide)]
  split
  · next same => cases escape.symm.trans same
  · next same =>
    obtain ⟨rfl, rfl⟩ := Prod.mk.inj (Except.ok.inj (escape.symm.trans same))
    rw [scanned]

theorem verbatim_of_high {octet : UInt8} (high : 0x80 ≤ octet.toNat) : Verbatim octet := by
  have code := toNat_asciiOf octet
  refine ⟨fun same => ?_, fun same => ?_, fun control => ?_⟩
  · rw [same] at code
    exact absurd (code ▸ high) (by decide)
  · rw [same] at code
    exact absurd (code ▸ high) (by decide)
  · have below : octet.toNat < 0x20 := UInt8.lt_iff_toNat_lt.mp control
    omega

theorem verbatim_encodeChar {c : Char} (noQuote : c ≠ '"') (noBackslash : c ≠ '\\') (noControl : ¬ c.toNat < 0x20) :
    ∀ octet ∈ encodeChar c, Verbatim octet := by
  by_cases ascii : c.toNat < 0x80
  · have code : asciiOf (UInt8.ofNat c.toNat) = c := by rw [asciiOf_octet ascii, Char.ofNat_toNat]
    intro octet member
    rw [Text.Utf8.encodeChar_ascii ascii, List.mem_singleton] at member
    subst member
    refine ⟨by rwa [code], by rwa [code], fun control => noControl ?_⟩
    have below := UInt8.lt_iff_toNat_lt.mp control
    rwa [Text.Utf8.toNat_octet (by omega)] at below
  · intro octet member
    exact verbatim_of_high (Text.Utf8.encodeChar_high (Nat.not_lt.mp ascii) octet member)

theorem scanEscape_control {c : Char} (control : c.toNat < 0x20) (rest : List UInt8) :
    scanEscape (encodeChars ['u', '0', '0', Nat.digitChar (c.toNat / 16), Nat.digitChar (c.toNat % 16)] ++ rest) =
      .ok (encodeChar c, rest) := by
  rw [← Char.ofNat_toNat c]
  generalize c.toNat = n at control
  interval_cases n <;> rfl

theorem scanString_escapeChar {c : Char} {rest inside after : List UInt8}
    (scanned : scanString rest = .ok (inside, after)) :
    scanString (encodeChars (escapeChar c) ++ rest) = .ok (encodeChar c ++ inside, after) := by
  unfold escapeChar
  split
  · exact scanString_escape rfl scanned
  · exact scanString_escape rfl scanned
  · exact scanString_escape rfl scanned
  · exact scanString_escape rfl scanned
  · exact scanString_escape rfl scanned
  · exact scanString_escape rfl scanned
  · exact scanString_escape rfl scanned
  · next noQuote noBackslash _ _ _ _ _ =>
    split
    · next control => exact scanString_escape (scanEscape_control control rest) scanned
    · next noControl =>
      rw [Text.Utf8.encodeChars_cons, encodeChars, List.flatMap_nil, List.append_nil]
      exact scanString_verbatims (verbatim_encodeChar noQuote noBackslash noControl) scanned

theorem scanString_text (text : List Char) (rest : List UInt8) :
    scanString (encodeChars (text.flatMap escapeChar) ++ 0x22 :: rest) = .ok (encodeChars text, rest) := by
  induction text with
  | nil => rw [scanString.eq_def]; rfl
  | cons c text ih =>
    rw [List.flatMap_cons, Text.Utf8.encodeChars_append, List.append_assoc, Text.Utf8.encodeChars_cons]
    exact scanString_escapeChar ih

/-! ## Numbers -/

open Text (span_front)
open Text.Decimal (digits showInt isDigit_of_mem_digits digits_eq_cons)

theorem takeFitting_digits {text : List Char} {value : Nat}
    (fits : Nat.ofDigitChars 10 text value ≤ 0xFFFFFFFFFFFFFFFF) :
    takeFitting value text = (Nat.ofDigitChars 10 text value, []) := by
  induction text generalizing value with
  | nil => rfl
  | cons c rest ih =>
    rw [Nat.ofDigitChars_cons, Nat.mul_comm] at fits ⊢
    have next : value * 10 + Text.Decimal.digitValue c ≤ 0xFFFFFFFFFFFFFFFF :=
      Nat.le_trans (Text.Decimal.le_ofDigitChars rest _) fits
    simp only [takeFitting, if_pos next]
    exact ih fits

theorem takeFitting_shown {n : Nat} (fits : n ≤ 0xFFFFFFFFFFFFFFFF) : takeFitting 0 (digits n) = (n, []) := by
  have value : Nat.ofDigitChars 10 (digits n) 0 = n := Nat.ofDigitChars_ten_toDigits
  rw [takeFitting_digits (by rwa [value]), value]

theorem head_digits {n : Nat} (zero : (digits n).head? = some '0') : n = 0 := by
  induction n using Nat.strongRecOn with
  | ind n ih =>
    rw [digits, Nat.toDigits_eq_if (by decide)] at zero
    split at zero
    · next small =>
      rw [List.head?_cons] at zero
      interval_cases n
      · rfl
      all_goals cases zero
    · next great =>
      have higher : n / 10 = 0 := by
        apply ih (n / 10) (by omega)
        rw [List.head?_append] at zero
        cases front : digits (n / 10) with
        | nil => exact absurd front Nat.toDigits_ne_nil
        | cons c rest =>
          rw [digits] at front
          simpa [front] using zero
      omega

theorem readUnsigned_shown {n : Nat} (fits : n ≤ 0xFFFFFFFFFFFFFFFF) (due : Fault) (negative : Bool) :
    readUnsigned due negative (digits n) = integerOf negative n := by
  have nonempty : (digits n).isEmpty = false := by simp [digits, Nat.toDigits_ne_nil]
  have leading : ¬ ((digits n).head? = some '0' ∧ digits n ≠ ['0']) := by
    rintro ⟨zero, more⟩
    rw [head_digits zero] at more
    exact more rfl
  have all : ∀ c ∈ digits n, c.isDigit = true := fun _ => isDigit_of_mem_digits
  have ends : ∀ c ∈ ([] : List Char).head?, c.isDigit = false := by simp
  obtain ⟨whole, nothing⟩ := span_front all ends
  rw [List.append_nil] at whole nothing
  unfold readUnsigned
  simp only [whole, nothing, takeFitting_shown fits, nonempty, leading, Bool.false_eq_true, or_self, if_false,
    List.isEmpty_nil, if_true]

theorem readNumber_shown {i : Int} (above : -0x8000000000000000 ≤ i) (below : i ≤ 0xFFFFFFFFFFFFFFFF) (due : Fault) :
    readNumber due (showInt i).toList = .ok (.integer i) := by
  cases i with
  | ofNat n =>
    obtain ⟨c, rest, shown, digit⟩ := digits_eq_cons n
    have minus : c ≠ '-' := Text.Decimal.ne_of_isDigit digit rfl
    have unsigned : readNumber due (digits n) = readUnsigned due false (digits n) := by
      rw [shown]
      unfold readNumber
      split <;> simp_all
    have fits : n ≤ 0xFFFFFFFFFFFFFFFF := Int.ofNat_le.mp below
    rw [showInt, Text.Decimal.showNat, String.toList_ofList, unsigned, readUnsigned_shown fits]
    rfl
  | negSucc n =>
    have fits : n + 1 ≤ 0x8000000000000000 := by omega
    rw [showInt, String.toList_ofList, readNumber, readUnsigned_shown (by omega)]
    simp only [integerOf, Nat.succ_pos, fits]
    rfl

theorem ascii_shown {i : Int} {c : Char} (member : c ∈ (showInt i).toList) : c.toNat < 0x80 := by
  rcases Text.Decimal.mem_showInt member with digit | rfl
  · simp only [Char.isDigit, Bool.and_eq_true, decide_eq_true_eq] at digit
    exact Nat.lt_of_le_of_lt (UInt32.le_iff_toNat_le.mp digit.2) (by decide)
  · decide

theorem map_asciiOf_encodeChars {text : List Char} (ascii : ∀ c ∈ text, c.toNat < 0x80) :
    (encodeChars text).map asciiOf = text := by
  induction text with
  | nil => rfl
  | cons c text ih =>
    rw [List.forall_mem_cons] at ascii
    rw [Text.Utf8.encodeChars_cons, Text.Utf8.encodeChar_ascii ascii.1, List.singleton_append, List.map_cons,
      asciiOf_octet ascii.1, Char.ofNat_toNat, ih ascii.2]

theorem isNumberOctet_shown {i : Int} {octet : UInt8} (member : octet ∈ encodeChars (showInt i).toList) :
    isNumberOctet octet = true := by
  have shown : asciiOf octet ∈ (showInt i).toList := by
    rw [← map_asciiOf_encodeChars fun _ => ascii_shown]
    exact List.mem_map_of_mem member
  rcases Text.Decimal.mem_showInt shown with digit | minus
  · simp [isNumberOctet, digit]
  · simp [isNumberOctet, minus]

def EndsNumber (rest : List UInt8) : Prop := ∀ octet ∈ rest.head?, isNumberOctet octet = false

theorem endsNumber_cons {octet : UInt8} (other : isNumberOctet octet = false) (rest : List UInt8) :
    EndsNumber (octet :: rest) := by
  intro first same
  cases same
  exact other

theorem scanNumber_shown {i : Int} {rest : List UInt8} (above : -0x8000000000000000 ≤ i)
    (below : i ≤ 0xFFFFFFFFFFFFFFFF) (ends : EndsNumber rest) :
    scanNumber (encodeChars (showInt i).toList ++ rest) = .ok (.integer i, rest) := by
  obtain ⟨number, after⟩ := span_front (fun _ => isNumberOctet_shown (i := i)) ends
  simp only [scanNumber, number, after, map_asciiOf_encodeChars fun _ => ascii_shown,
    readNumber_shown above below]

/-! ## Tokens -/

theorem lexemes_nil : lexemes [] = [] := by
  rw [lexemes]

theorem lexemes_scanned {first : UInt8} {rest : List UInt8} (visible : isSpace first = false) :
    lexemes (first :: rest) = (scanLexeme first rest).1 :: lexemes (scanLexeme first rest).2 := by
  rw [lexemes, if_neg (by simp [visible])]

theorem scanLexeme_number {first : UInt8} {rest after : List UInt8} {value : Json}
    (begins : (asciiOf first).isDigit = true ∨ asciiOf first = '-')
    (scanned : scanNumber (first :: rest) = .ok (value, after)) :
    scanLexeme first rest = (.scalar value, after) := by
  unfold scanLexeme
  split <;> simp_all

theorem lexemes_number {i : Int} {rest : List UInt8} (above : -0x8000000000000000 ≤ i)
    (below : i ≤ 0xFFFFFFFFFFFFFFFF) (ends : EndsNumber rest) :
    lexemes (encodeChars (showInt i).toList ++ rest) = .scalar (.integer i) :: lexemes rest := by
  have scanned := scanNumber_shown above below ends
  obtain ⟨c, text, shown⟩ := Text.Decimal.showInt_eq_cons i
  have member : c ∈ (showInt i).toList := by simp [shown]
  have begins := Text.Decimal.mem_showInt member
  have ascii := ascii_shown member
  have code : asciiOf (UInt8.ofNat c.toNat) = c := by rw [asciiOf_octet ascii, Char.ofNat_toNat]
  have visible : isSpace (UInt8.ofNat c.toNat) = false := by
    rw [isSpace, code]
    rcases begins with digit | rfl
    · simp [Text.Decimal.ne_of_isDigit digit]
    · rfl
  rw [shown, Text.Utf8.encodeChars_cons, Text.Utf8.encodeChar_ascii ascii, List.singleton_append,
    List.cons_append] at scanned ⊢
  rw [lexemes_scanned visible, scanLexeme_number (by rwa [code]) scanned]

theorem lexemes_string (text : String) (rest : List UInt8) :
    lexemes (encodeChars (renderString text) ++ rest) = .string text :: lexemes rest := by
  have scanned := scanString_text text.toList rest
  have octets : encodeChars (renderString text) ++ rest =
      0x22 :: (encodeChars (text.toList.flatMap escapeChar) ++ 0x22 :: rest) := by
    rw [renderString, Text.Utf8.encodeChars_cons, Text.Utf8.encodeChars_append]
    simp [Text.Utf8.encodeChar_ascii, encodeChars]
  have lexeme : scanLexeme 0x22 (encodeChars (text.toList.flatMap escapeChar) ++ 0x22 :: rest) =
      (.string text, rest) := by
    have quote : asciiOf 0x22 = '"' := rfl
    simp only [scanLexeme, quote, scanned, Text.Utf8.decode?_encodeChars, String.ofList_toList]
  rw [octets, lexemes_scanned (by decide), lexeme]

/-! ## Values -/

mutual

def tokens : Json → List Lexeme
  | .string text => [.string text]
  | .array items => .openBracket :: (tokensOfItems items ++ [.closeBracket])
  | .object members => .openBrace :: (tokensOfMembers members ++ [.closeBrace])
  | value => [.scalar value]

def tokensOfItems : List Json → List Lexeme
  | [] => []
  | [last] => tokens last
  | first :: second :: rest => tokens first ++ .comma :: tokensOfItems (second :: rest)

def tokensOfMembers : List (String × Json) → List Lexeme
  | [] => []
  | [(key, value)] => .string key :: .colon :: tokens value
  | (key, value) :: second :: rest =>
    .string key :: .colon :: (tokens value ++ .comma :: tokensOfMembers (second :: rest))

end

mutual

/-- Integers of 64 bits, each key of an object once and in order, and no number with a fraction or exponent. -/
def Plain : Json → Prop
  | .null | .boolean _ | .string _ => True
  | .integer i => -0x8000000000000000 ≤ i ∧ i ≤ 0xFFFFFFFFFFFFFFFF
  | .real _ => False
  | .array items => PlainItems items
  | .object members => (members.map Prod.fst).Pairwise (· < ·) ∧ PlainMembers members

def PlainItems : List Json → Prop
  | [] => True
  | first :: rest => first.Plain ∧ PlainItems rest

def PlainMembers : List (String × Json) → Prop
  | [] => True
  | (_, value) :: rest => value.Plain ∧ PlainMembers rest

end

theorem lexemes_mark {octet : UInt8} {lexeme : Lexeme} (visible : isSpace octet = false)
    (mark : ∀ rest, scanLexeme octet rest = (lexeme, rest)) (rest : List UInt8) :
    lexemes (octet :: rest) = lexeme :: lexemes rest := by
  rw [lexemes_scanned visible, mark]

theorem lexemes_comma : ∀ rest, lexemes (0x2C :: rest) = .comma :: lexemes rest :=
  lexemes_mark (by decide) fun _ => rfl

theorem lexemes_colon : ∀ rest, lexemes (0x3A :: rest) = .colon :: lexemes rest :=
  lexemes_mark (by decide) fun _ => rfl

theorem lexemes_openBracket : ∀ rest, lexemes (0x5B :: rest) = .openBracket :: lexemes rest :=
  lexemes_mark (by decide) fun _ => rfl

theorem lexemes_closeBracket : ∀ rest, lexemes (0x5D :: rest) = .closeBracket :: lexemes rest :=
  lexemes_mark (by decide) fun _ => rfl

theorem lexemes_openBrace : ∀ rest, lexemes (0x7B :: rest) = .openBrace :: lexemes rest :=
  lexemes_mark (by decide) fun _ => rfl

theorem lexemes_closeBrace : ∀ rest, lexemes (0x7D :: rest) = .closeBrace :: lexemes rest :=
  lexemes_mark (by decide) fun _ => rfl

theorem octets_bracketed (opening closing : Char) (inner : List Char) (rest : List UInt8) :
    encodeChars (opening :: (inner ++ [closing])) ++ rest =
      encodeChar opening ++ (encodeChars inner ++ (encodeChar closing ++ rest)) := by
  simp [encodeChars]

theorem octets_separated (front : List Char) (separator : Char) (back : List Char) (rest : List UInt8) :
    encodeChars (front ++ separator :: back) ++ rest =
      encodeChars front ++ (encodeChar separator ++ (encodeChars back ++ rest)) := by
  simp [encodeChars]

theorem lexemes_array {items : List Json} {rest : List UInt8}
    (inner : lexemes (encodeChars (renderItems items) ++ 0x5D :: rest) =
      tokensOfItems items ++ lexemes (0x5D :: rest)) :
    lexemes (encodeChars (array items).render ++ rest) = (array items).tokens ++ lexemes rest := by
  have octets : encodeChars (array items).render ++ rest =
      0x5B :: (encodeChars (renderItems items) ++ 0x5D :: rest) := octets_bracketed '[' ']' _ rest
  rw [octets, lexemes_openBracket, inner, lexemes_closeBracket, tokens, List.cons_append, List.append_assoc,
    List.singleton_append]

theorem lexemes_object {members : List (String × Json)} {rest : List UInt8}
    (inner : lexemes (encodeChars (renderMembers members) ++ 0x7D :: rest) =
      tokensOfMembers members ++ lexemes (0x7D :: rest)) :
    lexemes (encodeChars (object members).render ++ rest) = (object members).tokens ++ lexemes rest := by
  have octets : encodeChars (object members).render ++ rest =
      0x7B :: (encodeChars (renderMembers members) ++ 0x7D :: rest) := octets_bracketed '\x7b' '\x7d' _ rest
  rw [octets, lexemes_openBrace, inner, lexemes_closeBrace, tokens, List.cons_append, List.append_assoc,
    List.singleton_append]

mutual

theorem lexemes_render {value : Json} {rest : List UInt8} (plain : value.Plain) (ends : EndsNumber rest) :
    lexemes (encodeChars value.render ++ rest) = value.tokens ++ lexemes rest := by
  cases value with
  | null =>
    rw [render]
    exact lexemes_scanned (rfl : isSpace 0x6E = false)
  | boolean b =>
    cases b with
    | true => exact lexemes_scanned (rfl : isSpace 0x74 = false)
    | false => exact lexemes_scanned (rfl : isSpace 0x66 = false)
  | integer i => exact lexemes_number plain.1 plain.2 ends
  | real x => cases plain
  | string text => exact lexemes_string text rest
  | array items => exact lexemes_array (lexemes_renderItems plain (endsNumber_cons (by decide) rest))
  | object members => exact lexemes_object (lexemes_renderMembers plain.2 (endsNumber_cons (by decide) rest))

theorem lexemes_renderItems {items : List Json} {rest : List UInt8} (plain : PlainItems items)
    (ends : EndsNumber rest) :
    lexemes (encodeChars (renderItems items) ++ rest) = tokensOfItems items ++ lexemes rest := by
  match items with
  | [] => rfl
  | [last] => exact lexemes_render plain.1 ends
  | first :: second :: more =>
    have octets : encodeChars (renderItems (first :: second :: more)) ++ rest =
        encodeChars first.render ++ 0x2C :: (encodeChars (renderItems (second :: more)) ++ rest) :=
      octets_separated first.render ',' _ rest
    rw [octets, lexemes_render plain.1 (endsNumber_cons (by decide) _), lexemes_comma,
      lexemes_renderItems plain.2 ends, tokensOfItems, List.append_assoc, List.cons_append]

theorem lexemes_renderMembers {members : List (String × Json)} {rest : List UInt8} (plain : PlainMembers members)
    (ends : EndsNumber rest) :
    lexemes (encodeChars (renderMembers members) ++ rest) = tokensOfMembers members ++ lexemes rest := by
  match members with
  | [] => rfl
  | [(key, value)] =>
    have octets : encodeChars (renderMembers [(key, value)]) ++ rest =
        encodeChars (renderString key) ++ 0x3A :: (encodeChars value.render ++ rest) :=
      octets_separated (renderString key) ':' value.render rest
    rw [octets, lexemes_string, lexemes_colon, lexemes_render plain.1 ends, tokensOfMembers]
    rfl
  | (key, value) :: second :: more =>
    have octets : encodeChars (renderMembers ((key, value) :: second :: more)) ++ rest =
        encodeChars (renderString key) ++ 0x3A ::
          (encodeChars value.render ++ 0x2C :: (encodeChars (renderMembers (second :: more)) ++ rest)) := by
      rw [renderMembers, octets_separated, octets_separated]
      rfl
    rw [octets, lexemes_string, lexemes_colon, lexemes_render plain.1 (endsNumber_cons (by decide) _), lexemes_comma,
      lexemes_renderMembers plain.2 ends, tokensOfMembers]
    simp

end

end DebugBridge.Json
