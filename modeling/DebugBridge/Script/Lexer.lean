import DebugBridge.Script.Fault
import DebugBridge.Script.Token
import DebugBridge.Text.Blank

/-! Splitting script source into tokens.

A source is a sequence of cuts, each a token or a gap between tokens. A cut keeps its spelling, so
that spelling and rest together are always the text that was cut. -/

set_option autoImplicit false

namespace DebugBridge.Script

def isNameStart (c : Char) : Bool := c.isAlpha || c == '_'

def isNamePart (c : Char) : Bool := c.isAlphanum || c == '_'

/-- The longest run of name characters and `::` separators at the start of a text, and what follows. -/
def splitName : List Char → List Char × List Char
  | ':' :: ':' :: rest => (':' :: ':' :: (splitName rest).1, (splitName rest).2)
  -- a single colon ends the name
  | c :: rest => if isNamePart c then (c :: (splitName rest).1, (splitName rest).2) else ([], c :: rest)
  | [] => ([], [])

/-- The text of a string literal up to its closing quote, and what follows the quote. A backslash keeps
the next character from closing. -/
def splitQuoted (quote : Char) : List Char → Option (List Char × List Char)
  | [] => none
  -- nothing is left that could close
  | ['\\'] => none
  | '\\' :: escaped :: rest =>
    (splitQuoted quote rest).map fun (text, after) => ('\\' :: escaped :: text, after)
  | c :: rest =>
    if c = quote then some ([], rest)
    else (splitQuoted quote rest).map fun (text, after) => (c :: text, after)

/-- A block comment up to and including its first `*/`, and what follows. -/
def splitComment : List Char → Option (List Char × List Char)
  | [] => none
  | '*' :: '/' :: rest => some (['*', '/'], rest)
  | c :: rest => (splitComment rest).map fun (text, after) => (c :: text, after)

structure Cut where
  /-- None for white space and comments. -/
  token : Option (TokenKind × List Char)
  spelling : List Char
  rest : List Char

/-- A sigil begins a variable only before a name or a colon. -/
def opensVariable (rest : List Char) : Bool :=
  match rest with
  | c :: _ => isNameStart c || c == ':'
  | [] => false

/-- Cut the first piece off the text `c :: rest`, which begins on the given line. -/
def cut (line : Nat) (c : Char) (rest : List Char) : Except Fault Cut :=
  if Text.isBlank c then .ok ⟨none, [c], rest⟩
  else if c = '/' ∧ rest.head? = some '/' then
    .ok ⟨none, c :: rest.takeWhile (· != '\n'), rest.dropWhile (· != '\n')⟩
  else if c = '/' ∧ rest.head? = some '*' then
    match splitComment rest.tail with
    | some (text, after) => .ok ⟨none, c :: '*' :: text, after⟩
    | none => .error (.unterminatedComment line)
  else if c = '"' ∨ c = '\'' then
    match splitQuoted c rest with
    | some (text, after) => .ok ⟨some (.string, text), c :: (text ++ [c]), after⟩
    | none => .error (.unterminatedString line)
  -- any other sigil is punctuation, such as the sign for remainders
  else if (c = '%' ∨ c = '$') ∧ opensVariable rest then
    let name := (splitName rest).1
    .ok ⟨some (if c = '%' then .localVariable else .globalVariable, name), c :: name, (splitName rest).2⟩
  else if isNameStart c then
    let name := (splitName (c :: rest)).1
    .ok ⟨some (.identifier, name), name, (splitName (c :: rest)).2⟩
  else if c.isDigit then
    let digits := c :: rest.takeWhile fun d => d.isAlphanum || d == '.'
    .ok ⟨some (.number, digits), digits, rest.dropWhile fun d => d.isAlphanum || d == '.'⟩
  else .ok ⟨some (.punctuation, [c]), [c], rest⟩

theorem splitName_append (text : List Char) : (splitName text).1 ++ (splitName text).2 = text := by
  fun_induction splitName text with
  | case1 rest ih => simpa using ih
  | case2 c rest _ _ ih => simpa using ih
  | case3 => rfl
  | case4 => rfl

theorem splitQuoted_append {quote : Char} {text inside after : List Char}
    (h : splitQuoted quote text = some (inside, after)) : inside ++ quote :: after = text := by
  fun_induction splitQuoted quote text generalizing inside with
  | case1 => simp at h
  | case2 => simp at h
  | case3 escaped rest ih =>
    simp only [Option.map_eq_some_iff, Prod.mk.injEq, Prod.exists] at h
    obtain ⟨inner, tail, found, rfl, rfl⟩ := h
    simpa using ih found
  | case4 =>
    simp only [Option.some.injEq, Prod.mk.injEq] at h
    obtain ⟨rfl, rfl⟩ := h
    simp
  | case5 =>
    rename_i ih
    simp only [Option.map_eq_some_iff, Prod.mk.injEq, Prod.exists] at h
    obtain ⟨inner, tail, found, rfl, rfl⟩ := h
    simpa using ih found

theorem splitComment_append {text comment after : List Char}
    (h : splitComment text = some (comment, after)) : comment ++ after = text := by
  fun_induction splitComment text generalizing comment with
  | case1 => simp at h
  | case2 rest =>
    simp only [Option.some.injEq, Prod.mk.injEq] at h
    obtain ⟨rfl, rfl⟩ := h
    rfl
  | case3 c rest _ ih =>
    simp only [Option.map_eq_some_iff, Prod.mk.injEq, Prod.exists] at h
    obtain ⟨inner, tail, found, rfl, rfl⟩ := h
    simpa using ih found

theorem splitName_ne_nil {c : Char} {rest : List Char} (h : isNameStart c = true) :
    (splitName (c :: rest)).1 ≠ [] := by
  have part : isNamePart c = true := by
    simp only [isNameStart, isNamePart, Char.isAlphanum, Bool.or_eq_true] at h ⊢
    rcases h with h | h <;> simp [h]
  have colon : c ≠ ':' := by rintro rfl; exact absurd part (by decide)
  unfold splitName
  split
  · simp
  · simp_all
  · simp_all

/-- Cutting loses nothing. -/
theorem cut_append {line : Nat} {c : Char} {rest : List Char} {k : Cut} (h : cut line c rest = .ok k) :
    k.spelling ++ k.rest = c :: rest := by
  unfold cut at h
  split at h
  · cases h; rfl
  split at h
  · cases h; simp
  split at h
  · rename_i star
    split at h
    · rename_i text after found
      cases h
      have whole := splitComment_append found
      cases rest with
      | nil => simp at star
      | cons d tail => simp_all
    · cases h
  split at h
  · split at h
    · rename_i text after found
      cases h
      simpa using splitQuoted_append found
    · cases h
  split at h
  · cases h; simpa using splitName_append rest
  split at h
  · cases h; exact splitName_append (c :: rest)
  split at h
  · cases h; simp
  · cases h; rfl

theorem cut_spelling_ne_nil {line : Nat} {c : Char} {rest : List Char} {k : Cut}
    (h : cut line c rest = .ok k) : k.spelling ≠ [] := by
  unfold cut at h
  repeat' (first | split at h | cases h)
  all_goals first | exact splitName_ne_nil (by assumption) | simp

theorem cut_rest_length {line : Nat} {c : Char} {rest : List Char} {k : Cut}
    (h : cut line c rest = .ok k) : k.rest.length < (c :: rest).length := by
  have whole := congrArg List.length (cut_append h)
  -- the spelling takes at least one character
  have some' := List.length_pos_iff.mpr (cut_spelling_ne_nil h)
  simp only [List.length_append] at whole
  omega

def tokensFrom (line : Nat) : List Char → Except Fault (List Token)
  | [] => .ok [⟨.endOfFile, "", line⟩]
  | c :: rest =>
    match _step : cut line c rest with
    | .error fault => .error fault
    | .ok k =>
      -- a token stays on the line it began on; its line feeds count for what follows
      match tokensFrom (line + k.spelling.count '\n') k.rest with
      | .error fault => .error fault
      | .ok tokens =>
        match k.token with
        | none => .ok tokens
        | some (kind, lexeme) => .ok (⟨kind, String.ofList lexeme, line⟩ :: tokens)
termination_by text => text.length
decreasing_by exact cut_rest_length _step

def tokenize (source : String) : Except Fault (List Token) := tokensFrom 1 source.toList

end DebugBridge.Script
