import DebugBridge.Proofs.Text.Decimal
import DebugBridge.Script.Lexer

/-! The pieces that a script is made of, told by their spelling and by what may follow them. What is cut off a text is a
piece, and a piece at the start of a text is what is cut off. -/

set_option autoImplicit false

namespace DebugBridge.Script

open Text (span_front head_dropWhile all_takeWhile)

/-! ## Gaps -/

inductive Spacing : List Char → List Char → Prop where
  | blank {c : Char} {rest : List Char} (isBlank : Text.isBlank c = true) : Spacing [c] rest
  | lineComment {text rest : List Char} (oneLine : '\n' ∉ text) (ends : ∀ c ∈ rest.head?, c = '\n') :
    Spacing ('/' :: '/' :: text) rest
  | blockComment {text rest : List Char} (first : ¬ ['*', '/'] <:+: text ++ ['*']) :
    Spacing ('/' :: '*' :: (text ++ ['*', '/'])) rest

inductive Gap : List Char → List Char → Prop where
  | nil {rest : List Char} : Gap [] rest
  | cons {piece gap rest : List Char} (first : Spacing piece (gap ++ rest)) (others : Gap gap rest) :
    Gap (piece ++ gap) rest

/-! ## Tokens -/

inductive IsName : List Char → Prop where
  | nil : IsName []
  | part {c : Char} {rest : List Char} (isPart : isNamePart c = true) (others : IsName rest) : IsName (c :: rest)
  | separator {rest : List Char} (others : IsName rest) : IsName (':' :: ':' :: rest)

structure EndsName (rest : List Char) : Prop where
  noPart : ∀ c ∈ rest.head?, isNamePart c = false
  noSeparator : ¬ [':', ':'] <+: rest

def isNumberPart (c : Char) : Bool := c.isAlphanum || c == '.'

/-- The characters of a text that no backslash stands before, with a backslash that has nothing behind it. -/
def unescaped : List Char → List Char
  | '\\' :: _ :: rest => unescaped rest
  | c :: rest => c :: unescaped rest
  | [] => []

def isQuote (c : Char) : Bool := c == '"' || c == '\''

def isMark (c : Char) : Bool := ! Text.isBlank c && ! isQuote c && ! isNameStart c && ! c.isDigit

def IsLexeme (kind : TokenKind) (lexeme : List Char) : Prop :=
  match kind with
  | .identifier => IsName lexeme ∧ ∃ c ∈ lexeme.head?, isNameStart c = true
  | .localVariable | .globalVariable => IsName lexeme ∧ ∀ c ∈ lexeme.head?, isNameStart c = true ∨ c = ':'
  | .number => (∀ c ∈ lexeme, isNumberPart c = true) ∧ ∃ c ∈ lexeme.head?, c.isDigit = true
  | .string => '\\' ∉ unescaped lexeme
  | .punctuation => ∃ c, lexeme = [c] ∧ isMark c = true
  | .endOfFile => False

/-- A variable has its sigil before its lexeme, and a string has quotes around it that are not taken for its end. -/
def IsSpelling (kind : TokenKind) (lexeme spelling : List Char) : Prop :=
  match kind with
  | .localVariable => spelling = '%' :: lexeme
  | .globalVariable => spelling = '$' :: lexeme
  | .string => ∃ quote, isQuote quote = true ∧ quote ∉ unescaped lexeme ∧ spelling = quote :: (lexeme ++ [quote])
  | _ => spelling = lexeme

def EndsBefore (kind : TokenKind) (lexeme rest : List Char) : Prop :=
  match kind with
  | .identifier => EndsName rest
  -- a sigil alone is a variable before a single colon
  | .localVariable | .globalVariable => EndsName rest ∧ (lexeme = [] → rest.head? = some ':')
  | .number => ∀ c ∈ rest.head?, isNumberPart c = false
  | .punctuation =>
    (lexeme = ['/'] → ∀ c ∈ rest.head?, c ≠ '/' ∧ c ≠ '*') ∧
      (lexeme = ['%'] ∨ lexeme = ['$'] → opensVariable rest = false)
  | .string | .endOfFile => True

/-- A token or a part of a gap, its spelling, and the text behind it. -/
inductive Piece : Option (TokenKind × List Char) → List Char → List Char → Prop where
  | spacing {spelling rest : List Char} (spaces : Spacing spelling rest) : Piece none spelling rest
  | token {kind : TokenKind} {lexeme spelling rest : List Char} (isLexeme : IsLexeme kind lexeme)
    (isSpelling : IsSpelling kind lexeme spelling) (ends : EndsBefore kind lexeme rest) :
    Piece (some (kind, lexeme)) spelling rest

/-! ## Characters -/

theorem start_range {c : Char} (starts : isNameStart c = true) : 65 ≤ c.toNat ∧ c.toNat ≤ 122 := by
  simp only [isNameStart, Bool.or_eq_true, beq_iff_eq] at starts
  rcases starts with letter | rfl
  · rcases Bool.or_eq_true_iff.mp letter with upper | lower
    · obtain ⟨least, greatest⟩ : c.val ≥ 'A'.val ∧ c.val ≤ 'Z'.val := of_decide_eq_true upper
      exact ⟨UInt32.le_iff_toNat_le.mp least, Nat.le_trans (UInt32.le_iff_toNat_le.mp greatest) (by decide)⟩
    · obtain ⟨least, greatest⟩ := Bool.and_eq_true_iff.mp lower
      have above : 'a'.val ≤ c.val := of_decide_eq_true least
      have below : c.val ≤ 'z'.val := of_decide_eq_true greatest
      exact ⟨Nat.le_trans (by decide) (UInt32.le_iff_toNat_le.mp above), UInt32.le_iff_toNat_le.mp below⟩
  · decide

theorem isNamePart_of_start {c : Char} (starts : isNameStart c = true) : isNamePart c = true := by
  simp only [isNameStart, isNamePart, Char.isAlphanum, Bool.or_eq_true] at starts ⊢
  exact starts.imp_left .inl

theorem isNameStart_digit {c : Char} (digit : c.isDigit = true) : isNameStart c = false := by
  rw [Bool.eq_false_iff]
  intro starts
  have least := (start_range starts).1
  have greatest := (Text.Decimal.isDigit_range digit).2
  omega

/-! ## Names -/

theorem isName_splitName (text : List Char) : IsName (splitName text).1 := by
  fun_induction splitName text with
  | case1 rest ih => exact .separator ih
  | case2 c rest _ isPart ih => exact .part isPart ih
  | case3 => exact .nil
  | case4 => exact .nil

theorem endsName_splitName (text : List Char) : EndsName (splitName text).2 := by
  fun_induction splitName text with
  | case1 rest ih => exact ih
  | case2 c rest _ _ ih => exact ih
  | case3 c rest single noPart =>
    refine ⟨fun d first => ?_, fun separator => ?_⟩
    · obtain rfl := Option.some.inj first
      exact Bool.eq_false_iff.mpr noPart
    · obtain ⟨tail, same⟩ := separator
      obtain ⟨rfl, rfl⟩ := List.cons.inj same
      exact single tail rfl rfl
  | case4 => exact ⟨fun _ first => (by cases first), by simp⟩

theorem splitName_ended {rest : List Char} (ends : EndsName rest) : splitName rest = ([], rest) := by
  fun_cases splitName rest with
  | case1 rest => exact (ends.noSeparator ⟨rest, rfl⟩).elim
  | case2 c rest _ isPart => cases isPart.symm.trans (ends.noPart c rfl)
  | case3 c rest _ noPart => rfl
  | case4 => rfl

/-- The longest name is read. -/
theorem splitName_name {name rest : List Char} (isName : IsName name) (ends : EndsName rest) :
    splitName (name ++ rest) = (name, rest) := by
  induction isName with
  | nil => exact splitName_ended ends
  | @part c name isPart _ ih =>
    -- no separator begins with a name character
    have single (tail : List Char) (colon : c = ':') (_ : name ++ rest = ':' :: tail) : False := by
      rw [colon] at isPart
      cases isPart
    rw [List.cons_append, splitName.eq_2 c (name ++ rest) single, if_pos isPart, ih]
  | separator _ ih => rw [List.cons_append, List.cons_append, splitName, ih]

theorem head?_splitName {c : Char} {rest : List Char} (starts : isNameStart c = true) :
    (splitName (c :: rest)).1.head? = some c := by
  have whole := splitName_append (c :: rest)
  cases read : (splitName (c :: rest)).1 with
  | nil => exact (splitName_ne_nil starts read).elim
  | cons d name =>
    rw [read] at whole
    rw [(List.cons.inj whole).1, List.head?_cons]

/-- A sigil is told from punctuation by the name behind it, or by what follows it where the name is empty. -/
theorem opensVariable_name {name rest : List Char} (ends : EndsName rest) :
    opensVariable (name ++ rest) = true ↔
      (∀ c ∈ name.head?, isNameStart c = true ∨ c = ':') ∧ (name = [] → rest.head? = some ':') := by
  cases name with
  | cons c name => simp [opensVariable]
  | nil =>
    cases rest with
    | nil => simp [opensVariable]
    | cons c rest =>
      have noStart : isNameStart c = false := by
        rw [Bool.eq_false_iff]
        intro starts
        cases (ends.noPart c rfl).symm.trans (isNamePart_of_start starts)
      simp [opensVariable, noStart]

/-! ## Strings -/

theorem unescaped_plain {c : Char} {rest : List Char} (plain : c ≠ '\\') :
    unescaped (c :: rest) = c :: unescaped rest :=
  unescaped.eq_2 c rest fun _ _ same _ => plain same

theorem isQuote_plain {quote : Char} (quotes : isQuote quote = true) : quote ≠ '\\' := by
  rintro rfl
  cases quotes

theorem splitQuoted_closed {quote : Char} {text inside after : List Char}
    (h : splitQuoted quote text = some (inside, after)) : quote ∉ unescaped inside ∧ '\\' ∉ unescaped inside := by
  fun_induction splitQuoted quote text generalizing inside with
  | case1 => cases h
  | case2 => cases h
  | case3 escaped rest ih =>
    obtain ⟨⟨inner, tail⟩, found, same⟩ := Option.map_eq_some_iff.mp h
    obtain ⟨rfl, rfl⟩ := Prod.mk.inj same
    have closed := ih found
    exact closed
  | case4 =>
    obtain ⟨rfl, rfl⟩ := Prod.mk.inj (Option.some.inj h)
    exact ⟨List.not_mem_nil, List.not_mem_nil⟩
  | case5 c rest last escape open_ ih =>
    obtain ⟨⟨inner, tail⟩, found, same⟩ := Option.map_eq_some_iff.mp h
    obtain ⟨rfl, rfl⟩ := Prod.mk.inj same
    have plain : c ≠ '\\' := by
      rintro rfl
      cases rest with
      | nil => exact last rfl rfl
      | cons escaped rest => exact escape escaped rest rfl rfl
    rw [unescaped_plain plain, List.mem_cons, List.mem_cons]
    obtain ⟨noQuote, noBackslash⟩ := ih found
    exact ⟨not_or.mpr ⟨Ne.symm open_, noQuote⟩, not_or.mpr ⟨Ne.symm plain, noBackslash⟩⟩

/-- A string is read up to its first quote that is not escaped. -/
theorem splitQuoted_quoted {quote : Char} {inside : List Char} (quotes : isQuote quote = true)
    (noQuote : quote ∉ unescaped inside) (noBackslash : '\\' ∉ unescaped inside) (after : List Char) :
    splitQuoted quote (inside ++ quote :: after) = some (inside, after) := by
  have plain := isQuote_plain quotes
  fun_induction unescaped inside with
  | case1 escaped rest ih =>
    rw [List.cons_append, List.cons_append, splitQuoted, ih noQuote noBackslash]
    rfl
  | case2 c rest escape ih =>
    rw [List.mem_cons, not_or] at noQuote noBackslash
    have here : c ≠ '\\' := Ne.symm noBackslash.1
    rw [List.cons_append, splitQuoted.eq_4 quote c (rest ++ quote :: after) (fun same _ => here same)
      (fun _ _ same _ => here same), if_neg (Ne.symm noQuote.1), ih noQuote.2 noBackslash.2]
    rfl
  | case3 =>
    rw [List.nil_append, splitQuoted.eq_4 quote quote after (fun same _ => plain same)
      (fun _ _ same _ => plain same), if_pos rfl]

/-! ## Comments -/

theorem closes_at_once {c : Char} {text : List Char} :
    ['*', '/'] <+: c :: (text ++ ['*']) ↔ c = '*' ∧ text.head? = some '/' := by
  cases text with
  | nil => simp
  | cons d rest => simp [eq_comm]

theorem splitComment_closed {text comment after : List Char} (h : splitComment text = some (comment, after)) :
    ∃ inside, comment = inside ++ ['*', '/'] ∧ ¬ ['*', '/'] <:+: inside ++ ['*'] := by
  fun_induction splitComment text generalizing comment with
  | case1 => cases h
  | case2 rest =>
    obtain ⟨rfl, rfl⟩ := Prod.mk.inj (Option.some.inj h)
    exact ⟨[], rfl, by decide⟩
  | case3 c rest goesOn ih =>
    obtain ⟨⟨inner, tail⟩, found, same⟩ := Option.map_eq_some_iff.mp h
    obtain ⟨rfl, rfl⟩ := Prod.mk.inj same
    obtain ⟨inside, rfl, first⟩ := ih found
    refine ⟨c :: inside, rfl, ?_⟩
    rw [List.cons_append, List.infix_cons_iff, closes_at_once]
    rintro (⟨rfl, slash⟩ | later)
    · obtain ⟨inside, rfl⟩ := List.head?_eq_some_iff.mp slash
      exact goesOn _ rfl (splitComment_append found).symm
    · exact first later

/-- A comment is read up to its first `*/`. -/
theorem splitComment_comment {inside : List Char} (first : ¬ ['*', '/'] <:+: inside ++ ['*']) (after : List Char) :
    splitComment (inside ++ '*' :: '/' :: after) = some (inside ++ ['*', '/'], after) := by
  induction inside with
  | nil => rfl
  | cons c inside ih =>
    rw [List.cons_append, List.infix_cons_iff, closes_at_once, not_or] at first
    have goesOn (tail : List Char) (star : c = '*') (slash : inside ++ '*' :: '/' :: after = '/' :: tail) : False := by
      refine first.1 ⟨star, ?_⟩
      cases inside with
      | nil => cases slash
      | cons d inside => rw [(List.cons.inj slash).1, List.head?_cons]
    rw [List.cons_append, splitComment.eq_3 c _ goesOn, ih first.2]
    rfl

/-! ## Cuts -/

theorem cut_piece {line : Nat} {c : Char} {rest : List Char} {k : Cut} (read : cut line c rest = .ok k) :
    Piece k.token k.spelling k.rest := by
  -- branch by branch: what the earlier ones turned down is what makes the last one a mark that nothing joins
  unfold cut at read
  split at read
  · next blank =>
    obtain rfl := Except.ok.inj read
    exact .spacing (.blank blank)
  next noBlank =>
  split at read
  · next slashes =>
    obtain rfl := Except.ok.inj read
    obtain ⟨rfl, second⟩ := slashes
    obtain ⟨rest, rfl⟩ := List.head?_eq_some_iff.mp second
    refine .spacing (@Spacing.lineComment (rest.takeWhile (· != '\n')) _ ?_ fun c first => ?_)
    · intro lineFeed
      cases all_takeWhile (· != '\n') rest _ lineFeed
    · simpa using head_dropWhile (· != '\n') rest c first
  next noLine =>
  split at read
  · next slashStar =>
    obtain ⟨rfl, second⟩ := slashStar
    obtain ⟨rest, rfl⟩ := List.head?_eq_some_iff.mp second
    split at read
    · next comment after found =>
      obtain rfl := Except.ok.inj read
      obtain ⟨inside, rfl, first⟩ := splitComment_closed found
      exact .spacing (.blockComment first)
    · cases read
  next noBlock =>
  split at read
  · next quotes =>
    split at read
    · next inside after found =>
      obtain rfl := Except.ok.inj read
      obtain ⟨noQuote, noBackslash⟩ := splitQuoted_closed found
      exact .token noBackslash ⟨c, by simpa [isQuote] using quotes, noQuote, rfl⟩ trivial
    · cases read
  next noQuotes =>
  split at read
  · next sigil =>
    obtain rfl := Except.ok.inj read
    have ends := endsName_splitName rest
    have opens := sigil.2
    rw [← splitName_append rest, opensVariable_name ends] at opens
    rcases sigil.1 with rfl | rfl
    · exact .token ⟨isName_splitName rest, opens.1⟩ rfl ⟨ends, opens.2⟩
    · exact .token ⟨isName_splitName rest, opens.1⟩ rfl ⟨ends, opens.2⟩
  next noVariable =>
  split at read
  · next starts =>
    obtain rfl := Except.ok.inj read
    refine .token ⟨isName_splitName _, c, ?_, starts⟩ rfl (endsName_splitName _)
    exact head?_splitName starts
  next noStart =>
  split at read
  · next digit =>
    obtain rfl := Except.ok.inj read
    refine .token ⟨List.forall_mem_cons.mpr ⟨?_, all_takeWhile _ rest⟩, c, rfl, digit⟩ rfl (head_dropWhile _ rest)
    simp [isNumberPart, Char.isAlphanum, digit]
  next noDigit =>
  obtain rfl := Except.ok.inj read
  refine .token ⟨c, rfl, by simp_all [isMark, isQuote]⟩ rfl ⟨fun slash d next => ?_, fun sigil => ?_⟩
  · obtain rfl := List.singleton_inj.mp slash
    constructor
    · rintro rfl
      exact noLine ⟨rfl, next⟩
    · rintro rfl
      exact noBlock ⟨rfl, next⟩
  · have isSigil : c = '%' ∨ c = '$' := sigil.imp List.singleton_inj.mp List.singleton_inj.mp
    exact Bool.eq_false_iff.mpr fun opens => noVariable ⟨isSigil, opens⟩

section

variable {c : Char} {rest : List Char} (line : Nat)

theorem cut_string (quotes : isQuote c = true) : cut line c rest =
    match splitQuoted c rest with
    | some (inside, after) => .ok ⟨some (.string, inside), c :: (inside ++ [c]), after⟩
    | none => .error (.unterminatedString line) := by
  have quote : c = '"' ∨ c = '\'' := by simpa [isQuote] using quotes
  unfold cut
  rcases quote with rfl | rfl <;> rfl

theorem cut_variable (sigil : c = '%' ∨ c = '$') (opens : opensVariable rest = true) : cut line c rest =
    .ok ⟨some (if c = '%' then .localVariable else .globalVariable, (splitName rest).1), c :: (splitName rest).1,
      (splitName rest).2⟩ := by
  unfold cut
  rcases sigil with rfl | rfl <;> simp [opens, Text.isBlank]

theorem cut_identifier (starts : isNameStart c = true) : cut line c rest =
    .ok ⟨some (.identifier, (splitName (c :: rest)).1), (splitName (c :: rest)).1, (splitName (c :: rest)).2⟩ := by
  have range := start_range starts
  have other (d : Char) (noStart : isNameStart d = false) : c ≠ d := by
    rintro rfl
    cases starts.symm.trans noStart
  rw [cut, Text.isBlank_printable (by omega) (by omega)]
  simp [other '/' rfl, other '"' rfl, other '\'' rfl, other '%' rfl, other '$' rfl, starts]

theorem cut_number (digit : c.isDigit = true) : cut line c rest =
    .ok ⟨some (.number, c :: rest.takeWhile isNumberPart), c :: rest.takeWhile isNumberPart,
      rest.dropWhile isNumberPart⟩ := by
  have range := Text.Decimal.isDigit_range digit
  have other (d : Char) (noDigit : d.isDigit = false) : c ≠ d := Text.Decimal.ne_of_isDigit digit noDigit
  rw [cut, Text.isBlank_printable (by omega) (by omega)]
  simp [other '/' rfl, other '"' rfl, other '\'' rfl, other '%' rfl, other '$' rfl, isNameStart_digit digit, digit]
  exact ⟨rfl, rfl⟩

theorem cut_punctuation (mark : isMark c = true) (noComment : c = '/' → ∀ d ∈ rest.head?, d ≠ '/' ∧ d ≠ '*')
    (noVariable : c = '%' ∨ c = '$' → opensVariable rest = false) :
    cut line c rest = .ok ⟨some (.punctuation, [c]), [c], rest⟩ := by
  simp only [isMark, isQuote, Bool.and_eq_true, Bool.not_eq_true', Bool.or_eq_false_iff, beq_eq_false_iff_ne] at mark
  obtain ⟨⟨⟨noBlank, noQuote⟩, noStart⟩, noDigit⟩ := mark
  rw [cut, if_neg (by simp [noBlank]), if_neg fun line => (noComment line.1 _ line.2).1 rfl,
    if_neg fun block => (noComment block.1 _ block.2).2 rfl, if_neg (not_or.mpr noQuote),
    if_neg fun sigil => Bool.eq_false_iff.mp (noVariable sigil.1) sigil.2, if_neg (by simp [noStart]),
    if_neg (by simp [noDigit])]

theorem cut_lineComment : cut line '/' ('/' :: rest) =
    .ok ⟨none, '/' :: '/' :: rest.takeWhile (· != '\n'), rest.dropWhile (· != '\n')⟩ := rfl

theorem cut_blockComment : cut line '/' ('*' :: rest) =
    match splitComment rest with
    | some (comment, after) => .ok ⟨none, '/' :: '*' :: comment, after⟩
    | none => .error (.unterminatedComment line) := rfl

end

theorem Piece.spelling_ne_nil {token : Option (TokenKind × List Char)} {spelling rest : List Char}
    (piece : Piece token spelling rest) : spelling ≠ [] := by
  cases piece with
  | spacing spaces => cases spaces <;> exact List.cons_ne_nil _ _
  | @token kind lexeme _ _ isLexeme isSpelling _ =>
    rintro rfl
    cases kind with
    | identifier | number =>
      obtain rfl : [] = lexeme := isSpelling
      obtain ⟨-, c, first, -⟩ := isLexeme
      cases first
    | localVariable | globalVariable => cases isSpelling
    | string =>
      obtain ⟨quote, -, -, same⟩ := isSpelling
      cases same
    | punctuation =>
      obtain rfl : [] = lexeme := isSpelling
      obtain ⟨c, same, -⟩ := isLexeme
      cases same
    | endOfFile => exact isLexeme

theorem Piece.cut {token : Option (TokenKind × List Char)} {c : Char} {spelling rest after : List Char}
    (piece : Piece token spelling after) (whole : spelling ++ after = c :: rest) (line : Nat) :
    Script.cut line c rest = .ok ⟨token, spelling, after⟩ := by
  cases piece with
  | spacing spaces =>
    cases spaces with
    | blank isBlank =>
      obtain ⟨rfl, rfl⟩ := List.cons.inj whole
      rw [Script.cut, if_pos isBlank]
      rfl
    | @lineComment text _ oneLine ends =>
      obtain ⟨rfl, rfl⟩ := List.cons.inj whole
      have within : ∀ d ∈ text, (d != '\n') = true := fun d member => by
        rw [bne_iff_ne]
        rintro rfl
        exact oneLine member
      have leaves : ∀ d ∈ after.head?, (d != '\n') = false := by simpa using ends
      obtain ⟨taken, dropped⟩ := span_front within leaves
      rw [List.append_eq, List.cons_append, cut_lineComment, taken, dropped]
    | @blockComment text _ first =>
      obtain ⟨rfl, rfl⟩ := List.cons.inj whole
      have found := splitComment_comment first after
      rw [List.append_eq, List.cons_append, List.append_assoc, List.cons_append, List.singleton_append,
        cut_blockComment, found]
  | @token kind lexeme _ _ isLexeme isSpelling ends =>
    cases kind with
    | identifier =>
      obtain rfl : spelling = lexeme := isSpelling
      obtain ⟨isName, d, first, starts⟩ := isLexeme
      obtain ⟨name, rfl⟩ := List.head?_eq_some_iff.mp first
      obtain ⟨rfl, rfl⟩ := List.cons.inj whole
      rw [cut_identifier line starts, ← whole, splitName_name isName ends]
    | localVariable | globalVariable =>
      obtain rfl := isSpelling
      obtain ⟨rfl, rfl⟩ := List.cons.inj whole
      have opens := (opensVariable_name ends.1).mpr ⟨isLexeme.2, ends.2⟩
      rw [List.append_eq, cut_variable line (by simp) opens, splitName_name isLexeme.1 ends.1]
      rfl
    | number =>
      obtain rfl : spelling = lexeme := isSpelling
      obtain ⟨all, d, first, digit⟩ := isLexeme
      obtain ⟨digits, rfl⟩ := List.head?_eq_some_iff.mp first
      obtain ⟨rfl, rfl⟩ := List.cons.inj whole
      obtain ⟨taken, dropped⟩ := span_front (List.forall_mem_cons.mp all).2 ends
      rw [List.append_eq, cut_number line digit, taken, dropped]
    | string =>
      obtain ⟨quote, quotes, noQuote, rfl⟩ := isSpelling
      obtain ⟨rfl, rfl⟩ := List.cons.inj whole
      have found := splitQuoted_quoted quotes noQuote isLexeme after
      rw [List.append_eq, List.append_assoc, List.singleton_append, cut_string line quotes, found]
    | punctuation =>
      obtain rfl : spelling = lexeme := isSpelling
      obtain ⟨d, rfl, mark⟩ := isLexeme
      obtain ⟨rfl, rfl⟩ := List.cons.inj whole
      exact cut_punctuation line mark (fun slash => ends.1 (congrArg (List.cons · []) slash)) fun sigil =>
        ends.2 (sigil.imp (congrArg (List.cons · [])) (congrArg (List.cons · [])))
    | endOfFile => exact isLexeme.elim

/-! ## Texts -/

/-- A token stays on the line it began on. -/
def tokenOn (line : Nat) : Option (TokenKind × List Char) → List Token
  | some (kind, lexeme) => [⟨kind, String.ofList lexeme, line⟩]
  | none => []

-- by the one equation for all texts: those for each kind of text take long to make
theorem tokensFrom_nil (line : Nat) : tokensFrom line [] = .ok [⟨.endOfFile, "", line⟩] := by
  rw [tokensFrom.eq_def]

theorem tokensFrom_cons (line : Nat) (c : Char) (rest : List Char) : tokensFrom line (c :: rest) =
    match cut line c rest with
    | .error fault => .error fault
    | .ok k => (tokensFrom (line + k.spelling.count '\n') k.rest).map (tokenOn line k.token ++ ·) := by
  rw [tokensFrom.eq_def]
  dsimp only
  split
  · next fault failed => rw [failed]
  · next k read =>
    rw [read]
    dsimp only
    cases tokensFrom (line + k.spelling.count '\n') k.rest with
    | error fault => rfl
    | ok tokens => cases k.token <;> rfl

theorem tokensFrom_piece {token : Option (TokenKind × List Char)} {spelling rest : List Char}
    (piece : Piece token spelling rest) (line : Nat) : tokensFrom line (spelling ++ rest) =
      (tokensFrom (line + spelling.count '\n') rest).map (tokenOn line token ++ ·) := by
  obtain ⟨c, tail, whole⟩ := List.exists_cons_of_ne_nil (List.append_ne_nil_of_left_ne_nil piece.spelling_ne_nil rest)
  rw [whole, tokensFrom_cons, piece.cut whole line]

theorem tokensFrom_gap {gap rest : List Char} (isGap : Gap gap rest) (line : Nat) :
    tokensFrom line (gap ++ rest) = tokensFrom (line + gap.count '\n') rest := by
  induction isGap generalizing line with
  | nil => rfl
  | @cons piece gap rest first _ ih =>
    rw [List.append_assoc, tokensFrom_piece (.spacing first), ih, List.count_append, Nat.add_assoc]
    cases tokensFrom (line + (piece.count '\n' + gap.count '\n')) rest <;> rfl

end DebugBridge.Script
