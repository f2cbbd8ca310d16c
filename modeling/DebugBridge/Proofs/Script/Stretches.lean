import DebugBridge.Proofs.Script.Pieces
import DebugBridge.Script.Parser

/-! A source is cut into tokens exactly if the tokens, written where they stand, and the gaps between them make it up
again. Where each token stands tells its line. -/

set_option autoImplicit false

namespace DebugBridge.Script

structure Stretch where
  gap : List Char
  token : Token
  spelling : List Char

def Stretch.text (s : Stretch) : List Char := s.gap ++ s.spelling

def textOf (stretches : List Stretch) : List Char := stretches.flatMap Stretch.text

theorem textOf_cons (s : Stretch) (stretches : List Stretch) : textOf (s :: stretches) = s.text ++ textOf stretches :=
  List.flatMap_cons

structure Stretch.Stands (s : Stretch) (line : Nat) (before after : List Char) : Prop where
  gap : Gap s.gap (s.spelling ++ after)
  isLexeme : IsLexeme s.token.kind s.token.lexeme.toList
  isSpelling : IsSpelling s.token.kind s.token.lexeme.toList s.spelling
  ends : EndsBefore s.token.kind s.token.lexeme.toList after
  line : s.token.line = line + (before ++ s.gap).count '\n'

def Divided (line : Nat) (stretches : List Stretch) (tail : List Char) : Prop :=
  ∀ before s after, stretches = before ++ s :: after → s.Stands line (textOf before) (textOf after ++ tail)

structure Division (line : Nat) (text : List Char) (stretches : List Stretch) (last : List Char) : Prop where
  whole : text = textOf stretches ++ last
  divided : Divided line stretches last
  ended : Gap last []

section

variable {line : Nat} {s : Stretch} {stretches : List Stretch} {text tail : List Char} {tokens : List Token}

theorem Stretch.Stands.behind {before after : List Char} (earlier : List Char) :
    s.Stands line (earlier ++ before) after ↔ s.Stands (line + earlier.count '\n') before after := by
  have same : line + (earlier ++ before ++ s.gap).count '\n' =
      line + earlier.count '\n' + (before ++ s.gap).count '\n' := by
    rw [List.append_assoc, List.count_append, Nat.add_assoc]
  constructor
  · rintro ⟨gap, isLexeme, isSpelling, ends, number⟩
    exact ⟨gap, isLexeme, isSpelling, ends, number.trans same⟩
  · rintro ⟨gap, isLexeme, isSpelling, ends, number⟩
    exact ⟨gap, isLexeme, isSpelling, ends, number.trans same.symm⟩

theorem divided_nil : Divided line [] tail := by
  intro before s after same
  simp at same

theorem divided_cons : Divided line (s :: stretches) tail ↔
    s.Stands line [] (textOf stretches ++ tail) ∧ Divided (line + s.text.count '\n') stretches tail := by
  constructor
  · intro divided
    refine ⟨divided [] s stretches rfl, fun before t after same => ?_⟩
    exact (Stretch.Stands.behind s.text).mp (divided (s :: before) t after (congrArg (s :: ·) same))
  · rintro ⟨first, others⟩ before t after same
    cases before with
    | nil =>
      obtain ⟨rfl, rfl⟩ := List.cons.inj same
      exact first
    | cons _ before =>
      obtain ⟨rfl, rest⟩ := List.cons.inj same
      exact (Stretch.Stands.behind s.text).mpr (others before t after rest)

theorem Divided.stands (divided : Divided line stretches tail) (member : s ∈ stretches) :
    ∃ before after, s.Stands line before after := by
  obtain ⟨before, after, same⟩ := List.append_of_mem member
  exact ⟨_, _, divided before s after same⟩

theorem Divided.inText (divided : Divided line stretches tail) : ∀ s ∈ stretches, s.token.kind ≠ .endOfFile := by
  intro s member isEnd
  obtain ⟨_, _, stands⟩ := divided.stands member
  have isLexeme := stands.isLexeme
  rw [isEnd] at isLexeme
  exact isLexeme

theorem Divided.code (divided : Divided line stretches tail) {endOfFile : Token} (isEnd : endOfFile.kind = .endOfFile) :
    Script.code (stretches.map Stretch.token ++ [endOfFile]) = stretches.map Stretch.token := by
  have endless : ∀ token ∈ stretches.map Stretch.token, token.kind ≠ .endOfFile := by
    intro token member
    obtain ⟨s, inside, rfl⟩ := List.mem_map.mp member
    exact divided.inText s inside
  rw [code_append endless, Script.code, List.takeWhile_cons_of_neg (by simp [isEnd]), List.append_nil]

theorem tokensFrom_stretch (stands : s.Stands line [] tail) : tokensFrom line (s.text ++ tail) =
    (tokensFrom (line + s.text.count '\n') tail).map (s.token :: ·) := by
  rw [Stretch.text, List.append_assoc, tokensFrom_gap stands.gap,
    tokensFrom_piece (.token stands.isLexeme stands.isSpelling stands.ends), List.count_append, Nat.add_assoc,
    tokenOn, String.ofList_toList]
  have number := stands.line
  rw [List.nil_append] at number
  rw [← number]
  rfl

theorem tokensFrom_divided (divided : Divided line stretches tail) : tokensFrom line (textOf stretches ++ tail) =
    (tokensFrom (line + (textOf stretches).count '\n') tail).map (stretches.map Stretch.token ++ ·) := by
  induction stretches generalizing line with
  | nil =>
    rw [textOf, List.flatMap_nil, List.nil_append, List.count_nil, Nat.add_zero]
    cases tokensFrom line tail <;> rfl
  | cons s stretches ih =>
    obtain ⟨first, others⟩ := divided_cons.mp divided
    rw [textOf_cons, List.append_assoc, tokensFrom_stretch first, ih others, List.count_append, Nat.add_assoc]
    cases tokensFrom (line + (s.text.count '\n' + (textOf stretches).count '\n')) tail <;> rfl

theorem Division.spaced {piece last : List Char} (division : Division (line + piece.count '\n') text stretches last)
    (spaces : Spacing piece text) : ∃ wider last', Division line (piece ++ text) wider last' ∧
      wider.map Stretch.token = stretches.map Stretch.token := by
  obtain ⟨rfl, divided, ended⟩ := division
  cases stretches with
  | nil =>
    -- no token is left to stand before
    have alone : Spacing piece (last ++ []) := (List.append_nil last).symm ▸ spaces
    exact ⟨[], piece ++ last, ⟨rfl, divided_nil, .cons alone ended⟩, rfl⟩
  | cons s stretches =>
    obtain ⟨first, others⟩ := divided_cons.mp divided
    rw [textOf_cons, Stretch.text, List.append_assoc, List.append_assoc] at spaces
    refine ⟨{ s with gap := piece ++ s.gap } :: stretches, last, ⟨?_, ?_, ended⟩, rfl⟩
    · simp [textOf_cons, Stretch.text]
    · refine divided_cons.mpr ⟨⟨.cons spaces first.gap, first.isLexeme, first.isSpelling, first.ends, ?_⟩, ?_⟩
      · rw [first.line, List.nil_append, List.nil_append, List.count_append, Nat.add_assoc]
      · simpa [Stretch.text, Nat.add_assoc] using others

theorem Division.preceded {spelling lexeme last : List Char} {kind : TokenKind}
    (division : Division (line + spelling.count '\n') text stretches last)
    (isLexeme : IsLexeme kind lexeme) (isSpelling : IsSpelling kind lexeme spelling)
    (ends : EndsBefore kind lexeme text) :
    Division line (spelling ++ text) (⟨[], ⟨kind, String.ofList lexeme, line⟩, spelling⟩ :: stretches) last := by
  obtain ⟨rfl, divided, ended⟩ := division
  refine ⟨by simp [textOf_cons, Stretch.text], ?_, ended⟩
  refine divided_cons.mpr ⟨⟨.nil, ?_, ?_, ?_, rfl⟩, divided⟩
  · rwa [String.toList_ofList]
  · rwa [String.toList_ofList]
  · rwa [String.toList_ofList]

/-- What is read of a text divides it. -/
theorem exists_division (read : tokensFrom line text = .ok tokens) : ∃ stretches last,
    Division line text stretches last ∧
      tokens = stretches.map Stretch.token ++ [⟨.endOfFile, "", line + text.count '\n'⟩] := by
  fun_induction tokensFrom line text generalizing tokens with
  | case1 line =>
    obtain rfl := Except.ok.inj read
    exact ⟨[], [], ⟨rfl, divided_nil, .nil⟩, rfl⟩
  | case2 => cases read
  | case3 => cases read
  | case4 line c rest k cut later found gap ih =>
    obtain rfl := Except.ok.inj read
    have piece := cut_piece cut
    rw [gap] at piece
    -- a piece without a token widens the gap in front of the next stretch, one with a token begins a stretch
    obtain ⟨stretches, last, division, rfl⟩ := ih found
    cases piece with
    | spacing spaces =>
      obtain ⟨wider, last', wide, same⟩ := division.spaced spaces
      rw [cut_append cut] at wide
      refine ⟨wider, last', wide, ?_⟩
      rw [same, ← cut_append cut, List.count_append, Nat.add_assoc]
  | case5 line c rest k cut later found kind lexeme token ih =>
    obtain rfl := Except.ok.inj read
    have piece := cut_piece cut
    rw [token] at piece
    obtain ⟨stretches, last, division, rfl⟩ := ih found
    cases piece with
    | token isLexeme isSpelling ends =>
      have preceded := division.preceded isLexeme isSpelling ends
      rw [cut_append cut] at preceded
      refine ⟨_, last, preceded, ?_⟩
      rw [← cut_append cut, List.count_append, Nat.add_assoc]
      rfl

theorem Division.read {last : List Char} (division : Division line text stretches last) :
    tokensFrom line text = .ok (stretches.map Stretch.token ++ [⟨.endOfFile, "", line + text.count '\n'⟩]) := by
  have atEnd := tokensFrom_gap division.ended (line + (textOf stretches).count '\n')
  rw [List.append_nil, tokensFrom_nil, Nat.add_assoc, ← List.count_append, ← division.whole] at atEnd
  rw [division.whole, tokensFrom_divided division.divided, ← division.whole, atEnd]
  rfl

end

/-- Tokens come from a source just if their spellings make it up, with nothing but white space and comments between
them and none of them cut short. Each is on the line its spelling begins on, and one end of file is on the last. -/
theorem tokenize_segmented (source : String) (tokens : List Token) : tokenize source = .ok tokens ↔
    ∃ stretches last, Division 1 source.toList stretches last ∧ (∀ s ∈ stretches, s.token.kind ≠ .endOfFile) ∧
      tokens = stretches.map Stretch.token ++ [⟨.endOfFile, "", 1 + source.toList.count '\n'⟩] := by
  constructor
  · intro read
    obtain ⟨stretches, last, division, rfl⟩ := exists_division read
    exact ⟨stretches, last, division, division.divided.inText, rfl⟩
  · rintro ⟨stretches, last, division, -, rfl⟩
    exact division.read

end DebugBridge.Script
