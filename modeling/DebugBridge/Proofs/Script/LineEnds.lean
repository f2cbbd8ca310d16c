import DebugBridge.Proofs.Script.Stretches
import Mathlib.Data.List.TakeWhile

/-! No token reaches over the end of a line at which another could begin: what is read of a text and of the lines below
it is what is read of each, with the line numbers of the second moved down. -/

set_option autoImplicit false

namespace DebugBridge.Script

def Token.lowered (lines : Nat) (token : Token) : Token := { token with line := token.line + lines }

def Fault.lowered (lines : Nat) : Fault → Fault
  | .unterminatedString line => .unterminatedString (line + lines)
  | .unterminatedComment line => .unterminatedComment (line + lines)
  | .unexpected line expected found => .unexpected (line + lines) expected found
  | .unexpectedEnd expected => .unexpectedEnd expected

def loweredResult (lines : Nat) : Except Fault (List Token) → Except Fault (List Token)
  | .ok tokens => .ok (tokens.map (Token.lowered lines))
  | .error fault => .error (fault.lowered lines)

/-! ## Lines -/

theorem cut_lowered (lines line : Nat) (c : Char) (rest : List Char) : cut (line + lines) c rest =
    match cut line c rest with
    | .error fault => .error (fault.lowered lines)
    | .ok k => .ok k := by
  unfold cut
  split
  · rfl
  split
  · rfl
  split
  · cases splitComment rest.tail <;> rfl
  split
  · cases splitQuoted c rest <;> rfl
  split
  · rfl
  split
  · rfl
  split
  · rfl
  · rfl

theorem tokensFrom_lowered (lines line : Nat) (text : List Char) :
    tokensFrom (line + lines) text = loweredResult lines (tokensFrom line text) := by
  fun_induction tokensFrom line text with
  | case1 line => exact tokensFrom_nil (line + lines)
  | case2 line c rest fault failed => rw [tokensFrom_cons, cut_lowered, failed]; rfl
  | case3 line c rest k read fault failed ih =>
    rw [tokensFrom_cons, cut_lowered, read]
    dsimp only
    rw [Nat.add_right_comm, ih, failed]
    rfl
  | case4 line c rest k read later found gap ih =>
    rw [tokensFrom_cons, cut_lowered, read]
    dsimp only
    rw [Nat.add_right_comm, ih, found, gap]
    rfl
  | case5 line c rest k read later found kind lexeme token ih =>
    rw [tokensFrom_cons, cut_lowered, read]
    dsimp only
    rw [Nat.add_right_comm, ih, found, token]
    rfl

/-! ## A line feed behind a text -/

section

variable {rest lower : List Char}

theorem head?_above {c : Char} (first : c ∈ (rest ++ '\n' :: lower).head?) : c ∈ rest.head? ∨ c = '\n' := by
  cases rest with
  | nil => exact .inr (Option.some.inj first).symm
  | cons => exact .inl first

theorem EndsName.above (ends : EndsName rest) : EndsName (rest ++ '\n' :: lower) where
  noPart c first := by
    rcases head?_above first with first | rfl
    · exact ends.noPart c first
    · rfl
  noSeparator := by
    match rest, ends with
    | [], _ => simp
    | [c], _ => simp
    | c :: d :: rest, ends => simpa using ends.noSeparator

theorem EndsBefore.above {kind : TokenKind} {lexeme : List Char} (ends : EndsBefore kind lexeme rest) :
    EndsBefore kind lexeme (rest ++ '\n' :: lower) := by
  cases kind with
  | identifier => exact EndsName.above ends
  | localVariable | globalVariable =>
    refine ⟨EndsName.above ends.1, fun alone => ?_⟩
    -- the colon behind a lone sigil is not the line feed
    obtain ⟨rest, rfl⟩ := List.head?_eq_some_iff.mp (ends.2 alone)
    rfl
  | number =>
    intro c first
    rcases head?_above first with first | rfl
    · exact ends c first
    · rfl
  | punctuation =>
    refine ⟨fun slash c first => ?_, fun sigil => ?_⟩
    · rcases head?_above first with first | rfl
      · exact ends.1 slash c first
      · decide
    · have closed := ends.2 sigil
      cases rest with
      | nil => rfl
      | cons => exact closed
  | string | endOfFile => trivial

theorem Spacing.above {piece : List Char} (spaces : Spacing piece rest) : Spacing piece (rest ++ '\n' :: lower) := by
  cases spaces with
  | blank isBlank => exact .blank isBlank
  | lineComment oneLine ends => exact .lineComment oneLine fun c first => (head?_above first).elim (ends c) id
  | blockComment first => exact .blockComment first

theorem Gap.above {gap : List Char} (isGap : Gap gap rest) : Gap gap (rest ++ '\n' :: lower) := by
  induction isGap with
  | nil => exact .nil
  | cons first _ ih =>
    refine .cons ?_ ih
    rw [← List.append_assoc]
    exact first.above

theorem Divided.above {line : Nat} {stretches : List Stretch} (divided : Divided line stretches rest) :
    Divided line stretches (rest ++ '\n' :: lower) := by
  intro before s after same
  obtain ⟨gap, isLexeme, isSpelling, ends, number⟩ := divided before s after same
  refine ⟨?_, isLexeme, isSpelling, ?_, number⟩
  · rw [← List.append_assoc, ← List.append_assoc, List.append_assoc s.spelling]
    exact gap.above
  · rw [← List.append_assoc]
    exact ends.above

end

/-- Above other lines a text is read as it is alone, and they are read after it. -/
theorem Division.above {line : Nat} {text last : List Char} {stretches : List Stretch}
    (division : Division line text stretches last) (lower : List Char) : tokensFrom line (text ++ '\n' :: lower) =
      (tokensFrom (line + (1 + text.count '\n')) lower).map (stretches.map Stretch.token ++ ·) := by
  -- a comment that the text ends in is ended by the line feed as well
  have gap : Gap last ('\n' :: lower) := division.ended.above
  have lineFeed : Spacing ['\n'] lower := .blank rfl
  have lines : line + (textOf stretches).count '\n' + last.count '\n' + 1 = line + (1 + text.count '\n') := by
    rw [division.whole, List.count_append]
    omega
  rw [division.whole, List.append_assoc, tokensFrom_divided division.divided.above, tokensFrom_gap gap,
    ← division.whole, ← List.singleton_append, tokensFrom_piece (.spacing lineFeed), List.count_singleton_self, lines]
  cases tokensFrom (line + (1 + text.count '\n')) lower <;> rfl

/-- A text that is split into tokens is split in the same way above other lines. Those are split, or turned down, as
they are by themselves, each on a line so much further down. -/
theorem tokenize_lines {upper : String} {tokens : List Token} (read : tokenize upper = .ok tokens) (lower : String) :
    tokenize (upper ++ "\n" ++ lower) =
      match tokenize lower with
      | .ok below => .ok (code tokens ++ below.map (Token.lowered (1 + upper.toList.count '\n')))
      | .error fault => .error (fault.lowered (1 + upper.toList.count '\n')) := by
  obtain ⟨stretches, last, division, rfl⟩ := exists_division read
  have text : (upper ++ "\n" ++ lower).toList = upper.toList ++ '\n' :: lower.toList := by simp
  rw [tokenize, text, division.above, tokensFrom_lowered, division.divided.code rfl, tokenize]
  cases tokensFrom 1 lower.toList <;> rfl

def ragged : String := "%a = 'b\n'; /* ::\n */ $ // \""

theorem tokenize_lines_ragged :
    tokenize ragged = .ok
        [⟨.localVariable, "a", 1⟩, ⟨.punctuation, "=", 1⟩, ⟨.string, "b\n", 1⟩, ⟨.punctuation, ";", 2⟩,
          ⟨.punctuation, "$", 3⟩, ⟨.endOfFile, "", 3⟩] ∧
      tokenize (ragged ++ "\n" ++ "::c /* d\n") = .error (.unterminatedComment 4) := by
  have read : tokenize ragged = .ok
      [⟨.localVariable, "a", 1⟩, ⟨.punctuation, "=", 1⟩, ⟨.string, "b\n", 1⟩, ⟨.punctuation, ";", 2⟩,
        ⟨.punctuation, "$", 3⟩, ⟨.endOfFile, "", 3⟩] := by
    decide +kernel
  have below : tokenize "::c /* d\n" = .error (.unterminatedComment 1) := by decide +kernel
  refine ⟨read, ?_⟩
  rw [tokenize_lines read, below]
  rfl

end DebugBridge.Script
