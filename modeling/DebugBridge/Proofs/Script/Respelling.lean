import DebugBridge.Proofs.Script.Stretches
import Mathlib.Data.List.Forall2

/-! Tokens that are written out with a space between any two are read as they were. -/

set_option autoImplicit false

namespace DebugBridge.Script

namespace Token

def IsWritten (token : Token) (text : List Char) : Prop := IsSpelling token.kind token.lexeme.toList text

def content (token : Token) : TokenKind × String := (token.kind, token.lexeme)

/-- A variable of no name is a sigil that stands before a single colon. -/
def IsNamed (token : Token) : Prop :=
  token.kind = .localVariable ∨ token.kind = .globalVariable → token.lexeme ≠ ""

instance (token : Token) : Decidable token.IsNamed := inferInstanceAs (Decidable (_ → _))

end Token

section

variable {rest : List Char}

theorem endsName_space (separate : ∀ c ∈ rest.head?, c = ' ') : EndsName rest where
  noPart c first := by
    rw [separate c first]
    rfl
  noSeparator := by
    rintro ⟨tail, rfl⟩
    cases separate ':' rfl

theorem endsBefore_space {kind : TokenKind} {lexeme : List Char} (separate : ∀ c ∈ rest.head?, c = ' ')
    (named : kind = .localVariable ∨ kind = .globalVariable → lexeme ≠ []) : EndsBefore kind lexeme rest := by
  have endsName := endsName_space separate
  cases kind with
  | identifier => exact endsName
  | localVariable => exact ⟨endsName, fun empty => (named (.inl rfl) empty).elim⟩
  | globalVariable => exact ⟨endsName, fun empty => (named (.inr rfl) empty).elim⟩
  | number =>
    intro c first
    rw [separate c first]
    rfl
  | punctuation =>
    refine ⟨fun _ c first => ?_, fun _ => ?_⟩
    · rw [separate c first]
      decide
    · cases rest with
      | nil => rfl
      | cons c rest =>
        rw [separate c rfl]
        rfl
  | string | endOfFile => trivial

end

def spaced : List (List Char) → List Char := [' '].intercalate

theorem spaced_cons (first : List Char) (others : List (List Char)) : ∃ tail, spaced (first :: others) = first ++ tail ∧
    (∀ c ∈ tail.head?, c = ' ') ∧ ∀ line, tokensFrom line tail = tokensFrom line (spaced others) := by
  cases others with
  | nil =>
    refine ⟨[], ?_, fun _ first => (by cases first), fun _ => rfl⟩
    rw [spaced, List.intercalate_singleton, List.append_nil]
  | cons second others =>
    refine ⟨' ' :: spaced (second :: others), ?_, fun c first => (Option.some.inj first).symm, fun line => ?_⟩
    · rw [spaced, List.intercalate_cons_cons, List.append_assoc]
      rfl
    · have space : Gap [' '] (spaced (second :: others)) := .cons (.blank rfl) .nil
      exact tokensFrom_gap space line

theorem tokensFrom_spaced {tokens : List Token} {texts : List (List Char)}
    (written : List.Forall₂ Token.IsWritten tokens texts)
    (shaped : ∀ token ∈ tokens, IsLexeme token.kind token.lexeme.toList ∧ token.IsNamed) (line : Nat) :
    ∃ again, tokensFrom line (spaced texts) = .ok again ∧
      again.map Token.content = tokens.map Token.content ++ [(.endOfFile, "")] := by
  induction written generalizing line with
  | nil => exact ⟨[⟨.endOfFile, "", line⟩], tokensFrom_nil line, rfl⟩
  | @cons token text tokens texts first _ ih =>
    obtain ⟨⟨isLexeme, named⟩, others⟩ := List.forall_mem_cons.mp shaped
    obtain ⟨tail, whole, separate, same⟩ := spaced_cons text texts
    have filled : token.kind = .localVariable ∨ token.kind = .globalVariable → token.lexeme.toList ≠ [] :=
      fun isVariable empty => named isVariable (String.toList_eq_nil_iff.mp empty)
    obtain ⟨again, read, alike⟩ := ih others (line + text.count '\n')
    refine ⟨⟨token.kind, token.lexeme, line⟩ :: again, ?_, congrArg (token.content :: ·) alike⟩
    rw [whole, tokensFrom_piece (.token isLexeme first (endsBefore_space separate filled)), same, read, tokenOn,
      String.ofList_toList]
    rfl

/-- Tokens that were read can be written out, and however their strings are quoted they are read again. -/
theorem tokenize_respelled {source : String} {tokens : List Token} (read : tokenize source = .ok tokens)
    (named : ∀ token ∈ tokens, token.IsNamed) :
    (∃ texts, List.Forall₂ Token.IsWritten (code tokens) texts) ∧
      ∀ texts, List.Forall₂ Token.IsWritten (code tokens) texts →
        ∃ again, tokenize (String.ofList (spaced texts)) = .ok again ∧
          again.map Token.content = tokens.map Token.content := by
  obtain ⟨stretches, last, division, rfl⟩ := exists_division read
  rw [division.divided.code rfl]
  constructor
  · refine ⟨stretches.map Stretch.spelling, ?_⟩
    rw [List.forall₂_map_left_iff, List.forall₂_map_right_iff, List.forall₂_same]
    intro s member
    obtain ⟨_, _, stands⟩ := division.divided.stands member
    exact stands.isSpelling
  · intro texts written
    -- the quotes may be others than they were, the lexemes are not
    have shaped : ∀ token ∈ stretches.map Stretch.token,
        IsLexeme token.kind token.lexeme.toList ∧ token.IsNamed := by
      intro token member
      obtain ⟨s, inside, rfl⟩ := List.mem_map.mp member
      obtain ⟨_, _, stands⟩ := division.divided.stands inside
      exact ⟨stands.isLexeme, named s.token (List.mem_append_left _ member)⟩
    obtain ⟨again, readAgain, alike⟩ := tokensFrom_spaced written shaped 1
    refine ⟨again, ?_, ?_⟩
    · rw [tokenize, String.toList_ofList, readAgain]
    · rw [alike, List.map_append]
      rfl

def quoted : String := "$x::y='\\'\"'%\n2.5e1//'\n/\"\\\\\""

/-- The first string needs the quotes it had, the second is given others. -/
theorem tokenize_respelled_quoted : ∃ tokens, tokenize quoted = .ok tokens ∧
    (∀ token ∈ tokens, token.IsNamed) ∧
      ∃ again, tokenize "$x::y = '\\'\"' % 2.5e1 / '\\\\'" = .ok again ∧
        again.map Token.content = tokens.map Token.content := by
  let tokens : List Token :=
    [⟨.globalVariable, "x::y", 1⟩, ⟨.punctuation, "=", 1⟩, ⟨.string, "\\'\"", 1⟩, ⟨.punctuation, "%", 1⟩,
      ⟨.number, "2.5e1", 2⟩, ⟨.punctuation, "/", 3⟩, ⟨.string, "\\\\", 3⟩, ⟨.endOfFile, "", 3⟩]
  have read : tokenize quoted = .ok tokens := by decide +kernel
  have named : ∀ token ∈ tokens, token.IsNamed := by decide
  let texts : List (List Char) :=
    [['$', 'x', ':', ':', 'y'], ['='], ['\'', '\\', '\'', '"', '\''], ['%'], ['2', '.', '5', 'e', '1'], ['/'],
      ['\'', '\\', '\\', '\'']]
  have written : List.Forall₂ Token.IsWritten (code tokens) texts :=
    .cons rfl (.cons rfl (.cons ⟨'\'', rfl, by decide, rfl⟩ (.cons rfl (.cons rfl (.cons rfl
      (.cons ⟨'\'', rfl, by decide, rfl⟩ .nil))))))
  have text : String.ofList (spaced texts) = "$x::y = '\\'\"' % 2.5e1 / '\\\\'" := by decide +kernel
  have respelled := (tokenize_respelled read named).2 texts written
  rw [text] at respelled
  exact ⟨tokens, read, named, respelled⟩

end DebugBridge.Script
