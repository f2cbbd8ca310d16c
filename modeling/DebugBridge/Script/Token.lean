/-! Tokens of a script. -/

set_option autoImplicit false

namespace DebugBridge.Script

inductive TokenKind where
  /-- A plain name; `::` separated parts are one token. -/
  | identifier
  /-- `%name`; the lexeme leaves the sigil out. -/
  | localVariable
  /-- `$name`; the lexeme leaves the sigil out. -/
  | globalVariable
  | number
  /-- The lexeme leaves the quotes out and keeps the backslashes. -/
  | string
  | punctuation
  | endOfFile
  deriving DecidableEq, Repr

structure Token where
  kind : TokenKind
  lexeme : String
  line : Nat
  deriving DecidableEq, Repr

namespace Token

def isPunctuation (token : Token) (mark : String) : Bool :=
  token.kind == .punctuation && token.lexeme == mark

/-- Keywords are identifiers, in any letter case. -/
def isKeyword (token : Token) (word : String) : Bool :=
  token.kind == .identifier && token.lexeme.toList.map Char.toLower == word.toList

end Token

theorem keyword_word {token : Token} {word : String} (keyword : token.isKeyword word = true) :
    token.kind = .identifier := by
  simp only [Token.isKeyword, Bool.and_eq_true, beq_iff_eq] at keyword
  exact keyword.1

theorem keyword_other {token : Token} {word other : String} (keyword : token.isKeyword word = true)
    (different : word.toList ≠ other.toList) : token.isKeyword other = false := by
  simp only [Token.isKeyword, Bool.and_eq_true, beq_iff_eq] at keyword
  rw [Token.isKeyword, keyword.2, beq_eq_false_iff_ne.mpr different, Bool.and_false]

theorem mark_kind {token : Token} {mark : String} (marked : token.isPunctuation mark = true) :
    token.kind = .punctuation := by
  simp only [Token.isPunctuation, Bool.and_eq_true, beq_iff_eq] at marked
  exact marked.1

theorem word_unmarked {token : Token} (word : token.kind = .identifier) (mark : String) :
    token.isPunctuation mark = false := by
  simp [Token.isPunctuation, word]

end DebugBridge.Script
