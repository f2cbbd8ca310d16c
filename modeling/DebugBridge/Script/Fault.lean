import DebugBridge.Text.Decimal

/-! What makes a script unreadable. -/

set_option autoImplicit false

namespace DebugBridge.Script

inductive Expectation where
  | statement
  | expression
  | packageName
  | functionName
  | functionDeclaration
  | openParen
  | closeParen
  | openBrace
  | closeBrace
  deriving DecidableEq, Repr

def Expectation.text : Expectation → String
  | .statement => "statement"
  | .expression => "expression"
  | .packageName => "package name"
  | .functionName => "function name"
  | .functionDeclaration => "function declaration"
  | .openParen => "("
  | .closeParen => ")"
  | .openBrace => "\x7b"
  | .closeBrace => "\x7d"

inductive Fault where
  | unterminatedString (line : Nat)
  | unterminatedComment (line : Nat)
  | unexpected (line : Nat) (expected : Expectation) (found : String)
  | unexpectedEnd (expected : Expectation)
  deriving DecidableEq, Repr

def Fault.message : Fault → String
  | .unterminatedString line => "line " ++ Text.Decimal.showNat line ++ ": unterminated string literal"
  | .unterminatedComment line => "line " ++ Text.Decimal.showNat line ++ ": unterminated block comment"
  | .unexpected line expected found =>
    "line " ++ Text.Decimal.showNat line ++ ": expected " ++ expected.text ++ ", found `" ++ found ++ "`"
  | .unexpectedEnd expected => "unexpected end of file, expected " ++ expected.text

end DebugBridge.Script
