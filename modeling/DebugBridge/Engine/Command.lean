import DebugBridge.Text.Decimal

/-! Commands sent to the engine, one line each.

A line has no escapes: what a field may contain is up to the sender. -/

set_option autoImplicit false

namespace DebugBridge.Engine

inductive Command where
  | setBreakpoint (file : String) (line hitCount : Int64) (condition : Option String)
  | clearBreakpoint (file : String) (line : Int64)
  | evaluate (tag : UInt64) (frame : Nat) (expression : String)
  | evaluateOnConsole (expression : String)
  | resume
  | stepOver
  | stepIn
  | stepOut
  deriving DecidableEq, Repr

namespace Command

open Text.Decimal

/-- A breakpoint without a condition always holds. -/
def conditionText (condition : Option String) : String := condition.getD "true"

/-- The line without its end. Only its last field may contain spaces. -/
def line : Command → String
  | .setBreakpoint file line hitCount condition =>
    "BRKSET " ++ file ++ " " ++ showInt64 line ++ " false " ++ showInt64 hitCount ++ " " ++
      conditionText condition
  | .clearBreakpoint file line => "BRKCLR " ++ file ++ " " ++ showInt64 line
  | .evaluate tag frame expression =>
    "EVAL " ++ showNat tag.toNat ++ " " ++ showNat frame ++ " " ++ expression
  | .evaluateOnConsole expression => "CEVAL " ++ expression
  | .resume => "CONTINUE"
  | .stepOver => "STEPOVER"
  | .stepIn => "STEPIN"
  | .stepOut => "STEPOUT"

def encode (command : Command) : String := command.line ++ "\n"

end Command

end DebugBridge.Engine
