/-! Log records and their forwarding. -/

set_option autoImplicit false

namespace DebugBridge

inductive Log.Level where
  | error
  | warn
  | info
  | debug
  | trace
  deriving DecidableEq, Repr

structure Log.Record where
  level : Log.Level
  target : String
  message : String
  deriving DecidableEq, Repr

namespace Log

def Level.name : Level → String
  | .error => "ERROR"
  | .warn => "WARN"
  | .info => "INFO"
  | .debug => "DEBUG"
  | .trace => "TRACE"

/-- Tracing is too much for a console. -/
def Level.isForwarded : Level → Bool
  | .trace => false
  | _ => true

def Record.line (record : Record) : String :=
  "[" ++ record.level.name ++ "] " ++ record.target ++ ": " ++ record.message ++ "\n"

def forwarded (forwarding : Bool) (record : Record) : List String :=
  if forwarding && record.level.isForwarded then [record.line] else []

end Log

end DebugBridge
