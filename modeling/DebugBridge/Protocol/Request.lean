import DebugBridge.Protocol.Schema

/-! Requests of the client and the arguments they carry. -/

set_option autoImplicit false

namespace DebugBridge.Protocol

structure Request where
  seq : Int64
  kind : String
  command : String
  arguments : Json
  deriving Repr

-- The fields of a value that conforms to its record.

def textField (key : String) (value : Json) : String := ((value.member? key).bind Json.string?).getD ""

def textField? (key : String) (value : Json) : Option String := (value.member? key).bind Json.string?

def integerField? (key : String) (value : Json) : Option Int := (value.member? key).bind Json.integer?

def integerField (key : String) (value : Json) : Int := (integerField? key value).getD 0

def flagField (key : String) (value : Json) : Bool := ((value.member? key).bind Json.boolean?).getD false

def itemsField (key : String) (value : Json) : List Json := ((value.member? key).bind Json.items?).getD []

namespace Request

def schema : Schema :=
  .record "DapRequest" <|
    .field "seq" .required (.word .signed64) <|
    .field "type" .required .text <|
    .field "command" .required .text <|
    .field "arguments" (.default .null) .any .nil

def ofJson (value : Json) : Except SchemaFault Request :=
  (schema.conform value).map fun r =>
    { seq := Int64.ofInt (integerField "seq" r)
      kind := textField "type" r
      command := textField "command" r
      arguments := (r.member? "arguments").getD .null }

/-- Arguments that are absent or null count as an empty object. -/
def argumentsAs {α : Type} (request : Request) (schema : Schema) (read : Json → α) : Except SchemaFault α :=
  let given := match request.arguments with
    | .null => .object []
    | other => other
  (schema.conform given).map read

end Request

structure LaunchArguments where
  address : String
  port : UInt16
  password : String
  /-- The root directory of the game, relative to the workspace. -/
  rootDir : Option String
  trace : Bool
  /-- The workspace; the adapter's working directory if absent. -/
  cwd : Option String
  deriving DecidableEq, Repr

def LaunchArguments.schema : Schema :=
  .record "LaunchArguments" <|
    .field "address" (.default (.string "127.0.0.1")) .text <|
    .field "port" .required (.word .unsigned16) <|
    .field "password" (.default (.string "")) .text <|
    .field "rootDir" (.default .null) (.nullable .text) <|
    .field "trace" (.default (.boolean false)) .flag <|
    .field "cwd" (.default .null) (.nullable .path) .nil

def LaunchArguments.ofConformed (r : Json) : LaunchArguments :=
  { address := textField "address" r
    port := UInt16.ofNat (integerField "port" r).toNat
    password := textField "password" r
    rootDir := textField? "rootDir" r
    trace := flagField "trace" r
    cwd := textField? "cwd" r }

structure SourceArguments where
  name : Option String
  path : Option String
  deriving DecidableEq, Repr

structure BreakpointArguments where
  line : Int64
  condition : Option String
  hitCondition : Option String
  deriving DecidableEq, Repr

structure SetBreakpointsArguments where
  source : SourceArguments
  breakpoints : List BreakpointArguments
  deriving DecidableEq, Repr

def SourceArguments.schema : Schema :=
  .record "Source" <|
    .field "name" .optional (.nullable .text) <|
    .field "path" .optional (.nullable .text) .nil

def SourceArguments.ofConformed (r : Json) : SourceArguments := ⟨textField? "name" r, textField? "path" r⟩

def BreakpointArguments.schema : Schema :=
  .record "SourceBreakpointArguments" <|
    .field "line" .required (.word .signed64) <|
    .field "condition" .optional (.nullable .text) <|
    .field "hitCondition" .optional (.nullable .text) .nil

def BreakpointArguments.ofConformed (r : Json) : BreakpointArguments :=
  ⟨Int64.ofInt (integerField "line" r), textField? "condition" r, textField? "hitCondition" r⟩

def SetBreakpointsArguments.schema : Schema :=
  .record "SetBreakpointsArguments" <|
    .field "source" .required SourceArguments.schema <|
    .field "breakpoints" (.default (.array [])) (.list BreakpointArguments.schema) .nil

def SetBreakpointsArguments.ofConformed (r : Json) : SetBreakpointsArguments :=
  { source := .ofConformed ((r.member? "source").getD .null)
    breakpoints := (itemsField "breakpoints" r).map .ofConformed }

structure StackTraceArguments where
  startFrame : Option Nat
  levels : Option Nat
  deriving DecidableEq, Repr

def StackTraceArguments.schema : Schema :=
  .record "StackTraceArguments" <|
    .field "startFrame" .optional (.nullable (.word .unsigned64)) <|
    .field "levels" .optional (.nullable (.word .unsigned64)) .nil

def StackTraceArguments.ofConformed (r : Json) : StackTraceArguments :=
  ⟨(integerField? "startFrame" r).map Int.toNat, (integerField? "levels" r).map Int.toNat⟩

structure ScopesArguments where
  frameId : Nat
  deriving DecidableEq, Repr

def ScopesArguments.schema : Schema :=
  .record "ScopesArguments" <| .field "frameId" .required (.word .unsigned64) .nil

def ScopesArguments.ofConformed (r : Json) : ScopesArguments := ⟨(integerField "frameId" r).toNat⟩

structure VariablesArguments where
  variablesReference : Int64
  deriving DecidableEq, Repr

def VariablesArguments.schema : Schema :=
  .record "VariablesArguments" <| .field "variablesReference" .required (.word .signed64) .nil

def VariablesArguments.ofConformed (r : Json) : VariablesArguments :=
  ⟨Int64.ofInt (integerField "variablesReference" r)⟩

structure SetVariableArguments where
  variablesReference : Int64
  name : String
  value : String
  deriving DecidableEq, Repr

def SetVariableArguments.schema : Schema :=
  .record "SetVariableArguments" <|
    .field "variablesReference" .required (.word .signed64) <|
    .field "name" .required .text <|
    .field "value" .required .text .nil

def SetVariableArguments.ofConformed (r : Json) : SetVariableArguments :=
  ⟨Int64.ofInt (integerField "variablesReference" r), textField "name" r, textField "value" r⟩

inductive EvaluateContext where
  | repl
  | watch
  | hover
  | clipboard
  deriving DecidableEq, Repr

/-- A context that is unknown or missing counts as a watch expression. -/
def EvaluateContext.ofName? : Option String → EvaluateContext
  | some "repl" => .repl
  | some "hover" => .hover
  | some "clipboard" => .clipboard
  | _ => .watch

def EvaluateContext.name : EvaluateContext → String
  | .repl => "repl"
  | .watch => "watch"
  | .hover => "hover"
  | .clipboard => "clipboard"

structure EvaluateArguments where
  expression : String
  frameId : Option Nat
  contextName : Option String
  deriving DecidableEq, Repr

def EvaluateArguments.schema : Schema :=
  .record "EvaluateArguments" <|
    .field "expression" .required .text <|
    .field "frameId" .optional (.nullable (.word .unsigned64)) <|
    .field "context" .optional (.nullable .text) .nil

def EvaluateArguments.ofConformed (r : Json) : EvaluateArguments :=
  ⟨textField "expression" r, (integerField? "frameId" r).map Int.toNat, textField? "context" r⟩

def EvaluateArguments.context (arguments : EvaluateArguments) : EvaluateContext :=
  .ofName? arguments.contextName

end DebugBridge.Protocol
