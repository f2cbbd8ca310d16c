import DebugBridge.Breakpoint.Table
import DebugBridge.Engine.Connect
import DebugBridge.Protocol.Envelope
import DebugBridge.Protocol.Request
import DebugBridge.Session.Reference

/-! What a session tells its client: answers to requests, refusals and events. -/

set_option autoImplicit false

namespace DebugBridge.Session

open Protocol

inductive Refusal where
  | alreadyStarted (command : String)
  | invalidArguments (command : String) (fault : SchemaFault)
  | missingSourcePath
  | badReference (fault : ReferenceFault)
  | noWorkingFolder (reason : String)
  | notResumed (command : Engine.Command) (fault : Engine.SendFault)
  | consoleNotReached (fault : Engine.SendFault)
  | notEvaluated
  /-- A failed hover is not worth a message. -/
  | nothingToShow
  | unsupported (command : String)
  | notConnected (fault : Engine.ConnectFault)
  deriving Repr

def Refusal.message? : Refusal → Option String
  | .alreadyStarted command => some (command ++ ": session already started")
  | .invalidArguments command fault => some (command ++ ": invalid arguments: " ++ fault.message)
  | .missingSourcePath => some "setBreakpoints: missing arguments.source.path"
  | .badReference fault => some fault.message
  | .noWorkingFolder reason => some ("resolve working directory: " ++ reason)
  | .notResumed command fault => some ("send " ++ command.line ++ ": " ++ fault.message)
  | .consoleNotReached fault => some ("evaluate: " ++ fault.message)
  | .notEvaluated => some "Failed to evaluate!"
  | .nothingToShow => none
  | .unsupported command => some ("Unsupported DAP command: " ++ command)
  | .notConnected fault => some fault.message

structure SourceView where
  name : String
  path : String
  deriving DecidableEq, Repr

/-- A stack frame as the client is told of it, numbered from the top of the window. -/
structure FrameView where
  id : Nat
  function : String
  source : SourceView
  line : Int64
  deriving DecidableEq, Repr

structure VariableView where
  name : String
  value : String
  deriving DecidableEq, Repr

inductive Answer where
  | nothing
  | capabilities
  | breakpoints (installed : List Breakpoint.Location)
  | threads
  | stack (frames : List FrameView)
  | scopes (source : Option SourceView) (locals globals : Int64)
  | variableList (shown : List VariableView)
  | variableValue (value : String)
  | continued
  | result (value : String)
  deriving DecidableEq, Repr

inductive StopReason where
  | breakpoint (id : Nat)
  | step
  | pause
  deriving DecidableEq, Repr

inductive OutputCategory where
  | stdout
  | console
  deriving DecidableEq, Repr

inductive BreakpointChange where
  | removed
  | changed
  deriving DecidableEq, Repr

inductive Notice where
  | initialized
  | terminated
  | continued
  | output (category : OutputCategory) (text : String)
  | stopped (reason : StopReason)
  | breakpoint (change : BreakpointChange) (location : Breakpoint.Location) (source : SourceView)
  deriving DecidableEq, Repr

inductive Outcome where
  | success (answer : Answer)
  | failure (cause : Refusal)
  deriving Repr

inductive Message where
  | response (seq : Nat) (request : Request) (outcome : Outcome)
  | event (seq : Nat) (notice : Notice)
  deriving Repr

def threadId : Int := 1

def SourceView.toJson (source : SourceView) : Json :=
  .ofMembers [("name", .string source.name), ("path", .string source.path)]

def FrameView.toJson (frame : FrameView) : Json :=
  .ofMembers [("id", .ofNat frame.id), ("name", .string frame.function), ("source", frame.source.toJson),
    ("line", .integer frame.line.toInt), ("column", .integer 0)]

def VariableView.toJson (v : VariableView) : Json :=
  .ofMembers [("name", .string v.name), ("value", .string v.value), ("variablesReference", .integer 0)]

def abilities : List (String × Bool) := [
  ("supportsConfigurationDoneRequest", true),
  ("supportsEvaluateForHovers", true),
  ("supportsConditionalBreakpoints", true),
  ("supportsHitConditionalBreakpoints", true),
  ("supportsSetVariable", true),
  ("supportsStepBack", false),
  ("supportsDataBreakpoints", false),
  ("supportsCompletionsRequest", false),
  ("supportsDisassembleRequest", false),
  ("supportsReadMemoryRequest", false),
  ("supportsWriteMemoryRequest", false),
  ("supportsFunctionBreakpoints", false),
  ("supportsDelayedStackTraceLoading", false),
  ("supportsExceptionInfoRequest", false)]

def sourceMember (source : Option SourceView) : List (String × Json) :=
  (source.map fun s => ("source", s.toJson)).toList

def Answer.body? : Answer → Option Json
  | .nothing => none
  | .capabilities => some (.ofMembers (abilities.map fun (name, able) => (name, .boolean able)))
  | .breakpoints installed => some (.ofMembers [("breakpoints", .array (installed.map fun location =>
      .ofMembers [("id", .ofNat location.id), ("verified", .boolean true),
        ("line", .integer location.line.toInt)]))])
  | .threads => some (.ofMembers [("threads", .array
      [.ofMembers [("id", .integer threadId), ("name", .string "TorqueScript")]])])
  | .stack frames => some (.ofMembers
      [("stackFrames", .array (frames.map FrameView.toJson)), ("totalFrames", .ofNat frames.length)])
  | .scopes source locals globals => some (.ofMembers [("scopes", .array [
      .ofMembers ([("name", .string "Locals"), ("presentationHint", .string "locals"),
        ("variablesReference", .integer locals.toInt), ("expensive", .boolean false)] ++ sourceMember source),
      .ofMembers ([("name", .string "Globals"), ("variablesReference", .integer globals.toInt),
        ("expensive", .boolean true)] ++ sourceMember source)])])
  | .variableList shown => some (.ofMembers [("variables", .array (shown.map VariableView.toJson))])
  | .variableValue value => some (.ofMembers [("value", .string value), ("variablesReference", .integer 0)])
  | .continued => some (.ofMembers [("allThreadsContinued", .boolean true)])
  | .result value => some (.ofMembers [("result", .string value), ("variablesReference", .integer 0)])

def StopReason.name : StopReason → String
  | .breakpoint _ => "breakpoint"
  | .step => "step"
  | .pause => "pause"

def OutputCategory.name : OutputCategory → String
  | .stdout => "stdout"
  | .console => "console"

def BreakpointChange.name : BreakpointChange → String
  | .removed => "removed"
  | .changed => "changed"

def BreakpointChange.verified : BreakpointChange → Bool
  | .removed => false
  | .changed => true

def Notice.name : Notice → String
  | .initialized => "initialized"
  | .terminated => "terminated"
  | .continued => "continued"
  | .output _ _ => "output"
  | .stopped _ => "stopped"
  | .breakpoint _ _ _ => "breakpoint"

def Notice.body? : Notice → Option Json
  | .initialized | .terminated => none
  | .continued => some (.ofMembers [("threadId", .integer threadId), ("allThreadsContinued", .boolean true)])
  | .output category text => some (.ofMembers [("category", .string category.name), ("output", .string text)])
  | .stopped reason => some (.ofMembers ([("reason", .string reason.name), ("threadId", .integer threadId),
      ("allThreadsStopped", .boolean true)] ++
      match reason with
      | .breakpoint id => [("hitBreakpointIds", .array [.ofNat id])]
      | _ => []))
  | .breakpoint change location source => some (.ofMembers [("reason", .string change.name),
      ("breakpoint", .ofMembers [("id", .ofNat location.id), ("verified", .boolean change.verified),
        ("line", .integer location.line.toInt), ("source", source.toJson)])])

def Message.envelope : Message → Envelope
  | .response seq request (.success answer) =>
    .response seq request.seq true request.command none answer.body?
  | .response seq request (.failure cause) =>
    .response seq request.seq false request.command cause.message? none
  | .event seq notice => .event seq notice.name notice.body?

end DebugBridge.Session
