import DebugBridge.Session.Connection
import DebugBridge.Session.Inspection

/-! The commands of the client. -/

set_option autoImplicit false

namespace DebugBridge.Session

open Protocol

inductive Verb where
  | introduce
  | launch
  | configurationDone
  | setBreakpoints
  | threads
  | stackTrace
  | scopes
  | showVariables
  | setVariable
  | resume
  | next
  | stepIn
  | stepOut
  | pause
  | evaluate
  | disconnect
  deriving DecidableEq, Repr

/-- The verb of a command. Attaching is launching: both connect to an engine that runs already. -/
def Verb.ofCommand? (command : String) : Option Verb :=
  match command with
  | "initialize" => some .introduce
  | "launch" | "attach" => some .launch
  | "configurationDone" => some .configurationDone
  | "setBreakpoints" => some .setBreakpoints
  | "threads" => some .threads
  | "stackTrace" => some .stackTrace
  | "scopes" => some .scopes
  | "variables" => some .showVariables
  | "setVariable" => some .setVariable
  | "continue" => some .resume
  | "next" => some .next
  | "stepIn" => some .stepIn
  | "stepOut" => some .stepOut
  | "pause" => some .pause
  | "evaluate" => some .evaluate
  | "disconnect" => some .disconnect
  | _ => none

namespace Machine

variable {ω : Type}

/-- Before there is an engine the breakpoints are only remembered. -/
def setBreakpoints (host : Host ω) (m : Machine ω) (request : Request) : Machine ω :=
  match request.argumentsAs SetBreakpointsArguments.schema SetBreakpointsArguments.ofConformed with
  | .error fault => m.refuse request (.invalidArguments request.command fault)
  | .ok arguments =>
    match arguments.source.path with
    | none => m.refuse request .missingSourcePath
    | some path =>
      let wanted := arguments.breakpoints.map fun b => ⟨b.line, b.condition, b.hitCondition⟩
      let (update, breakpoints) := m.state.breakpoints.replace (m.state.resolver.toEngine path) wanted
      let m := { m with state := { m.state with breakpoints := breakpoints } }
      let m := if m.state.connected then
          update.commands.foldl (fun m command => m.sendAnyway host command) m
        else m
      m.succeed request (.breakpoints update.installed)

def resume (host : Host ω) (m : Machine ω) (command : Engine.Command) :
    Except Engine.SendFault Unit × Machine ω :=
  match m.send host command with
  | (.error fault, m) => (.error fault, m)
  | (.ok (), m) =>
    (.ok (), if m.state.phase = .stopped then { m with state := { m.state with phase := .running } } else m)

def continueExecution (host : Host ω) (m : Machine ω) (request : Request) : Machine ω :=
  match m.resume host .resume with
  | (.ok (), m) => m.succeed request .continued
  | (.error fault, m) => m.refuse request (.notResumed .resume fault)

def step (host : Host ω) (m : Machine ω) (request : Request) (command : Engine.Command) : Machine ω :=
  match m.resume host command with
  | (.ok (), m) => m.succeed request .nothing
  | (.error fault, m) => m.refuse request (.notResumed command fault)

/-- The engine cannot be told to pause. It makes a step instead, and its next line counts as the pause. -/
def pause (host : Host ω) (m : Machine ω) (request : Request) : Machine ω :=
  match m.resume host .stepIn with
  | (.ok (), m) => { m with state := { m.state with pausePending := true } }.succeed request .nothing
  | (.error fault, m) => m.refuse request (.notResumed .stepIn fault)

def disconnect (m : Machine ω) (request : Request) : Machine ω :=
  let m := { m with state := { m.state with phase := .disconnected, connected := false }, reader := none }
  { m.succeed request .nothing with ended := true }

def handleRequest (host : Host ω) (m : Machine ω) (request : Request) : Machine ω :=
  let m := m.log .debug "dap" ("request #" ++ Text.Decimal.showInt64 request.seq ++ " " ++ request.command)
  match Verb.ofCommand? request.command with
  | some .introduce => (m.succeed request .capabilities).announce .initialized
  | some .launch => m.launch host request
  | some .configurationDone => m.configurationDone host request
  | some .setBreakpoints => m.setBreakpoints host request
  | some .threads => m.succeed request .threads
  | some .stackTrace => m.stackTrace request
  | some .scopes => m.scopes request
  | some .showVariables => m.showVariables host request
  | some .setVariable => m.setVariable host request
  | some .resume => m.continueExecution host request
  | some .next => m.step host request .stepOver
  | some .stepIn => m.step host request .stepIn
  | some .stepOut => m.step host request .stepOut
  | some .pause => m.pause host request
  | some .evaluate => m.evaluateExpression host request
  | some .disconnect => m.disconnect request
  | none => m.refuse request (.unsupported request.command)

end Machine

end DebugBridge.Session
