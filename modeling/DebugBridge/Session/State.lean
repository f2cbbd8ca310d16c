import DebugBridge.Engine.Correlator
import DebugBridge.Scope.Cache
import DebugBridge.Session.Message
import DebugBridge.Source.Resolver

/-! What a session knows between two things that happen to it. -/

set_option autoImplicit false

namespace DebugBridge.Session

open Protocol

inductive Phase where
  | idle
  | running
  | stopped
  | disconnected
  deriving DecidableEq, Repr

structure PendingLaunch where
  request : Request
  arguments : LaunchArguments
  deriving Repr

structure State where
  phase : Phase
  /-- Whether the engine can be written to. -/
  connected : Bool
  pendingLaunch : Option PendingLaunch
  configured : Bool
  tracing : Bool
  correlator : Engine.Correlator
  breakpoints : Breakpoint.Table
  resolver : Source.Resolver
  scopes : Scope.Cache
  stack : List Engine.Frame
  /-- The first frame of the window shown last; the client counts frames from there. -/
  windowStart : Nat
  pausePending : Bool

namespace State

def initial (workingFolder : String) : State :=
  { phase := .idle
    connected := false
    pendingLaunch := none
    configured := false
    tracing := false
    correlator := .new
    breakpoints := .empty
    resolver := .new workingFolder none
    scopes := .empty
    stack := []
    windowStart := 0
    pausePending := false }

/-- Frame numbers are 64 bits wide and stay at the greatest one. -/
def greatestFrame : Nat := 0xFFFFFFFFFFFFFFFF

def engineFrame (s : State) (viewFrame : Nat) : Nat := min (s.windowStart + viewFrame) greatestFrame

def viewFrame? (s : State) (viewFrame : Nat) : Option Engine.Frame := s.stack[s.engineFrame viewFrame]?

def sourceView (s : State) (file : String) : SourceView :=
  { name := ((Source.Path.ofString file).fileName?).getD file
    path := (s.resolver.toClient file).text }

def stopReason (breakpoints : Breakpoint.Table) (stack : List Engine.Frame) : StopReason :=
  match stack.head?.bind fun top => breakpoints.find? top.file top.line with
  | some location => .breakpoint location.id
  | none => .step

/-- The number of frames shown when a client does not say, or says zero. -/
def defaultLevels : Nat := 1000

def window (s : State) (start levels : Nat) : List FrameView :=
  ((s.stack.drop start).take levels).mapIdx fun id frame =>
    ⟨id, frame.function, s.sourceView frame.file, frame.line⟩

end State

end DebugBridge.Session
