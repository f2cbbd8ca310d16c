import DebugBridge.Protocol.Framing
import DebugBridge.Session.Requests

/-! Runs of a session: what arrives, and the handling of one thing after another. -/

set_option autoImplicit false

namespace DebugBridge.Session

open Protocol

namespace Machine

variable {ω : Type}

def stopForPause (m : Machine ω) : Machine ω :=
  { m with state := { m.state with phase := .stopped } }.announce (.stopped .pause)

def handleEvent (m : Machine ω) (event : Engine.Event) : Machine ω :=
  -- any line ends the wait for a pause, whatever it says
  let pausing := m.state.pausePending
  let m := { m with state := { m.state with pausePending := false } }
  let afterwards (m : Machine ω) : Machine ω := if pausing then m.stopForPause else m
  match event with
  | .stopped frames =>
    -- the stop is the pause, so no second one is reported
    let reason := if pausing then .pause else State.stopReason m.state.breakpoints frames
    { m with state := { m.state with stack := frames, phase := .stopped } }.announce (.stopped reason)
  | .consoleOutput text => afterwards (m.announce (.output .stdout (text ++ "\n")))
  | .running => afterwards ({ m with state := { m.state with phase := .running } }.announce .continued)
  | .breakpointCleared file line =>
    match m.state.breakpoints.clearLine file line with
    | (some location, breakpoints) =>
      let m := { m with state := { m.state with breakpoints := breakpoints } }
      afterwards (m.announce (.breakpoint .removed location (m.state.sourceView file)))
    | (none, _) => afterwards m
  | .breakpointMoved file line newLine =>
    match m.state.breakpoints.moveLine file line newLine with
    | (some location, breakpoints) =>
      let m := { m with state := { m.state with breakpoints := breakpoints } }
      afterwards (m.announce (.breakpoint .changed location (m.state.sourceView file)))
    | (none, _) => afterwards m
  | .evaluated tag _ =>
    afterwards (m.log .debug "remote"
      ("EVALOUT " ++ Text.Decimal.showNat tag.toNat ++ " bypassed the correlator"))
  | .pass token => afterwards (m.log .debug "remote" ("unexpected PASS " ++ token))
  | .unknown line => afterwards (m.log .debug "remote" ("ignored line: " ++ line))

def engineGone (m : Machine ω) : Machine ω :=
  -- the end may be noticed twice but is reported once
  let gone := m.state.phase = .disconnected
  let m := { m with state := { m.state with connected := false, phase := .disconnected } }
  if gone then m else m.announce .terminated

def handleItem (host : Host ω) (m : Machine ω) : Item → Machine ω
  | .request request => m.handleRequest host request
  | .clientClosed => { m.log .info "dap" "client closed the connection" with ended := true }
  | .engineEvent event => m.handleEvent event
  | .lineConsumed =>
    if m.state.pausePending then
      { m with state := { m.state with pausePending := false } }.stopForPause
    else m
  | .engineClosed => (m.log .info "remote" "engine closed the connection").engineGone
  | .engineFailed reason => (m.log .warn "remote" ("engine connection failed: " ++ reason)).engineGone
  | .logLine text => m.announce (.output .console text)

def handleNext (host : Host ω) (m : Machine ω) : Machine ω :=
  match m.ended, m.inbox with
  | false, item :: rest => { m with inbox := rest }.handleItem host item
  | _, _ => m

def awaitsConfiguration (m : Machine ω) : Bool := ! m.ended && m.inbox.isEmpty && m.state.pendingLaunch.isSome

def handleMany (host : Host ω) (m : Machine ω) : Nat → Machine ω
  | 0 => m
  | n + 1 => handleMany host (m.handleNext host) n

/-- Handle everything in the inbox. A request can bring engine lines and log records, an engine line log
records, and a log record nothing, so three rounds are enough. -/
def settleAll (host : Host ω) (m : Machine ω) : Machine ω :=
  let round (m : Machine ω) : Machine ω := m.handleMany host m.inbox.length
  round (round (round m))

/-- A message of the client. What is no request, though well-formed, is ignored. -/
def receiveMessage (m : Machine ω) (message : Json) : Machine ω :=
  match Request.ofJson message with
  | .ok request => if request.kind = "request" then m.post (.request request) else m
  | .error fault => m.log .warn "dap" ("malformed request: " ++ fault.message)

def receiveClientEnd (m : Machine ω) (fault : Option String) : Machine ω :=
  match fault with
  | none => m.post .clientClosed
  | some reason => (m.log .warn "dap" ("read failed: " ++ reason)).post .clientClosed

def emitted (m : Machine ω) : List Message :=
  m.transcript.filterMap fun
    | .emitted message => some message
    | _ => none

end Machine

inductive Action where
  | handle
  /-- The time for the configuration is over; it began so many nanoseconds ago. -/
  | overdue (waited : Nat)
  | message (message : Json)
  | clientEnd (fault : Option String)
  | engine (incoming : Engine.Incoming)
  | logLine (text : String)

namespace Action

/-- What the session is told of the end of the client's stream. Over a length for which there can be no buffer
its reader breaks down and tells it nothing. -/
def ofStreamEnd : Option ReadFault → Option Action
  | none => some (.clientEnd none)
  | some .lengthBeyondMemory => none
  | some fault => some (.clientEnd (some fault.message))

def ofStream (octets : List UInt8) : List Action :=
  let (messages, fault) := Framing.readAll octets
  messages.map .message ++ (ofStreamEnd fault).toList

end Action

variable {ω : Type}

def Machine.act (host : Host ω) (m : Machine ω) : Action → Machine ω
  | .handle => m.handleNext host
  | .overdue waited => if m.awaitsConfiguration then m.startOverdue host waited else m
  | .message message => m.receiveMessage message
  | .clientEnd fault => m.receiveClientEnd fault
  | .engine incoming => m.receive incoming
  | .logLine text => m.post (.logLine text)

def Machine.run (host : Host ω) (m : Machine ω) (actions : List Action) : Machine ω :=
  actions.foldl (·.act host) m

end DebugBridge.Session
