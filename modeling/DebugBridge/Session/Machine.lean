import DebugBridge.Log
import DebugBridge.Session.State

/-! A session among its surroundings.

Whatever happens to a session goes through its inbox, one item after another. Its surroundings, the network,
the engine and the files, are a state of their own that a host acts on. What the session does, and what
reaches it from the engine, is recorded in order. -/

set_option autoImplicit false

namespace DebugBridge.Session

open Protocol

structure Host (ω : Type) where
  dial : ω → String → UInt16 → Except Engine.ConnectFault String × ω
  /-- Write to the engine. Returns what arrives from it on that, or why it could not be written. -/
  tell : ω → String → Except String Engine.Incoming × ω
  startReader : ω → Except Engine.ReaderFault Unit × ω
  linger : ω → Engine.Incoming × ω
  read : ω → String → Except Source.FileFault (List UInt8)
  workingFolder : ω → Except String String
  /-- How long the engine may take to answer the password, in milliseconds. -/
  connectTimeout : Nat

inductive Item where
  | request (request : Request)
  | clientClosed
  | engineEvent (event : Engine.Event)
  /-- The reader dealt with a line itself: an answer or a malformed line. -/
  | lineConsumed
  | engineClosed
  | engineFailed (reason : String)
  | logLine (text : String)

inductive Happening where
  | emitted (message : Message)
  | greeted (password : String)
  /-- A command was handed to the connection. -/
  | sent (command : Engine.Command)
  /-- The command sent last could not be written. -/
  | unwritten (command : Engine.Command)
  | arrived (line : String)
  | waited (tag : UInt64)

structure Machine (ω : Type) where
  state : State
  nextSeq : Nat
  reader : Option Engine.LineBuffer
  inbox : List Item
  transcript : List Happening
  world : ω
  ended : Bool

namespace Machine

variable {ω : Type}

def initial (host : Host ω) (world : ω) : Machine ω :=
  { state := .initial ((host.workingFolder world).toOption.getD "")
    nextSeq := 1
    reader := none
    inbox := []
    transcript := []
    world := world
    ended := false }

def record (m : Machine ω) (h : Happening) : Machine ω := { m with transcript := m.transcript ++ [h] }

def post (m : Machine ω) (item : Item) : Machine ω := { m with inbox := m.inbox ++ [item] }

/-- Log a record. While tracing it reaches the client by way of the inbox. -/
def log (m : Machine ω) (level : Log.Level) (target message : String) : Machine ω :=
  { m with inbox := m.inbox ++ (Log.forwarded m.state.tracing ⟨level, target, message⟩).map .logLine }

def emit (m : Machine ω) (message : Nat → Message) : Machine ω :=
  { m.record (.emitted (message m.nextSeq)) with nextSeq := m.nextSeq + 1 }

def succeed (m : Machine ω) (request : Request) (answer : Answer) : Machine ω :=
  m.emit fun seq => .response seq request (.success answer)

def refuse (m : Machine ω) (request : Request) (cause : Refusal) : Machine ω :=
  m.emit fun seq => .response seq request (.failure cause)

def announce (m : Machine ω) (notice : Notice) : Machine ω := m.emit fun seq => .event seq notice

def logWarnings (m : Machine ω) (line : String) : Machine ω :=
  (Engine.Event.warnings line).foldl (fun m fault => m.log .warn "remote" fault.message) m

/-- A line from the engine. Answers go to their requests at once; all else waits in the inbox. -/
def receiveLine (m : Machine ω) (line : String) : Machine ω :=
  let m := ((m.record (.arrived line)).log .debug "remote" ("<- " ++ line)).logWarnings line
  match Engine.Event.decode line with
  | .ok (.evaluated tag value) =>
    match m.state.correlator.resolve tag value with
    | (true, correlator) => { m with state := { m.state with correlator := correlator } }.post .lineConsumed
    | (false, _) =>
      (m.log .debug "remote" ("EVALOUT for unknown tag " ++ Text.Decimal.showNat tag.toNat)).post .lineConsumed
  | .ok event => m.post (.engineEvent event)
  | .error fault =>
    (m.log .warn "remote" ("malformed line `" ++ line ++ "`: " ++ fault.message)).post .lineConsumed

def receiveChunk (m : Machine ω) (chunk : List UInt8) : Machine ω :=
  match m.reader with
  | none => m
  | some buffer =>
    let drained := (buffer.push chunk).drain
    drained.1.foldl receiveLine { m with reader := some drained.2 }

def receiveEnd (m : Machine ω) (ending : Engine.StreamEnd) : Machine ω :=
  match m.reader, ending with
  -- silence ends nothing: the engine may speak again
  | none, _ | _, .silent => m
  | some _, .closed => { m with reader := none }.post .engineClosed
  | some _, .failed reason => { m with reader := none }.post (.engineFailed reason)

def receive (m : Machine ω) (incoming : Engine.Incoming) : Machine ω :=
  (incoming.chunks.foldl receiveChunk m).receiveEnd incoming.ending

def send (host : Host ω) (m : Machine ω) (command : Engine.Command) :
    Except Engine.SendFault Unit × Machine ω :=
  if m.state.connected then
    let m := (m.log .debug "remote" ("-> " ++ command.line)).record (.sent command)
    match host.tell m.world command.encode with
    | (.ok incoming, world) => (.ok (), { m with world := world }.receive incoming)
    | (.error reason, world) =>
      (.error (.notWritten reason), { m with world := world }.record (.unwritten command))
  else (.error .notConnected, m)

def sendAnyway (host : Host ω) (m : Machine ω) (command : Engine.Command) : Machine ω :=
  match m.send host command with
  | (.ok (), m) => m
  | (.error fault, m) => m.log .warn "remote" (command.line ++ ": " ++ fault.message)

/-- Issue an evaluation. Its request is registered first, so that no answer can be too early. -/
def evaluate (host : Host ω) (m : Machine ω) (frame : Nat) (expression : String) : UInt64 × Machine ω :=
  let (tag, correlator) := m.state.correlator.register
  let m := { m with state := { m.state with correlator := correlator } }
  match m.send host (.evaluate tag frame expression) with
  | (.ok (), m) => (tag, m)
  | (.error fault, m) =>
    let m := m.log .warn "remote" ("EVAL " ++ Text.Decimal.showNat tag.toNat ++ ": " ++ fault.message)
    (tag, { m with state := { m.state with correlator := m.state.correlator.markUnsent tag } })

def forget (m : Machine ω) (tag : UInt64) : Machine ω :=
  { m with state := { m.state with correlator := m.state.correlator.forget tag } }

def settle (m : Machine ω) (tag : UInt64) : Option String × Machine ω :=
  let (answer, correlator) := m.state.correlator.settle tag
  (answer, { m with state := { m.state with correlator := correlator } }.record (.waited tag))

/-- Wait for the answer to an evaluation. None after the time allowed, or if it could not be sent. -/
def await (host : Host ω) (m : Machine ω) (tag : UInt64) : Option String × Machine ω :=
  if m.state.correlator.isPending tag then
    let (incoming, world) := host.linger m.world
    match ({ m with world := world }.receive incoming).settle tag with
    | (some answer, m) => (some answer, m)
    | (none, m) =>
      (none, m.log .debug "remote" ("EVAL " ++ Text.Decimal.showNat tag.toNat ++ " timed out"))
  else m.settle tag

end Machine

end DebugBridge.Session
