import DebugBridge.Session.Run
import DebugBridge.Session.Surroundings

/-! A session over a pair of streams: octets of the client in, framed messages out. -/

set_option autoImplicit false

namespace DebugBridge.CommandLine

open Protocol Session

structure Service where
  machine : Machine Surroundings
  /-- The beginning of a message whose end has not arrived. -/
  unread : List UInt8

structure Exchange where
  received : List Json
  sent : List Message

namespace Exchange

def append (a b : Exchange) : Exchange := ⟨a.received ++ b.received, a.sent ++ b.sent⟩

def output (exchange : Exchange) : String :=
  String.join (exchange.sent.map fun message => framed message.envelope.text)

def record (exchange : Exchange) (trace : Trace) : Trace :=
  exchange.sent.foldl (fun trace message => trace.outgoing message.envelope.text)
    (exchange.received.foldl Trace.incoming trace)

end Exchange

namespace Service

def initial (host : Host Surroundings) (world : Surroundings) : Service := ⟨.initial host world, []⟩

def handle (host : Host Surroundings) (m : Machine Surroundings) (message : Json) : Machine Surroundings :=
  if m.ended then m else (m.receiveMessage message).settleAll host

def sentSince (before after : Machine Surroundings) : List Message :=
  after.emitted.drop before.emitted.length

def feed (host : Host Surroundings) (s : Service) (octets : List UInt8) : Exchange × Service :=
  let (messages, unread) := Framing.readSome (s.unread ++ octets)
  let machine := messages.foldl (handle host) s.machine
  (⟨messages, sentSince s.machine machine⟩, ⟨machine, unread⟩)

def close (host : Host Surroundings) (s : Service) : Exchange × Service :=
  -- what is unread may be a message cut off in the middle
  let fault := match Framing.readMessage s.unread with
    | .error fault => some fault
    | .ok _ => none
  let machine := match s.machine.ended, Action.ofStreamEnd fault with
    | false, some ending => (s.machine.act host ending).settleAll host
    | _, _ => s.machine
  (⟨[], sentSince s.machine machine⟩, ⟨machine, []⟩)

def serve (host : Host Surroundings) (world : Surroundings) (octets : List UInt8) :
    Exchange × Machine Surroundings :=
  let (first, s) := (initial host world).feed host octets
  let (last, s) := s.close host
  (first.append last, s.machine)

end Service

end DebugBridge.CommandLine
