import DebugBridge.Json.Printer
import DebugBridge.Text.Utf8

/-! Messages to the client, their framing, and what is recorded of them. -/

set_option autoImplicit false

namespace DebugBridge.Protocol

inductive Envelope where
  | response (seq : Nat) (requestSeq : Int64) (success : Bool) (command : String) (message : Option String)
      (body : Option Json)
  | event (seq : Nat) (name : String) (body : Option Json)
  deriving Repr

namespace Envelope

/-- The fields in the order in which they are written; absent ones are left out. -/
def fields : Envelope → List (String × Json)
  | .response seq requestSeq success command message body =>
    [("seq", .integer seq), ("type", .string "response"), ("request_seq", .integer requestSeq.toInt),
      ("success", .boolean success), ("command", .string command)] ++
      (message.map fun text => ("message", Json.string text)).toList ++ (body.map ("body", ·)).toList
  | .event seq name body =>
    [("seq", .integer seq), ("type", .string "event"), ("event", .string name)] ++
      (body.map ("body", ·)).toList

def toJson (e : Envelope) : Json := .ofMembers e.fields

def text (e : Envelope) : String := (Json.object e.fields).text

end Envelope

/-- A body behind the header that announces its length in octets. -/
def framed (body : String) : String :=
  "Content-Length: " ++ Text.Decimal.showNat (Text.Utf8.encode body).length ++ "\r\n\r\n" ++ body

/-- The numbers that messages are given in turn. They are signed and 64 bits wide, which no session exhausts. -/
structure Writer where
  nextSeq : Nat
  deriving DecidableEq, Repr

namespace Writer

def new : Writer := ⟨1⟩

def respond (w : Writer) (requestSeq : Int64) (success : Bool) (command : String) (message : Option String)
    (body : Option Json) : Envelope × Writer :=
  (.response w.nextSeq requestSeq success command message body, ⟨w.nextSeq + 1⟩)

def announce (w : Writer) (name : String) (body : Option Json) : Envelope × Writer :=
  (.event w.nextSeq name body, ⟨w.nextSeq + 1⟩)

end Writer

/-- The diagnostics of a session: notes and, if asked for, the messages in both directions. -/
structure Trace where
  traffic : Bool
  /-- What has been recorded, oldest line first. A line may hold line feeds of its own. -/
  lines : List String
  deriving DecidableEq, Repr

namespace Trace

def note (trace : Trace) (text : String) : Trace := { trace with lines := trace.lines ++ [text] }

def incoming (trace : Trace) (message : Json) : Trace :=
  if trace.traffic then trace.note ("<- " ++ message.text) else trace

def outgoing (trace : Trace) (message : String) : Trace :=
  if trace.traffic then trace.note ("-> " ++ message) else trace

def text (trace : Trace) : String := String.join (trace.lines.map (· ++ "\n"))

end Trace

end DebugBridge.Protocol
