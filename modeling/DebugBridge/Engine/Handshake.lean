import DebugBridge.Engine.Event
import DebugBridge.Engine.LineBuffer

/-! The handshake: of everything the engine sends, the first `PASS` line answers the password. -/

set_option autoImplicit false

namespace DebugBridge.Engine

inductive StreamEnd where
  /-- Nothing more arrives in time. -/
  | silent
  | closed
  | failed (reason : String)
  deriving DecidableEq, Repr

structure Incoming where
  chunks : List (List UInt8)
  ending : StreamEnd

def Incoming.nothing : Incoming := ⟨[], .silent⟩

namespace Handshake

inductive Outcome where
  /-- What was received after the answer belongs to the event stream. -/
  | accepted (token : String) (buffer : LineBuffer) (later : List (List UInt8))
  | wrongPassword
  | ended (ending : StreamEnd)

def search (buffer : LineBuffer) : List String × Option (String × LineBuffer) × LineBuffer :=
  match _found : buffer.next with
  | none => ([], none, buffer)
  | some (line, rest) =>
    match Event.decode line with
    | .ok (.pass token) => ([], some (token, rest), rest)
    | _ => (line :: (search rest).1, (search rest).2)
termination_by buffer.octets.length
decreasing_by all_goals exact LineBuffer.next_length _found

/-- Read chunks until the password is answered. Returns the lines passed over and the outcome. -/
def run (buffer : LineBuffer) (chunks : List (List UInt8)) (ending : StreamEnd) : List String × Outcome :=
  match search buffer with
  | (ignored, some (token, rest), _) =>
    (ignored, if isWrongPassword token then .wrongPassword else .accepted token rest chunks)
  | (ignored, none, rest) =>
    -- only now is there a need to read on
    match chunks with
    | [] => (ignored, .ended ending)
    | chunk :: later =>
      let (more, outcome) := run (rest.push chunk) later ending
      (ignored ++ more, outcome)

end Handshake

end DebugBridge.Engine
