import DebugBridge.Text.Blank
import DebugBridge.Text.Decimal
import DebugBridge.Text.Separated

/-! Lines received from the engine. -/

set_option autoImplicit false

namespace DebugBridge.Engine

structure Frame where
  file : String
  line : Int64
  function : String
  deriving DecidableEq, Repr

inductive Event where
  | pass (token : String)
  | consoleOutput (text : String)
  | running
  | breakpointCleared (file : String) (line : Int64)
  | breakpointMoved (file : String) (line newLine : Int64)
  /-- The whole stack, innermost frame first. -/
  | stopped (frames : List Frame)
  | evaluated (tag : UInt64) (value : String)
  | unknown (line : String)
  deriving DecidableEq, Repr

inductive EventFault where
  | emptyLine
  | missingField (verb field : String)
  | invalidNumber (verb field value : String)
  deriving DecidableEq, Repr

def EventFault.message : EventFault → String
  | .emptyLine => "empty line"
  | .missingField verb field => verb ++ ": missing " ++ field
  | .invalidNumber verb field value => verb ++ ": invalid " ++ field ++ " `" ++ value ++ "`"

namespace Event

def field (fields : List (List Char)) (index : Nat) (verb name : String) : Except EventFault String :=
  match fields[index]? with
  | some text => .ok (String.ofList text)
  | none => .error (.missingField verb name)

def lineField (fields : List (List Char)) (index : Nat) (verb name : String) : Except EventFault Int64 :=
  match field fields index verb name with
  | .error fault => .error fault
  | .ok text =>
    match Text.Decimal.readInt64 text with
    | .ok line => .ok line
    | .error _ => .error (.invalidNumber verb name text)

def tagField (fields : List (List Char)) (index : Nat) (verb name : String) : Except EventFault UInt64 :=
  match field fields index verb name with
  | .error fault => .error fault
  | .ok text =>
    match Text.Decimal.readUInt64 text with
    | .ok tag => .ok tag
    | .error _ => .error (.invalidNumber verb name text)

/-- Every three fields describe a frame; fewer left over do not. A frame whose line is garbled stays, with
line 0: evaluations address frames by position. -/
def frames : List (List Char) → List Frame
  | file :: line :: function :: rest =>
    { file := String.ofList file
      line := match Text.Decimal.readInt64 (String.ofList line) with
        | .ok line => line
        | .error _ => 0
      function := String.ofList function } :: frames rest
  | _ => []

def frameFaults : List (List Char) → List EventFault
  | _ :: line :: _ :: rest =>
    match Text.Decimal.readInt64 (String.ofList line) with
    | .ok _ => frameFaults rest
    | .error _ => .invalidNumber "BREAK" "line" (String.ofList line) :: frameFaults rest
  | _ => []

/-- The event of a line without its end. Fields that a verb has no use for are ignored. -/
def decode (line : String) : Except EventFault Event :=
  match Text.split ' ' line.toList with
  | [] => .error .emptyLine
  | verb :: fields =>
    if verb.isEmpty then .error .emptyLine
    else match String.ofList verb with
      | "PASS" => (field fields 0 "PASS" "token").map .pass
      -- the text keeps all of its spaces
      | "COUT" => .ok (.consoleOutput (String.ofList (line.toList.drop 5)))
      | "RUNNING" => .ok .running
      | "BRKCLR" => do
        let file ← field fields 0 "BRKCLR" "file"
        let line ← lineField fields 1 "BRKCLR" "line"
        return .breakpointCleared file line
      | "BRKMOV" => do
        let file ← field fields 0 "BRKMOV" "file"
        let line ← lineField fields 1 "BRKMOV" "line"
        let newLine ← lineField fields 2 "BRKMOV" "new line"
        return .breakpointMoved file line newLine
      | "BREAK" => .ok (.stopped (frames fields))
      | "EVALOUT" => do
        let tag ← tagField fields 0 "EVALOUT" "tag"
        return .evaluated tag (String.ofList (Text.join ' ' fields.tail))
      | _ => .ok (.unknown line)

def warnings (line : String) : List EventFault :=
  match Text.split ' ' line.toList with
  | verb :: fields => if String.ofList verb = "BREAK" then frameFaults fields else []
  | [] => []

end Event

/-- What an engine answers to a password it does not accept, dots and white space at the end apart. -/
def isWrongPassword (token : String) : Bool :=
  Text.dropEndWhile (fun c => c == '.' || Text.isBlank c) token.toList == "WrongPassword".toList

end DebugBridge.Engine
