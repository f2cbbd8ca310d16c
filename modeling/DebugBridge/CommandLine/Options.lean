import DebugBridge.Text.Decimal

/-! The options of the command line.

A setting takes a value, attached to it or as the next argument, and a flag takes none. The value of a
setting is judged when the next option is met, or at the end, so that a later argument can be complained
about before an earlier one. -/

set_option autoImplicit false

namespace DebugBridge.CommandLine

structure Options where
  listen : Option String
  oneShot : Bool
  logFile : Option String
  traceMessages : Bool
  /-- Milliseconds. -/
  evaluationTimeout : UInt64
  /-- Milliseconds. -/
  connectTimeout : UInt64
  deriving DecidableEq, Repr

def Options.default : Options := ⟨none, false, none, false, 2000, 5000⟩

inductive Setting where
  | listen
  | logFile
  | evaluationTimeout
  | connectTimeout
  deriving DecidableEq, Repr

inductive Flag where
  | oneShot
  | traceMessages
  | help
  | version
  deriving DecidableEq, Repr

inductive Halt where
  | helpWanted
  | versionWanted
  | unknownArgument (argument : String)
  | missingValue (setting : Setting)
  | unwantedValue (flag : Flag) (value : String)
  | givenTwice (name : String)
  | badValue (setting : Setting) (value : String)
  deriving DecidableEq, Repr

def Setting.name : Setting → String
  | .listen => "--listen"
  | .logFile => "--log-file"
  | .evaluationTimeout => "--eval-timeout-ms"
  | .connectTimeout => "--connect-timeout-ms"

def Flag.name : Flag → String
  | .oneShot => "--oneshot"
  | .traceMessages => "--trace-dap"
  | .help => "--help"
  | .version => "--version"

inductive Key where
  | setting (setting : Setting)
  | flag (flag : Flag)
  deriving DecidableEq, Repr

def Key.all : List Key := [
  .setting .listen, .setting .logFile, .setting .evaluationTimeout, .setting .connectTimeout,
  .flag .oneShot, .flag .traceMessages, .flag .help, .flag .version]

def Key.name : Key → String
  | .setting s => s.name
  | .flag f => f.name

def Key.ofName? (name : String) : Option Key := Key.all.find? fun key => key.name == name

def Flag.ofLetter? : Char → Option Flag
  | 'h' => some .help
  | 'V' => some .version
  | _ => none

structure Pending where
  setting : Setting
  value : Option String
  deriving DecidableEq, Repr

structure Reading where
  options : Options
  given : List Key
  pending : Option Pending
  /-- After a double dash no argument is an option any more. -/
  optionsOver : Bool
  deriving DecidableEq, Repr

inductive Argument where
  | doubleDash
  | long (name : String) (value : Option String)
  | short (letter : Char)
  | plain (text : String)
  deriving DecidableEq, Repr

def Argument.ofString (text : String) : Argument :=
  match text.toList with
  | ['-', '-'] => .doubleDash
  | '-' :: '-' :: rest =>
    .long (String.ofList ('-' :: '-' :: rest.takeWhile (· ≠ '=')))
      (match rest.dropWhile (· ≠ '=') with
        | _ :: value => some (String.ofList value)
        | [] => none)
  | '-' :: letter :: _ => .short letter
  | _ => .plain text

namespace Reading

def initial : Reading := ⟨.default, [], none, false⟩

def mark (r : Reading) (key : Key) : Except Halt Reading :=
  if key ∈ r.given then .error (.givenTwice key.name) else .ok { r with given := key :: r.given }

def milliseconds (setting : Setting) (value : String) : Except Halt UInt64 :=
  match Text.Decimal.readUInt64 value with
  | .ok n => .ok n
  | .error _ => .error (.badValue setting value)

/-- Take over the value of a setting. A log file must have a name. -/
def assign (r : Reading) (setting : Setting) (value : String) : Except Halt Reading := do
  let r ← r.mark (.setting setting)
  match setting with
  | .listen => return { r with options := { r.options with listen := some value } }
  | .logFile =>
    if value = "" then throw (.missingValue setting)
    else return { r with options := { r.options with logFile := some value } }
  | .evaluationTimeout =>
    let n ← milliseconds setting value
    return { r with options := { r.options with evaluationTimeout := n } }
  | .connectTimeout =>
    let n ← milliseconds setting value
    return { r with options := { r.options with connectTimeout := n } }

def settle (r : Reading) : Except Halt Reading :=
  match r.pending with
  | none => .ok r
  | some ⟨setting, none⟩ => .error (.missingValue setting)
  | some ⟨setting, some value⟩ => { r with pending := none }.assign setting value

def raise (r : Reading) (flag : Flag) : Except Halt Reading := do
  let r ← r.settle
  let r ← r.mark (.flag flag)
  match flag with
  | .oneShot => return { r with options := { r.options with oneShot := true } }
  | .traceMessages => return { r with options := { r.options with traceMessages := true } }
  | .help => throw .helpWanted
  | .version => throw .versionWanted

def readLong (r : Reading) (name : String) (value : Option String) : Except Halt Reading :=
  match Key.ofName? name, value with
  -- what is unknown is complained about before the pending setting is judged
  | none, _ => .error (.unknownArgument name)
  | some (.flag flag), none => r.raise flag
  | some (.flag flag), some value => .error (.unwantedValue flag value)
  | some (.setting setting), some value => r.settle.bind (·.assign setting value)
  | some (.setting setting), none =>
    r.settle.map fun r => { r with pending := some ⟨setting, none⟩ }

def readShort (r : Reading) (letter : Char) : Except Halt Reading :=
  match Flag.ofLetter? letter with
  | some flag => r.raise flag
  | none => .error (.unknownArgument (String.ofList ['-', letter]))

/-- What is no option is the value of the setting before it, if that has none yet. -/
def readPlain (r : Reading) (text : String) : Except Halt Reading :=
  match r.pending with
  | some ⟨setting, none⟩ => .ok { r with pending := some ⟨setting, some text⟩ }
  | _ => .error (.unknownArgument text)

def step (r : Reading) (text : String) : Except Halt Reading :=
  if r.optionsOver then .error (.unknownArgument text)
  else
    match Argument.ofString text with
    | .doubleDash => .ok { r with optionsOver := true }
    | .long name value => r.readLong name value
    | .short letter => r.readShort letter
    | .plain text => r.readPlain text

end Reading

def Options.ofArguments (arguments : List String) : Except Halt Options :=
  (arguments.foldlM Reading.step .initial).bind fun r => r.settle.map (·.options)

end DebugBridge.CommandLine
