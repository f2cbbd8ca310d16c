import DebugBridge.CommandLine.Options
import DebugBridge.CommandLine.Service

/-! What the program does, from its arguments to its exit code. -/

set_option autoImplicit false

namespace DebugBridge.CommandLine

open Protocol Session

def versionText : String := "torque-dap 0.1.0\n"

def helpText : String :=
  "Debug Adapter Protocol server for the TorqueScript engine\n\n" ++
  "Usage: torque-dap [OPTIONS]\n\nOptions:\n" ++
  "      --listen <ADDRESS>         Serve clients at this address instead of the standard streams\n" ++
  "      --oneshot                  End after the first client\n" ++
  "      --log-file <PATH>          Write diagnostics to this file\n" ++
  "      --trace-dap                Record the messages of the client in the log file\n" ++
  "      --eval-timeout-ms <N>      Time for the answer to one evaluation [default: 2000]\n" ++
  "      --connect-timeout-ms <N>   Time to connect to the engine [default: 5000]\n" ++
  "  -h, --help                     Print help\n" ++
  "  -V, --version                  Print version\n"

def Halt.text : Halt → String
  | .helpWanted => helpText
  | .versionWanted => versionText
  | .unknownArgument argument => "error: unexpected argument '" ++ argument ++ "' found\n"
  | .missingValue setting => "error: a value is required for '" ++ setting.name ++ "' but none was supplied\n"
  | .unwantedValue flag value => "error: unexpected value '" ++ value ++ "' for '" ++ flag.name ++ "' found\n"
  | .givenTwice name => "error: the argument '" ++ name ++ "' cannot be used multiple times\n"
  | .badValue setting value => "error: invalid value '" ++ value ++ "' for '" ++ setting.name ++ "'\n"

def Halt.exitCode : Halt → Nat
  | .helpWanted | .versionWanted => 0
  | _ => 2

inductive StartFault where
  | logFile (path reason : String)
  | badListenAddress
  | notListening (endpoint : Engine.Endpoint) (fault : Engine.NetworkFault)
  deriving DecidableEq, Repr

def failure (what cause : String) : String := "Error: " ++ what ++ "\n\nCaused by:\n    " ++ cause ++ "\n"

def StartFault.text : StartFault → String
  | .logFile path reason => failure ("open log file " ++ path) reason
  | .badListenAddress => failure "Invalid listen address" "invalid socket address syntax"
  | .notListening endpoint fault => failure ("bind " ++ endpoint.text) fault.message

inductive Offer where
  | streams
  | listener (endpoint : Engine.Endpoint)
  deriving DecidableEq, Repr

def Options.offer (options : Options) : Except StartFault Offer :=
  match options.listen with
  | none => .ok .streams
  | some text =>
    match Engine.Endpoint.ofString? text with
    | some endpoint =>
      if endpoint.isReserved then .error (.notListening endpoint .notPermitted) else .ok (.listener endpoint)
    | none => .error .badListenAddress

structure OpenLog where
  names : List String
  traffic : Bool
  deriving DecidableEq, Repr

def Options.openLog (options : Options) (files : Source.Files) :
    Except StartFault (Option OpenLog × Source.Files) :=
  match options.logFile with
  | none => .ok (none, files)
  | some path =>
    match files.openAtEnd path with
    | .ok (names, files) => .ok (some ⟨names, options.traceMessages⟩, files)
    | .error fault => .error (.logFile path fault.message)

inductive Ending where
  | halted (cause : Halt)
  | failed (fault : StartFault)
  | served
  /-- It goes on waiting, for a client or for the word that the client is gone. -/
  | waiting
  deriving DecidableEq, Repr

structure Outcome where
  ending : Ending
  output : String
  files : Source.Files

def serveStreams (options : Options) (log : Option OpenLog) (files : Source.Files) (workingFolder : String)
    (input : List UInt8) : Outcome :=
  let host := Surroundings.host workingFolder options.connectTimeout.toNat
  let (exchange, session) := Service.serve host ⟨files, none⟩ input
  let files := match log with
    | none => files
    | some log => files.append log.names (Text.Utf8.encode (exchange.record ⟨log.traffic, []⟩).text)
  ⟨if session.ended then .served else .waiting, exchange.output, files⟩

/-- A run on a machine without a network, where any address can be listened at and no client comes. -/
def run (arguments : List String) (files : Source.Files) (workingFolder : String) (input : List UInt8) :
    Outcome :=
  match Options.ofArguments arguments with
  | .error halt => ⟨.halted halt, if halt.exitCode = 0 then halt.text else "", files⟩
  | .ok options =>
    match options.openLog files with
    | .error fault => ⟨.failed fault, "", files⟩
    | .ok (log, files) =>
      match options.offer with
      | .error fault => ⟨.failed fault, "", files⟩
      | .ok (.listener _) => ⟨.waiting, "", files⟩
      | .ok .streams => serveStreams options log files workingFolder input

end DebugBridge.CommandLine
