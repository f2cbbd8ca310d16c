import DebugBridge.CommandLine.Program

/-! The program. This module only moves octets: what they mean is decided elsewhere. -/

set_option autoImplicit false

namespace DebugBridge

open CommandLine Session

/-- Wait for what does not come: a client where there is no network, or the word that a client is gone. -/
partial def waitOn : IO UInt32 := do
  IO.sleep 60000
  waitOn

/-- Hand octets to the session as they arrive, until their end or the end of the session. -/
partial def pump (host : Host Surroundings) (input output : IO.FS.Stream) (log : Option IO.FS.Handle)
    (traffic : Bool) (service : Service) : IO UInt32 := do
  let octets ← input.read 65536
  let atEnd := octets.isEmpty
  let (exchange, service) := if atEnd then service.close host else service.feed host octets.toList
  output.putStr exchange.output
  output.flush
  if let some file := log then
    file.putStr (exchange.record ⟨traffic, []⟩).text
    file.flush
  if service.machine.ended then return 0
  if atEnd then waitOn else
  pump host input output log traffic service

def openLogFile (path : String) : IO (Except StartFault IO.FS.Handle) := do
  try
    return .ok (← IO.FS.Handle.mk path .append)
  catch fault =>
    return .error (.logFile path fault.toString)

def serveClient (options : Options) (log : Option IO.FS.Handle) : IO UInt32 := do
  match options.offer with
  | .error fault =>
    IO.eprint fault.text
    return 1
  | .ok (.listener _) => waitOn
  | .ok .streams =>
    let host := Surroundings.host (← IO.currentDir).toString options.connectTimeout.toNat
    let world : Surroundings := ⟨⟨[], [], []⟩, none⟩
    pump host (← IO.getStdin) (← IO.getStdout) log options.traceMessages (.initial host world)

end DebugBridge

open DebugBridge CommandLine in
def main (arguments : List String) : IO UInt32 := do
  match Options.ofArguments arguments with
  | .error halt =>
    if halt.exitCode = 0 then IO.print halt.text else IO.eprint halt.text
    return UInt32.ofNat halt.exitCode
  | .ok options =>
    match options.logFile with
    | none => serveClient options none
    | some path =>
      match ← openLogFile path with
      | .ok log => serveClient options (some log)
      | .error fault =>
        IO.eprint fault.text
        return 1
