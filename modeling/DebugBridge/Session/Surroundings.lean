import DebugBridge.Engine.Simulated
import DebugBridge.Session.Run

/-! Surroundings of a session that are values themselves: a tree of files, and a simulated engine on this
machine or no network at all. -/

set_option autoImplicit false

namespace DebugBridge.Session

structure Surroundings where
  files : Source.Files
  engine : Option Engine.Simulated

namespace Surroundings

/-- Without an engine there is no network either. With one, only this machine can be reached. -/
def dial (world : Surroundings) (address : String) (port : UInt16) :
    Except Engine.ConnectFault String × Surroundings :=
  match Engine.HostAddress.resolve? address, world.engine with
  | none, _ => (.error (.unresolved address port), world)
  | some _, none => (.error (.unreachable address port .unreachable), world)
  | some host, some engine =>
    if host ≠ .loopback then (.error (.unreachable address port .unreachable), world)
    else if port ≠ engine.port then (.error (.unreachable address port .refused), world)
    else (.ok (Engine.target "127.0.0.1" port), { world with engine := some engine.accept })

def withEngine (world : Surroundings) (act : Engine.Simulated → Engine.Incoming × Engine.Simulated) :
    Engine.Incoming × Surroundings :=
  match world.engine with
  | none => (.nothing, world)
  | some engine =>
    let (incoming, engine) := act engine
    (incoming, { world with engine := some engine })

def host (workingFolder : String) (connectTimeout : Nat) : Host Surroundings :=
  { dial := dial
    tell := fun world text =>
      let (incoming, world) := world.withEngine (·.tell text)
      (.ok incoming, world)
    startReader := fun world => (.ok (), world)
    linger := fun world => world.withEngine (·.linger)
    read := fun world path => world.files.read path
    workingFolder := fun _ => .ok workingFolder
    connectTimeout := connectTimeout }

end Surroundings

end DebugBridge.Session
