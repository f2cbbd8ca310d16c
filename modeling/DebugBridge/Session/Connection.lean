import DebugBridge.Session.Machine

/-! Launching: connecting to the engine once the client has finished its configuration. -/

set_option autoImplicit false

namespace DebugBridge.Session.Machine

open Protocol

variable {ω : Type}

def logIgnored (m : Machine ω) (line : String) : Machine ω :=
  (m.logWarnings line).log .debug "remote" ("ignored during handshake: " ++ line)

/-- The connection is read. What the engine sent after its answer to the password counts as events, and then it
is told every breakpoint set so far. -/
def connected (host : Host ω) (m : Machine ω) (buffer : Engine.LineBuffer) (later : Engine.Incoming) :
    Machine ω :=
  let m := { m with
    state := { m.state with phase := .running, connected := true }
    reader := some buffer }
  -- the reader first takes up the lines left over from the handshake
  let m := (m.receiveChunk []).receive later
  m.state.breakpoints.replay.foldl (fun m command => m.sendAnyway host command) m

def authenticated (host : Host ω) (m : Machine ω) (token : String) (buffer : Engine.LineBuffer)
    (later : Engine.Incoming) : Except Engine.ConnectFault Unit × Machine ω :=
  let m := m.log .debug "remote" ("authenticated: " ++ token)
  match host.startReader m.world with
  | (.ok (), world) => (.ok (), { m with world := world }.connected host buffer later)
  | (.error (.notShared reason), world) => (.error (.failed reason), { m with world := world })
  | (.error (.notStarted reason), world) =>
    (.error (.failed reason), { m with state := { m.state with connected := true }, world := world })

def connect (host : Host ω) (m : Machine ω) (arguments : LaunchArguments) :
    Except Engine.ConnectFault Unit × Machine ω :=
  match host.dial m.world arguments.address arguments.port with
  | (.error fault, world) => (.error fault, { m with world := world })
  | (.ok address, world) =>
    let m := ({ m with world := world }.log .info "remote" ("connected to " ++ address)).record
      (.greeted arguments.password)
    match host.tell m.world (arguments.password ++ "\n") with
    | (.error reason, world) => (.error (.failed reason), { m with world := world })
    | (.ok incoming, world) =>
      let (ignored, outcome) := Engine.Handshake.run .empty incoming.chunks incoming.ending
      let m := ignored.foldl logIgnored { m with world := world }
      match outcome with
      | .accepted token buffer later => m.authenticated host token buffer ⟨later, incoming.ending⟩
      | .wrongPassword => (.error .wrongPassword, m)
      | .ended ending => (.error (.ofStreamEnd host.connectTimeout ending), m)

/-- Carry out the pending launch, if there is one. Afterwards the engine is released, in case it waits at a
stop. After a failure another launch may follow. -/
def startLaunch (host : Host ω) (m : Machine ω) : Machine ω :=
  match m.state.pendingLaunch with
  | none => m
  | some launch =>
    -- whatever comes of it, this launch is no longer pending
    let m := { m with state := { m.state with pendingLaunch := none } }
    match m.connect host launch.arguments with
    | (.ok (), m) => (m.succeed launch.request .nothing).sendAnyway host .resume
    | (.error fault, m) =>
      let m := m.log .warn "dap" (launch.request.command ++ " failed: " ++ fault.message)
      let m := { m with state := { m.state with phase := .idle, tracing := false } }
      m.refuse launch.request (.notConnected fault)

def workspace (host : Host ω) (m : Machine ω) (arguments : LaunchArguments) : Except String String :=
  match arguments.cwd with
  | some folder => .ok folder
  | none => host.workingFolder m.world

def launch (host : Host ω) (m : Machine ω) (request : Request) : Machine ω :=
  if m.state.phase ≠ .idle ∨ m.state.pendingLaunch.isSome then
    m.refuse request (.alreadyStarted request.command)
  else
    match request.argumentsAs LaunchArguments.schema LaunchArguments.ofConformed with
    | .error fault => m.refuse request (.invalidArguments request.command fault)
    | .ok arguments =>
      match m.workspace host arguments with
      | .error reason => m.refuse request (.noWorkingFolder reason)
      | .ok workspace =>
        -- paths are translated this way from now on, even if the connection fails later
        let m := { m with state := { m.state with
          resolver := .new workspace arguments.rootDir
          tracing := m.state.tracing || arguments.trace } }
        let m := m.log .info "dap"
          (request.command ++ " " ++ Engine.target arguments.address arguments.port)
        let m := { m with state := { m.state with pendingLaunch := some ⟨request, arguments⟩ } }
        if m.state.configured then m.startLaunch host else m

/-- The client did not finish its configuration in time, so the launch no longer waits for it. The time is in
nanoseconds. -/
def startOverdue (host : Host ω) (m : Machine ω) (waited : Nat) : Machine ω :=
  (m.log .debug "dap" ("no configurationDone after " ++ Text.showNanoseconds waited ++
    ", connecting anyway")).startLaunch host

def configurationDone (host : Host ω) (m : Machine ω) (request : Request) : Machine ω :=
  let m := { m with state := { m.state with configured := true } }
  (m.succeed request .nothing).startLaunch host

end DebugBridge.Session.Machine
