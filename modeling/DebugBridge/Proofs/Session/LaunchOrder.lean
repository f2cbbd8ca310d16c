import DebugBridge.Proofs.Session.Forwarding
import DebugBridge.Proofs.Session.Stops

/-! Breakpoints that are set before a launch, and after it while it waits for the end of the configuration.

A launch decides how the paths of the client are translated from then on. Breakpoints that are there already stay
under the names that they were given, so it matters which comes first unless both ways name the files alike. -/

set_option autoImplicit false

namespace DebugBridge.Session

open Protocol Source
open Breakpoint (Table Wanted)

variable {ω : Type}

structure Setting where
  request : Request
  path : String
  wanted : List Wanted

structure Setting.Asked (message : Json) (setting : Setting) : Prop where
  read : Request.ofJson message = .ok setting.request
  kind : setting.request.kind = "request"
  verb : verb? setting.request = some .setBreakpoints
  wanted : wanted? setting.request = some (setting.path, setting.wanted)

structure Launches (message : Json) (request : Request) (arguments : LaunchArguments) : Prop where
  read : Request.ofJson message = .ok request
  kind : request.kind = "request"
  verb : verb? request = some .launch
  conforms : request.argumentsAs LaunchArguments.schema LaunchArguments.ofConformed = .ok arguments

def setAll (resolver : Resolver) (table : Table) (settings : List Setting) : Table :=
  settings.foldl (fun table setting => (table.replace (resolver.toEngine setting.path) setting.wanted).2) table

/-- The answers to requests for breakpoints. The names of the files have no part in them. -/
def answersTo (seq id : Nat) : List Setting → List Happening
  | [] => []
  | setting :: rest =>
    .emitted (.response seq setting.request (.success (.breakpoints (Table.number id setting.wanted)))) ::
      answersTo (seq + 1) (id + setting.wanted.length) rest

theorem setAll_agree {resolver other : Resolver} {settings : List Setting}
    (agree : ∀ setting ∈ settings, resolver.toEngine setting.path = other.toEngine setting.path) (table : Table) :
    setAll resolver table settings = setAll other table settings := by
  induction settings generalizing table with
  | nil => rfl
  | cons setting rest ih =>
    obtain ⟨first, later⟩ := List.forall_mem_cons.mp agree
    rw [setAll, List.foldl_cons, first]
    exact ih later _

namespace Machine

structure Unlaunched (m : Machine ω) : Prop where
  going : m.ended = false
  rest : m.inbox = []
  idle : m.state.phase = .idle
  unconnected : m.state.connected = false
  pending : m.state.pendingLaunch = none
  unconfigured : m.state.configured = false
  untraced : m.state.tracing = false

def withSettings (m : Machine ω) (settings : List Setting) : Machine ω :=
  { m with
    state := { m.state with breakpoints := setAll m.state.resolver m.state.breakpoints settings }
    nextSeq := m.nextSeq + settings.length
    transcript := m.transcript ++ answersTo m.nextSeq m.state.breakpoints.nextId settings }

def withLaunch (m : Machine ω) (resolver : Resolver) (launch : PendingLaunch) : Machine ω :=
  { m with state := { m.state with
    resolver := resolver, tracing := m.state.tracing || launch.arguments.trace, pendingLaunch := some launch } }

theorem unlaunched_initial (host : Host ω) (world : ω) : Unlaunched (initial host world) :=
  ⟨rfl, rfl, rfl, rfl, rfl, rfl, rfl⟩

/-- How two ways to run a session compare of which one has a launch after requests for breakpoints and the other before
them. They come to the same just if the tables do, and so if all paths are translated alike. -/
structure Interchange (play : Machine ω → List Action → Machine ω) (Same : Machine ω → Machine ω → Prop)
    (m : Machine ω) (early : List Json) (launch : Json) (settings : List Setting) (resolver : Resolver) : Prop where
  last : (play m (askAll (early ++ [launch]))).state.breakpoints =
    setAll m.state.resolver m.state.breakpoints settings
  first : (play m (askAll (launch :: early))).state.breakpoints = setAll resolver m.state.breakpoints settings
  same : Same (play m (askAll (early ++ [launch]))) (play m (askAll (launch :: early))) ↔
    (play m (askAll (early ++ [launch]))).state.breakpoints = (play m (askAll (launch :: early))).state.breakpoints
  onward : (∀ setting ∈ settings, m.state.resolver.toEngine setting.path = resolver.toEngine setting.path) →
    ∀ late rest, Same (play m (askAll (early ++ launch :: late) ++ rest))
      (play m (askAll (launch :: (early ++ late)) ++ rest))

section

variable (host : Host ω) {m n : Machine ω}

/-! ## One request -/

theorem log_untraced (untraced : m.state.tracing = false) (level : Log.Level) (target message : String) :
    m.log level target message = m := by
  rw [log, Log.forwarded, untraced]
  exact congrArg (fun inbox => { m with inbox := inbox }) (List.append_nil _)

/-- Without a connection, breakpoints are put into the table and answered. -/
theorem setBreakpoints_setting {message : Json} {setting : Setting} (asked : setting.Asked message)
    (unconnected : m.state.connected = false) :
    m.setBreakpoints host setting.request = m.withSettings [setting] := by
  have wants := asked.wanted
  rw [wanted?] at wants
  rw [setBreakpoints]
  cases conforms : setting.request.argumentsAs SetBreakpointsArguments.schema SetBreakpointsArguments.ofConformed with
  | error fault =>
    rw [conforms] at wants
    cases wants
  | ok arguments =>
    rw [conforms] at wants
    obtain ⟨path, named, same⟩ := Option.map_eq_some_iff.mp wants
    obtain ⟨rfl, wanted⟩ := Prod.mk.inj same
    have closed : ¬ m.state.connected = true := Bool.eq_false_iff.mp unconnected
    dsimp only
    rw [named]
    dsimp only
    rw [wanted, if_neg closed]
    rfl

theorem handleRequest_setting {message : Json} {setting : Setting} (asked : setting.Asked message) :
    m.handleRequest host setting.request = (m.log .debug "dap" ("request #" ++
      Text.Decimal.showInt64 setting.request.seq ++ " " ++ setting.request.command)).setBreakpoints host
        setting.request := by
  have verb : Verb.ofCommand? setting.request.command = some .setBreakpoints := asked.verb
  rw [handleRequest, verb]

/-- A launch waits for the end of the configuration. From here on it is traced, if it asks for that. -/
theorem launch_waiting {message : Json} {request : Request} {arguments : LaunchArguments} {folder : String}
    (launches : Launches message request arguments) (unlaunched : Unlaunched m)
    (found : m.workspace host arguments = .ok folder) :
    m.launch host request = (m.withLaunch (.new folder arguments.rootDir) ⟨request, arguments⟩).log .info "dap"
      (request.command ++ " " ++ Engine.target arguments.address arguments.port) := by
  have free : ¬ (m.state.phase ≠ .idle ∨ m.state.pendingLaunch.isSome = true) := by
    rw [unlaunched.idle, unlaunched.pending]
    simp
  rw [launch, if_neg free, launches.conforms]
  dsimp only
  rw [found]
  exact if_neg (by rw [log, unlaunched.unconfigured]; exact Bool.false_ne_true)

theorem handleRequest_launch {message : Json} {request : Request} {arguments : LaunchArguments}
    (launches : Launches message request arguments) :
    m.handleRequest host request = (m.log .debug "dap" ("request #" ++
      Text.Decimal.showInt64 request.seq ++ " " ++ request.command)).launch host request := by
  have verb : Verb.ofCommand? request.command = some .launch := launches.verb
  rw [handleRequest, verb]

/-! ## Without a trace -/

theorem run_settings {messages : List Json} {settings : List Setting}
    (asked : List.Forall₂ Setting.Asked messages settings) (going : m.ended = false) (rest : m.inbox = [])
    (unconnected : m.state.connected = false) (untraced : m.state.tracing = false) :
    m.run host (askAll messages) = m.withSettings settings := by
  induction asked generalizing m with
  | nil => exact (congrArg (fun transcript => { m with transcript := transcript }) (List.append_nil _)).symm
  | @cons message setting messages settings first _ ih =>
    have divided : askAll (message :: messages) = askAll [message] ++ askAll messages := rfl
    rw [divided, run_append, run_asking host going rest first.read first.kind, handleRequest_setting host first,
      log_untraced untraced, setBreakpoints_setting host first unconnected,
      ih (m := m.withSettings [setting]) going rest unconnected untraced]
    simp only [withSettings, List.length_cons, List.length_nil, Nat.zero_add, Nat.add_assoc, Nat.add_comm 1,
      List.append_assoc]
    rfl

theorem run_launch {message : Json} {request : Request} {arguments : LaunchArguments} {folder : String}
    (launches : Launches message request arguments) (unlaunched : Unlaunched m)
    (found : m.workspace host arguments = .ok folder) (untraced : arguments.trace = false) :
    m.run host (askAll [message]) = m.withLaunch (.new folder arguments.rootDir) ⟨request, arguments⟩ := by
  rw [run_asking host unlaunched.going unlaunched.rest launches.read launches.kind,
    handleRequest_launch host launches, log_untraced unlaunched.untraced, launch_waiting host launches unlaunched found]
  exact log_untraced (by rw [withLaunch, unlaunched.untraced, untraced]; rfl) _ _ _

/-! ## With a trace -/

theorem runDealing_settings {messages : List Json} {settings : List Setting}
    (asked : List.Forall₂ Setting.Asked messages settings) (alike : Alike m n) (going : m.ended = false)
    (rest : m.inbox = []) (unconnected : m.state.connected = false) :
    Alike (m.withSettings settings) (n.runDealing host (askAll messages)) := by
  induction asked generalizing m n with
  | nil =>
    have unset : m.withSettings [] = m :=
      congrArg (fun transcript => { m with transcript := transcript }) (List.append_nil _)
    rw [unset]
    exact alike
  | @cons message setting messages settings first _ ih =>
    have divided : askAll (message :: messages) = askAll [message] ++ askAll messages := rfl
    have whole : m.withSettings (setting :: settings) = (m.withSettings [setting]).withSettings settings := by
      simp only [withSettings, List.length_cons, List.length_nil, Nat.zero_add, Nat.add_assoc, Nat.add_comm 1,
        List.append_assoc]
      rfl
    have one : Alike (m.withSettings [setting]) (m.runDealing host (askAll [message])) := by
      rw [runDealing_asking host going rest first.read first.kind, handleRequest_setting host first,
        ← setBreakpoints_setting host first unconnected]
      exact (log_alike m _ _ _).setBreakpoints host _
    rw [divided, runDealing_append, whole]
    exact ih (one.trans (runDealing_alike host alike _)) going rest unconnected

theorem runDealing_launch {message : Json} {request : Request} {arguments : LaunchArguments} {folder : String}
    (launches : Launches message request arguments) (alike : Alike m n) (unlaunched : Unlaunched m)
    (found : m.workspace host arguments = .ok folder) :
    Alike (m.withLaunch (.new folder arguments.rootDir) ⟨request, arguments⟩)
      (n.runDealing host (askAll [message])) := by
  refine Alike.trans ?_ (runDealing_alike host alike _)
  rw [runDealing_asking host unlaunched.going unlaunched.rest launches.read launches.kind,
    handleRequest_launch host launches]
  have waiting := log_alike (m.withLaunch (.new folder arguments.rootDir) ⟨request, arguments⟩) .info "dap"
    (request.command ++ " " ++ Engine.target arguments.address arguments.port)
  rw [← launch_waiting host launches unlaunched found] at waiting
  exact waiting.trans ((log_alike m _ _ _).launch host request)

/-! ## Both orders -/

variable {early : List Json} {settings : List Setting} {launch : Json} {request : Request}
  {arguments : LaunchArguments} {folder : String}

/-- Apart from the tables both orders leave the same, the answers included. -/
theorem interchange_of {play : Machine ω → List Action → Machine ω} {Same : Machine ω → Machine ω → Prop}
    {resolver : Resolver} (waiting : PendingLaunch) (equivalence : Equivalence Same)
    (states : ∀ {n n' : Machine ω}, Same n n' → n'.state = n.state)
    (append : ∀ n first second, play n (first ++ second) = play (play n first) second)
    (congruent : ∀ {n n' : Machine ω} (actions : List Action), Same n n' → Same (play n actions) (play n' actions))
    (lastly : Same ((m.withSettings settings).withLaunch resolver waiting) (play m (askAll (early ++ [launch]))))
    (firstly : Same ((m.withLaunch resolver waiting).withSettings settings) (play m (askAll (launch :: early)))) :
    Interchange play Same m early launch settings resolver := by
  have last : (play m (askAll (early ++ [launch]))).state.breakpoints =
      setAll m.state.resolver m.state.breakpoints settings := congrArg State.breakpoints (states lastly)
  have first : (play m (askAll (launch :: early))).state.breakpoints =
      setAll resolver m.state.breakpoints settings := congrArg State.breakpoints (states firstly)
  -- the two orders leave the same but for the table
  have same (tables : (play m (askAll (early ++ [launch]))).state.breakpoints =
      (play m (askAll (launch :: early))).state.breakpoints) :
      Same (play m (askAll (early ++ [launch]))) (play m (askAll (launch :: early))) := by
    rw [last, first] at tables
    have alike : (m.withSettings settings).withLaunch resolver waiting =
        (m.withLaunch resolver waiting).withSettings settings :=
      congrArg (fun table => { (m.withSettings settings).withLaunch resolver waiting with
        state := { ((m.withSettings settings).withLaunch resolver waiting).state with breakpoints := table } }) tables
    exact equivalence.trans (equivalence.symm lastly) (alike ▸ firstly)
  refine ⟨last, first, ⟨fun same => (congrArg State.breakpoints (states same)).symm, same⟩, fun agree late rest => ?_⟩
  have tables := setAll_agree agree m.state.breakpoints
  rw [← last, ← first] at tables
  have divided (earlier : List Json) :
      play m (askAll (earlier ++ late) ++ rest) = play (play m (askAll earlier)) (askAll late ++ rest) := by
    rw [askAll_append, List.append_assoc]
    exact append m _ _
  rw [List.append_cons, divided, ← List.cons_append, divided]
  exact congruent _ (same tables)

/-- The order of a launch and of requests for breakpoints before it matters only by the names of the files. With a
trace this is so up to the log lines that are forwarded. -/
theorem launch_order (unlaunched : Unlaunched m) (asked : List.Forall₂ Setting.Asked early settings)
    (launches : Launches launch request arguments) (found : m.workspace host arguments = .ok folder) :
    Interchange (runDealing host) Alike m early launch settings (.new folder arguments.rootDir) ∧
      (arguments.trace = false →
        Interchange (run host) Eq m early launch settings (.new folder arguments.rootDir)) := by
  have settled : Unlaunched (m.withSettings settings) :=
    ⟨unlaunched.going, unlaunched.rest, unlaunched.idle, unlaunched.unconnected, unlaunched.pending,
      unlaunched.unconfigured, unlaunched.untraced⟩
  have divided : askAll (launch :: early) = askAll [launch] ++ askAll early := rfl
  constructor
  · refine interchange_of ⟨request, arguments⟩ ⟨alike_refl, Alike.symm, Alike.trans⟩ Alike.state
      (runDealing_append host) (fun actions alike => runDealing_alike host alike actions) ?_ ?_
    · rw [askAll_append, runDealing_append]
      exact runDealing_launch host launches (runDealing_settings host asked (alike_refl m) unlaunched.going
        unlaunched.rest unlaunched.unconnected) settled found
    · rw [divided, runDealing_append]
      exact runDealing_settings host asked (runDealing_launch host launches (alike_refl m) unlaunched found)
        unlaunched.going unlaunched.rest unlaunched.unconnected
  · intro untraced
    refine interchange_of ⟨request, arguments⟩ ⟨Eq.refl, Eq.symm, Eq.trans⟩
      (fun same => congrArg state same.symm) (run_append host) (fun _ same => same ▸ rfl) ?_ ?_
    · rw [askAll_append, run_append, run_settings host asked unlaunched.going unlaunched.rest unlaunched.unconnected
        unlaunched.untraced, run_launch host launches settled found untraced]
    · have launched : (m.withLaunch (.new folder arguments.rootDir) ⟨request, arguments⟩).state.tracing = false := by
        rw [withLaunch, unlaunched.untraced, untraced]
        rfl
      rw [divided, run_append, run_launch host launches unlaunched found untraced]
      exact (run_settings (m := m.withLaunch _ _) host asked unlaunched.going unlaunched.rest unlaunched.unconnected
        launched).symm

end

/-- Without a root directory, and with the workspace where the session was started, the paths that were named
before the launch are the same after it, whether it is traced or not. -/
theorem launch_order_alike :
    let host := Surroundings.host "/ws" 1000
    let named : Resolver := .new "/ws" none
    let m := initial host openWorld
    let traced := requestFor "launch" (.object [("port", .integer 2000), ("cwd", .string "/ws"),
      ("rootDir", .string ""), ("trace", .boolean true)])
    named.toEngine "/ws/game/a.cs" = (Resolver.new "/ws" (some "")).toEngine "/ws/game/a.cs" ∧
      (∀ late rest, m.run host (askAll ([breakpointIn "/ws/game/a.cs"] ++ launchIn "/ws" "" :: late) ++ rest) =
        m.run host (askAll (launchIn "/ws" "" :: ([breakpointIn "/ws/game/a.cs"] ++ late)) ++ rest)) ∧
      ∀ late rest, Alike (m.runDealing host (askAll ([breakpointIn "/ws/game/a.cs"] ++ traced :: late) ++ rest))
        (m.runDealing host (askAll (traced :: ([breakpointIn "/ws/game/a.cs"] ++ late)) ++ rest)) := by
  intro host named m traced
  have agree : named.toEngine "/ws/game/a.cs" = (Resolver.new "/ws" (some "")).toEngine "/ws/game/a.cs" := by
    decide +kernel
  have asked : Setting.Asked (breakpointIn "/ws/game/a.cs")
      ⟨⟨1, "request", "setBreakpoints", _⟩, "/ws/game/a.cs", [⟨3, none, none⟩]⟩ :=
    ⟨rfl, rfl, rfl, rfl⟩
  have only (request : Request) : ∀ setting ∈ [Setting.mk request "/ws/game/a.cs" [⟨3, none, none⟩]],
      named.toEngine setting.path = (Resolver.new "/ws" (some "")).toEngine setting.path :=
    List.forall_mem_singleton.mpr agree
  have unlaunched := unlaunched_initial host openWorld
  have plainly : Launches (launchIn "/ws" "") ⟨1, "request", "launch", _⟩
      ⟨"127.0.0.1", 2000, "", some "", false, some "/ws"⟩ :=
    ⟨rfl, rfl, rfl, rfl⟩
  have launches : Launches traced ⟨1, "request", "launch", _⟩ ⟨"127.0.0.1", 2000, "", some "", true, some "/ws"⟩ :=
    ⟨rfl, rfl, rfl, rfl⟩
  have found (trace : Bool) : m.workspace host ⟨"127.0.0.1", 2000, "", some "", trace, some "/ws"⟩ = .ok "/ws" := rfl
  exact ⟨agree, ((launch_order host unlaunched (.cons asked .nil) plainly (found false)).2 rfl).onward (only _),
    (launch_order host unlaunched (.cons asked .nil) launches (found true)).1.onward (only _)⟩

/-- A breakpoint in a file below the root directory, set before and after the launch that names the directory. The
engine then stops there. -/
theorem launch_order_apart :
    let host := Surroundings.host "/home" 1000
    let played (messages : List Json) := (initial host openWorld).run host
      (askAll (messages ++ [requestFor "configurationDone" .null]) ++
        [.engine ⟨[Text.Utf8.encode "BREAK a.cs 3 main\r\n"], .silent⟩, .handle])
    let last := played [breakpointIn "/ws/game/a.cs", launchIn "/ws" "game"]
    let first := played [launchIn "/ws" "game", breakpointIn "/ws/game/a.cs"]
    last.sent.map Engine.Command.line = ["BRKSET /ws/game/a.cs 3 false 0 true", "CONTINUE"] ∧
      first.sent.map Engine.Command.line = ["BRKSET a.cs 3 false 0 true", "CONTINUE"] ∧
      last.emitted.filterMap Message.stop? = [.step] ∧
      first.emitted.filterMap Message.stop? = [.breakpoint 0] := by
  decide +kernel

end Machine

end DebugBridge.Session
