import DebugBridge.Session.Run

/-! Sessions that are alike but for the log lines forwarded to their clients.

Forwarded lines take a place in the inbox and, once told, a number each. Neither decides anything: whatever is done to
two sessions that are alike, they stay alike. -/

set_option autoImplicit false

namespace DebugBridge.Session

open Protocol

def Item.isForwarded : Item → Bool
  | .logLine _ => true
  | _ => false

/-- A message without its number; nothing of one that forwards a log line. -/
def Message.unnumbered? : Message → Option Message
  | .response _ request outcome => some (.response 0 request outcome)
  | .event _ (.output .console _) => none
  | .event _ notice => some (.event 0 notice)

def Happening.unnumbered? : Happening → Option Happening
  | .emitted message => message.unnumbered?.map .emitted
  | other => some other

namespace Machine

variable {ω : Type}

/-- The same but for log lines that are forwarded, and for the numbers of messages. -/
structure Alike (m m' : Machine ω) : Prop where
  state : m'.state = m.state
  reader : m'.reader = m.reader
  world : m'.world = m.world
  ended : m'.ended = m.ended
  inbox : m'.inbox.filter (! ·.isForwarded) = m.inbox.filter (! ·.isForwarded)
  transcript : m'.transcript.filterMap Happening.unnumbered? = m.transcript.filterMap Happening.unnumbered?

structure Agree {α : Type} (done done' : α × Machine ω) : Prop where
  result : done'.1 = done.1
  alike : Alike done.2 done'.2

section

variable {m m' n : Machine ω}

theorem alike_refl (m : Machine ω) : Alike m m := ⟨rfl, rfl, rfl, rfl, rfl, rfl⟩

theorem Alike.symm (alike : Alike m m') : Alike m' m :=
  ⟨alike.state.symm, alike.reader.symm, alike.world.symm, alike.ended.symm, alike.inbox.symm, alike.transcript.symm⟩

theorem Alike.trans (first : Alike m m') (second : Alike m' n) : Alike m n where
  state := second.state.trans first.state
  reader := second.reader.trans first.reader
  world := second.world.trans first.world
  ended := second.ended.trans first.ended
  inbox := second.inbox.trans first.inbox
  transcript := second.transcript.trans first.transcript

theorem Agree.parts {α : Type} {done done' : α × Machine ω} (agree : Agree done done') :
    ∃ result m m', done = (result, m) ∧ done' = (result, m') ∧ Alike m m' :=
  ⟨done.1, done.2, done'.2, rfl, Prod.ext agree.result rfl, agree.alike⟩

theorem Alike.foldl {α : Type} {f : Machine ω → α → Machine ω}
    (each : ∀ {m m' : Machine ω} (a : α), Alike m m' → Alike (f m a) (f m' a)) (alike : Alike m m') (items : List α) :
    Alike (items.foldl f m) (items.foldl f m') := by
  induction items generalizing m m' with
  | nil => exact alike
  | cons item rest ih => exact ih (each item alike)

/-! ## What is forwarded -/

theorem post_forwarded (m : Machine ω) (text : String) : Alike m (m.post (.logLine text)) :=
  ⟨rfl, rfl, rfl, rfl, by simp [post, Item.isForwarded], rfl⟩

theorem announce_forwarded (m : Machine ω) (text : String) : Alike m (m.announce (.output .console text)) :=
  ⟨rfl, rfl, rfl, rfl, rfl, by simp [announce, emit, record, Happening.unnumbered?, Message.unnumbered?]⟩

theorem log_alike (m : Machine ω) (level : Log.Level) (target message : String) :
    Alike m (m.log level target message) := by
  simp only [log, Log.forwarded]
  split
  · exact post_forwarded m _
  · exact ⟨rfl, rfl, rfl, rfl, by rw [List.map_nil, List.append_nil], rfl⟩

theorem foldl_alike {α : Type} {f : Machine ω → α → Machine ω} (each : ∀ m a, Alike m (f m a)) (m : Machine ω)
    (items : List α) : Alike m (items.foldl f m) := by
  induction items generalizing m with
  | nil => exact alike_refl m
  | cons item rest ih => exact (each m item).trans (ih (f m item))

theorem logWarnings_alike (m : Machine ω) (line : String) : Alike m (m.logWarnings line) := by
  unfold logWarnings
  exact foldl_alike (fun m _ => log_alike m _ _ _) m _

theorem logIgnored_alike (m : Machine ω) (line : String) : Alike m (m.logIgnored line) :=
  (logWarnings_alike m line).trans (log_alike _ _ _ _)

theorem Alike.logIgnored (alike : Alike m m') (line : String) : Alike (m.logIgnored line) (m'.logIgnored line) :=
  ((logIgnored_alike m line).symm.trans alike).trans (logIgnored_alike m' line)

theorem logFinding_alike (m : Machine ω) (path : String) (finding : Scope.Finding) :
    Alike m (m.logFinding path finding) := by
  cases finding with
  | known scopes => exact alike_refl m
  | parsed scopes | unreadable fault => exact log_alike m _ _ _
  | unparsable fault => exact (log_alike m _ _ _).trans (log_alike _ _ _ _)

theorem Alike.log (alike : Alike m m') (level : Log.Level) (target message : String) :
    Alike (m.log level target message) (m'.log level target message) :=
  ((log_alike m _ _ _).symm.trans alike).trans (log_alike m' _ _ _)

/-! ## What is done to both -/

theorem Alike.become (alike : Alike m m') {s s' : State} (same : s' = s) :
    Alike { m with state := s } { m' with state := s' } :=
  ⟨same, alike.reader, alike.world, alike.ended, alike.inbox, alike.transcript⟩

theorem Alike.adopt (alike : Alike m m') (s : State) : Alike { m with state := s } { m' with state := s } :=
  alike.become rfl

theorem Alike.update (alike : Alike m m') (f : State → State) :
    Alike { m with state := f m.state } { m' with state := f m'.state } := alike.become (congrArg f alike.state)

theorem Alike.read (alike : Alike m m') (reader : Option Engine.LineBuffer) :
    Alike { m with reader := reader } { m' with reader := reader } :=
  ⟨alike.state, rfl, alike.world, alike.ended, alike.inbox, alike.transcript⟩

theorem Alike.move (alike : Alike m m') (world : ω) : Alike { m with world := world } { m' with world := world } :=
  ⟨alike.state, alike.reader, rfl, alike.ended, alike.inbox, alike.transcript⟩

theorem Alike.finish (alike : Alike m m') : Alike { m with ended := true } { m' with ended := true } :=
  ⟨alike.state, alike.reader, alike.world, rfl, alike.inbox, alike.transcript⟩

theorem Alike.post (alike : Alike m m') (item : Item) : Alike (m.post item) (m'.post item) where
  state := alike.state
  reader := alike.reader
  world := alike.world
  ended := alike.ended
  inbox := by rw [Machine.post, Machine.post, List.filter_append, List.filter_append, alike.inbox]
  transcript := alike.transcript

theorem Alike.record (alike : Alike m m') (h : Happening) : Alike (m.record h) (m'.record h) where
  state := alike.state
  reader := alike.reader
  world := alike.world
  ended := alike.ended
  inbox := alike.inbox
  transcript := by rw [Machine.record, Machine.record, List.filterMap_append, List.filterMap_append, alike.transcript]

/-- A message may be numbered differently in both. -/
theorem Alike.emit (alike : Alike m m') {message : Nat → Message}
    (same : ∀ seq seq', (message seq').unnumbered? = (message seq).unnumbered?) :
    Alike (m.emit message) (m'.emit message) where
  state := alike.state
  reader := alike.reader
  world := alike.world
  ended := alike.ended
  inbox := alike.inbox
  transcript := by
    have told : [Happening.emitted (message m'.nextSeq)].filterMap Happening.unnumbered? =
        [Happening.emitted (message m.nextSeq)].filterMap Happening.unnumbered? := by
      simp only [List.filterMap_cons, Happening.unnumbered?, same m.nextSeq m'.nextSeq]
    simp only [Machine.emit, Machine.record, List.filterMap_append, alike.transcript, told]

theorem Alike.succeed (alike : Alike m m') (request : Request) (answer : Answer) :
    Alike (m.succeed request answer) (m'.succeed request answer) := alike.emit fun _ _ => rfl

theorem Alike.refuse (alike : Alike m m') (request : Request) (cause : Refusal) :
    Alike (m.refuse request cause) (m'.refuse request cause) := alike.emit fun _ _ => rfl

theorem Alike.announce (alike : Alike m m') (notice : Notice) : Alike (m.announce notice) (m'.announce notice) := by
  apply alike.emit
  intro seq seq'
  cases notice with
  | output category text => cases category <;> rfl
  | _ => rfl

/-! ## Listening -/

def hear (m : Machine ω) (line : String) : Machine ω :=
  ((m.record (.arrived line)).log .debug "remote" ("<- " ++ line)).logWarnings line

theorem Alike.hear (alike : Alike m m') (line : String) : Alike (m.hear line) (m'.hear line) :=
  ((logWarnings_alike _ line).symm.trans ((alike.record (.arrived line)).log _ _ _)).trans (logWarnings_alike _ line)

theorem Alike.receiveLine (alike : Alike m m') (line : String) : Alike (m.receiveLine line) (m'.receiveLine line) := by
  have heard := alike.hear line
  simp only [Machine.hear] at heard
  unfold Machine.receiveLine
  dsimp only
  generalize Machine.logWarnings _ line = n at heard ⊢
  generalize Machine.logWarnings _ line = n' at heard ⊢
  rw [heard.state]
  cases Engine.Event.decode line with
  | error fault => exact (heard.log _ _ _).post .lineConsumed
  | ok event =>
    cases event with
    | evaluated tag value =>
      dsimp only
      obtain ⟨resolved, correlator⟩ := n.state.correlator.resolve tag value
      cases resolved with
      | true => exact (heard.adopt _).post .lineConsumed
      | false => exact (heard.log _ _ _).post .lineConsumed
    | _ => exact heard.post _

theorem Alike.receiveChunk (alike : Alike m m') (chunk : List UInt8) :
    Alike (m.receiveChunk chunk) (m'.receiveChunk chunk) := by
  unfold Machine.receiveChunk
  rw [alike.reader]
  cases m.reader with
  | none => exact alike
  | some buffer => exact (alike.read _).foldl (fun line alike => alike.receiveLine line) _

theorem Alike.receiveEnd (alike : Alike m m') (ending : Engine.StreamEnd) :
    Alike (m.receiveEnd ending) (m'.receiveEnd ending) := by
  unfold Machine.receiveEnd
  rw [alike.reader]
  cases m.reader with
  | none => exact alike
  | some buffer =>
    cases ending with
    | silent => exact alike
    | closed => exact (alike.read none).post .engineClosed
    | failed reason => exact (alike.read none).post (.engineFailed reason)

theorem Alike.receive (alike : Alike m m') (incoming : Engine.Incoming) :
    Alike (m.receive incoming) (m'.receive incoming) :=
  (alike.foldl (fun chunk alike => alike.receiveChunk chunk) incoming.chunks).receiveEnd incoming.ending

/-! ## Talking to the engine -/

variable (host : Host ω)

theorem Alike.send (alike : Alike m m') (command : Engine.Command) :
    Agree (m.send host command) (m'.send host command) := by
  unfold Machine.send
  rw [alike.state]
  cases m.state.connected with
  | false => exact ⟨rfl, alike⟩
  | true =>
    have asked := (alike.log .debug "remote" ("-> " ++ command.line)).record (.sent command)
    simp only [if_true]
    rw [asked.world]
    generalize host.tell _ command.encode = told
    obtain ⟨reply, world⟩ := told
    cases reply with
    | ok incoming => exact ⟨rfl, (asked.move world).receive incoming⟩
    | error reason => exact ⟨rfl, (asked.move world).record (.unwritten command)⟩

theorem Alike.sendAnyway (alike : Alike m m') (command : Engine.Command) :
    Alike (m.sendAnyway host command) (m'.sendAnyway host command) := by
  unfold Machine.sendAnyway
  obtain ⟨sent, n, n', same, same', alike⟩ := (alike.send host command).parts
  rw [same, same']
  cases sent with
  | ok _ => exact alike
  | error fault => exact alike.log _ _ _

theorem Alike.sendAll (alike : Alike m m') (commands : List Engine.Command) :
    Alike (commands.foldl (fun m command => m.sendAnyway host command) m)
      (commands.foldl (fun m command => m.sendAnyway host command) m') :=
  alike.foldl (fun command alike => alike.sendAnyway host command) commands

theorem Alike.evaluate (alike : Alike m m') (frame : Nat) (expression : String) :
    Agree (m.evaluate host frame expression) (m'.evaluate host frame expression) := by
  unfold Machine.evaluate
  rw [alike.state]
  obtain ⟨tag, correlator⟩ := m.state.correlator.register
  have registered := alike.adopt { m.state with correlator := correlator }
  obtain ⟨sent, n, n', same, same', alike⟩ := (registered.send host (.evaluate tag frame expression)).parts
  dsimp only
  rw [same, same']
  cases sent with
  | ok _ => exact ⟨rfl, alike⟩
  | error fault => exact ⟨rfl, (alike.log _ _ _).update fun s => { s with correlator := s.correlator.markUnsent tag }⟩

theorem Alike.forget (alike : Alike m m') (tag : UInt64) : Alike (m.forget tag) (m'.forget tag) :=
  alike.become (by rw [alike.state])

theorem Alike.settle (alike : Alike m m') (tag : UInt64) : Agree (m.settle tag) (m'.settle tag) := by
  unfold Machine.settle
  rw [alike.state]
  exact ⟨rfl, (alike.adopt _).record (.waited tag)⟩

theorem Alike.await (alike : Alike m m') (tag : UInt64) : Agree (m.await host tag) (m'.await host tag) := by
  unfold Machine.await
  rw [alike.state, alike.world]
  cases m.state.correlator.isPending tag with
  | false => exact alike.settle tag
  | true =>
    obtain ⟨incoming, world⟩ := host.linger m.world
    have waited := ((alike.move world).receive incoming).settle tag
    rw [alike.state] at waited
    obtain ⟨answer, n, n', same, same', alike⟩ := waited.parts
    simp only [if_true]
    rw [same, same']
    cases answer with
    | some value => exact ⟨rfl, alike⟩
    | none => exact ⟨rfl, alike.log _ _ _⟩

theorem Alike.evaluateAll (alike : Alike m m') (frame : Nat) (names : List String) :
    Agree (m.evaluateAll host frame names) (m'.evaluateAll host frame names) := by
  induction names generalizing m m' with
  | nil => exact ⟨rfl, alike⟩
  | cons name rest ih =>
    have first := alike.evaluate host frame name
    have later := ih first.alike
    exact ⟨(congr (congrArg List.cons first.result) later.result :), later.alike⟩

theorem Alike.awaitAll (alike : Alike m m') (tags : List UInt64) :
    Agree (m.awaitAll host tags) (m'.awaitAll host tags) := by
  induction tags generalizing m m' with
  | nil => exact ⟨rfl, alike⟩
  | cons tag rest ih =>
    have first := alike.await host tag
    have later := ih first.alike
    exact ⟨(congr (congrArg List.cons first.result) later.result :), later.alike⟩

theorem Alike.fetch (alike : Alike m m') (frame : Nat) (names : List String) :
    Agree (m.fetch host frame names) (m'.fetch host frame names) := by
  fun_induction Machine.fetch host m frame names generalizing m' with
  | case1 m names empty =>
    rw [Machine.fetch, if_pos empty]
    exact ⟨rfl, alike⟩
  | case2 m names more tags asked evaluated answers heard awaited others last fetched ih =>
    have asking := alike.evaluateAll host frame (names.take evaluationsInFlight)
    rw [evaluated] at asking
    have waiting := asking.alike.awaitAll host tags
    rw [awaited] at waiting
    have later := ih waiting.alike
    rw [fetched] at later
    rw [Machine.fetch, if_neg more]
    dsimp only
    rw [asking.result]
    dsimp only
    rw [waiting.result, later.result]
    exact ⟨rfl, later.alike⟩

theorem Alike.namesIn (alike : Alike m m') (frame : Engine.Frame) (kind : ScopeKind) :
    Agree (m.namesIn host frame kind) (m'.namesIn host frame kind) := by
  unfold Machine.namesIn
  rw [alike.state, alike.world]
  dsimp only
  generalize (m.state.resolver.toClient frame.file).text = path
  obtain ⟨finding, cache⟩ := m.state.scopes.get (host.read m.world) path
  have cached := alike.adopt { m.state with scopes := cache }
  have looked := ((logFinding_alike _ path finding).symm.trans cached).trans (logFinding_alike _ path finding)
  rw [alike.world] at looked
  dsimp only
  cases finding.scopes? with
  | none => exact ⟨rfl, looked⟩
  | some scopes => cases kind <;> exact ⟨rfl, looked⟩

/-! ## The commands of the client -/

variable (alike : Alike m m') (request : Request)
include alike

theorem Alike.stackTrace : Alike (m.stackTrace request) (m'.stackTrace request) := by
  unfold Machine.stackTrace
  rw [alike.state]
  cases request.argumentsAs StackTraceArguments.schema StackTraceArguments.ofConformed with
  | error fault => exact alike.refuse _ _
  | ok arguments => exact (alike.adopt _).succeed _ _

theorem Alike.scopes : Alike (m.scopes request) (m'.scopes request) := by
  unfold Machine.scopes
  rw [alike.state]
  cases request.argumentsAs ScopesArguments.schema ScopesArguments.ofConformed with
  | error fault => exact alike.refuse _ _
  | ok arguments =>
    dsimp only
    cases ScopeReference.encode ⟨arguments.frameId, .locals⟩ with
    | error fault => exact alike.refuse _ _
    | ok locals =>
      cases ScopeReference.encode ⟨arguments.frameId, .globals⟩ with
      | error fault => exact alike.refuse _ _
      | ok globals => exact alike.succeed _ _

theorem Alike.showVariables : Alike (m.showVariables host request) (m'.showVariables host request) := by
  unfold Machine.showVariables
  rw [alike.state]
  cases request.argumentsAs VariablesArguments.schema VariablesArguments.ofConformed with
  | error fault => exact alike.refuse _ _
  | ok arguments =>
    dsimp only
    cases ScopeReference.decode arguments.variablesReference with
    | error fault => exact alike.refuse _ _
    | ok scope =>
      dsimp only
      cases m.state.viewFrame? scope.frame with
      | none => exact (alike.log _ _ _).succeed _ _
      | some frame =>
        obtain ⟨names, n, n', same, same', alike⟩ := (alike.namesIn host frame scope.kind).parts
        dsimp only
        rw [same, same']
        dsimp only
        rw [alike.state]
        have fetched := alike.fetch host (n.state.engineFrame scope.frame) names
        rw [fetched.result]
        exact fetched.alike.succeed _ _

theorem Alike.setVariable : Alike (m.setVariable host request) (m'.setVariable host request) := by
  unfold Machine.setVariable
  rw [alike.state]
  cases request.argumentsAs SetVariableArguments.schema SetVariableArguments.ofConformed with
  | error fault => exact alike.refuse _ _
  | ok arguments =>
    dsimp only
    cases ScopeReference.decode arguments.variablesReference with
    | error fault => exact alike.refuse _ _
    | ok scope =>
      have assigned := alike.evaluate host (m.state.engineFrame scope.frame) (arguments.name ++ "=" ++ arguments.value)
      obtain ⟨tag, n, n', same, same', alike⟩ := assigned.parts
      have asked := (alike.forget tag).evaluate host (m.state.engineFrame scope.frame) arguments.name
      dsimp only
      rw [same, same']
      dsimp only
      rw [asked.result]
      have answered := asked.alike.await host
        ((n.forget tag).evaluate host (m.state.engineFrame scope.frame) arguments.name).1
      rw [answered.result]
      exact answered.alike.succeed _ _

theorem Alike.evaluateExpression :
    Alike (m.evaluateExpression host request) (m'.evaluateExpression host request) := by
  unfold Machine.evaluateExpression
  rw [alike.state]
  cases request.argumentsAs EvaluateArguments.schema EvaluateArguments.ofConformed with
  | error fault => exact alike.refuse _ _
  | ok arguments =>
    dsimp only
    by_cases console : arguments.context = .repl
    · rw [if_pos console, if_pos console]
      obtain ⟨sent, n, n', same, same', alike⟩ := (alike.send host (.evaluateOnConsole arguments.expression)).parts
      rw [same, same']
      cases sent with
      | ok _ => exact alike.succeed _ _
      | error fault => exact alike.refuse _ _
    · rw [if_neg console, if_neg console]
      have asked := alike.evaluate host (m.state.engineFrame (arguments.frameId.getD 0)) arguments.expression
      obtain ⟨tag, n, n', same, same', alike⟩ := asked.parts
      rw [same, same']
      obtain ⟨answer, n, n', same, same', alike⟩ := (alike.await host tag).parts
      dsimp only
      rw [same, same']
      cases answer with
      | some value => exact alike.succeed _ _
      | none => exact alike.refuse _ _

theorem Alike.setBreakpoints : Alike (m.setBreakpoints host request) (m'.setBreakpoints host request) := by
  unfold Machine.setBreakpoints
  rw [alike.state]
  cases request.argumentsAs SetBreakpointsArguments.schema SetBreakpointsArguments.ofConformed with
  | error fault => exact alike.refuse _ _
  | ok arguments =>
    dsimp only
    cases arguments.source.path with
    | none => exact alike.refuse _ _
    | some path =>
      dsimp only
      generalize m.state.breakpoints.replace _ _ = replaced
      have kept := alike.adopt { m.state with breakpoints := replaced.2 }
      by_cases connected : m.state.connected = true
      · simp only [if_pos connected]
        exact (kept.sendAll host _).succeed _ _
      · simp only [if_neg connected]
        exact kept.succeed _ _

omit request in
theorem Alike.resume (command : Engine.Command) : Agree (m.resume host command) (m'.resume host command) := by
  unfold Machine.resume
  obtain ⟨sent, n, n', same, same', alike⟩ := (alike.send host command).parts
  rw [same, same']
  cases sent with
  | error fault => exact ⟨rfl, alike⟩
  | ok _ =>
    dsimp only
    rw [alike.state]
    by_cases stopped : n.state.phase = .stopped
    · rw [if_pos stopped, if_pos stopped]
      exact ⟨rfl, alike.adopt _⟩
    · rw [if_neg stopped, if_neg stopped]
      exact ⟨rfl, alike⟩

/-- A request that lets the engine go on. What is done where it does so is the request's own. -/
theorem Alike.resumption (command : Engine.Command) {granted : Machine ω → Machine ω}
    (each : ∀ {n n' : Machine ω}, Alike n n' → Alike (granted n) (granted n')) :
    Alike (match m.resume host command with
        | (.ok (), n) => granted n
        | (.error fault, n) => n.refuse request (.notResumed command fault))
      (match m'.resume host command with
        | (.ok (), n) => granted n
        | (.error fault, n) => n.refuse request (.notResumed command fault)) := by
  obtain ⟨sent, n, n', same, same', alike⟩ := (alike.resume host command).parts
  rw [same, same']
  cases sent with
  | ok _ => exact each alike
  | error fault => exact alike.refuse _ _

theorem Alike.continueExecution :
    Alike (m.continueExecution host request) (m'.continueExecution host request) :=
  alike.resumption host request .resume fun alike => alike.succeed request .continued

theorem Alike.step (command : Engine.Command) : Alike (m.step host request command) (m'.step host request command) :=
  alike.resumption host request command fun alike => alike.succeed request .nothing

theorem Alike.pause : Alike (m.pause host request) (m'.pause host request) :=
  alike.resumption host request .stepIn fun alike =>
    (alike.update fun s => { s with pausePending := true }).succeed request .nothing

theorem Alike.disconnect : Alike (m.disconnect request) (m'.disconnect request) := by
  unfold Machine.disconnect
  rw [alike.state]
  exact (((alike.adopt _).read none).succeed _ _).finish

/-! ## Launching -/

omit request

theorem Alike.connected (buffer : Engine.LineBuffer) (later : Engine.Incoming) :
    Alike (m.connected host buffer later) (m'.connected host buffer later) := by
  unfold Machine.connected
  dsimp only
  have opened := alike.update fun s => { s with phase := .running, connected := true }
  have heard := ((opened.read (some buffer)).receiveChunk []).receive later
  dsimp only at heard
  rw [heard.state]
  exact heard.sendAll host _

theorem Alike.authenticated (token : String) (buffer : Engine.LineBuffer) (later : Engine.Incoming) :
    Agree (m.authenticated host token buffer later) (m'.authenticated host token buffer later) := by
  unfold Machine.authenticated
  have logged := alike.log .debug "remote" ("authenticated: " ++ token)
  dsimp only
  rw [logged.world]
  generalize host.startReader _ = started
  obtain ⟨outcome, world⟩ := started
  cases outcome with
  | ok _ => exact ⟨rfl, (logged.move world).connected host buffer later⟩
  | error fault =>
    cases fault with
    | notShared reason => exact ⟨rfl, logged.move world⟩
    | notStarted reason => exact ⟨rfl, (logged.update fun s => { s with connected := true }).move world⟩

theorem Alike.connect (arguments : LaunchArguments) :
    Agree (m.connect host arguments) (m'.connect host arguments) := by
  unfold Machine.connect
  rw [alike.world]
  obtain ⟨dialled, world⟩ := host.dial m.world arguments.address arguments.port
  cases dialled with
  | error fault => exact ⟨rfl, alike.move world⟩
  | ok address =>
    have reached := (alike.move world).log .info "remote" ("connected to " ++ address)
    dsimp only
    generalize Machine.log _ _ _ _ = n at reached ⊢
    generalize Machine.log _ _ _ _ = n' at reached ⊢
    have greeted := reached.record (.greeted arguments.password)
    rw [greeted.world]
    generalize host.tell _ (arguments.password ++ "\n") = told
    obtain ⟨reply, world⟩ := told
    cases reply with
    | error reason => exact ⟨rfl, greeted.move world⟩
    | ok incoming =>
      dsimp only
      generalize Engine.Handshake.run _ _ _ = ran
      obtain ⟨ignored, outcome⟩ := ran
      have heard := (greeted.move world).foldl (fun line alike => Alike.logIgnored alike line) ignored
      cases outcome with
      | accepted token buffer later => exact heard.authenticated host token buffer _
      | wrongPassword | ended ending => exact ⟨rfl, heard⟩

theorem Alike.startLaunch : Alike (m.startLaunch host) (m'.startLaunch host) := by
  unfold Machine.startLaunch
  rw [alike.state]
  cases m.state.pendingLaunch with
  | none => exact alike
  | some launch =>
    dsimp only
    have begun := alike.adopt { m.state with pendingLaunch := none }
    obtain ⟨outcome, n, n', same, same', alike⟩ := (begun.connect host launch.arguments).parts
    rw [same, same']
    cases outcome with
    | ok _ => exact (alike.succeed _ _).sendAnyway host .resume
    | error fault =>
      exact ((alike.log _ _ _).update fun s => { s with phase := .idle, tracing := false }).refuse _ _

theorem Alike.startConfigured :
    Alike (if m.state.configured then m.startLaunch host else m)
      (if m'.state.configured then m'.startLaunch host else m') := by
  rw [alike.state]
  cases m.state.configured with
  | true => exact alike.startLaunch host
  | false => exact alike

theorem Alike.startOverdue (waited : Nat) : Alike (m.startOverdue host waited) (m'.startOverdue host waited) :=
  (alike.log _ _ _).startLaunch host

theorem Alike.workspace (arguments : LaunchArguments) : m'.workspace host arguments = m.workspace host arguments := by
  unfold Machine.workspace
  rw [alike.world]

theorem Alike.launch (request : Request) : Alike (m.launch host request) (m'.launch host request) := by
  unfold Machine.launch
  rw [alike.state]
  by_cases started : m.state.phase ≠ .idle ∨ m.state.pendingLaunch.isSome
  · rw [if_pos started, if_pos started]
    exact alike.refuse _ _
  · rw [if_neg started, if_neg started]
    cases request.argumentsAs LaunchArguments.schema LaunchArguments.ofConformed with
    | error fault => exact alike.refuse _ _
    | ok arguments =>
      dsimp only
      rw [alike.workspace host arguments]
      cases m.workspace host arguments with
      | error reason => exact alike.refuse _ _
      | ok workspace =>
        have resolved := alike.adopt { m.state with
          resolver := .new workspace arguments.rootDir
          tracing := m.state.tracing || arguments.trace }
        have ready := (resolved.log .info "dap"
          (request.command ++ " " ++ Engine.target arguments.address arguments.port)).update fun s =>
            { s with pendingLaunch := some ⟨request, arguments⟩ }
        exact ready.startConfigured host

theorem Alike.configurationDone (request : Request) :
    Alike (m.configurationDone host request) (m'.configurationDone host request) := by
  unfold Machine.configurationDone
  rw [alike.state]
  exact ((alike.adopt _).succeed _ _).startLaunch host

/-! ## Everything that a session deals with -/

theorem Alike.handleRequest (request : Request) :
    Alike (m.handleRequest host request) (m'.handleRequest host request) := by
  unfold Machine.handleRequest
  dsimp only
  have logged := alike.log .debug "dap" ("request #" ++ Text.Decimal.showInt64 request.seq ++ " " ++ request.command)
  cases Verb.ofCommand? request.command with
  | none => exact logged.refuse _ _
  | some verb =>
    cases verb with
    | introduce => exact (logged.succeed _ _).announce _
    | launch => exact logged.launch host request
    | configurationDone => exact logged.configurationDone host request
    | setBreakpoints => exact logged.setBreakpoints host request
    | threads => exact logged.succeed _ _
    | stackTrace => exact logged.stackTrace request
    | scopes => exact logged.scopes request
    | showVariables => exact logged.showVariables host request
    | setVariable => exact logged.setVariable host request
    | resume => exact logged.continueExecution host request
    | next | stepIn | stepOut => exact logged.step host request _
    | pause => exact logged.pause host request
    | evaluate => exact logged.evaluateExpression host request
    | disconnect => exact logged.disconnect request

theorem Alike.stopForPause : Alike m.stopForPause m'.stopForPause := by
  unfold Machine.stopForPause
  rw [alike.state]
  exact (alike.adopt _).announce _

theorem Alike.stopIf (pausing : Bool) :
    Alike (if pausing then m.stopForPause else m) (if pausing then m'.stopForPause else m') := by
  cases pausing with
  | true => exact alike.stopForPause
  | false => exact alike

theorem Alike.handleEvent (event : Engine.Event) : Alike (m.handleEvent event) (m'.handleEvent event) := by
  unfold Machine.handleEvent
  rw [alike.state]
  have unpaused := alike.adopt { m.state with pausePending := false }
  cases event with
  | stopped frames =>
    dsimp only
    exact (unpaused.update fun s => { s with stack := frames, phase := .stopped }).announce _
  | consoleOutput text => exact (unpaused.announce _).stopIf _
  | running => exact ((unpaused.update fun s => { s with phase := .running }).announce _).stopIf _
  | breakpointCleared file line =>
    dsimp only
    cases m.state.breakpoints.clearLine file line with
    | mk location breakpoints =>
      cases location with
      | none => exact unpaused.stopIf _
      | some location =>
        exact ((unpaused.update fun s => { s with breakpoints := breakpoints }).announce _).stopIf _
  | breakpointMoved file line newLine =>
    dsimp only
    cases m.state.breakpoints.moveLine file line newLine with
    | mk location breakpoints =>
      cases location with
      | none => exact unpaused.stopIf _
      | some location =>
        exact ((unpaused.update fun s => { s with breakpoints := breakpoints }).announce _).stopIf _
  | evaluated tag value | pass token | unknown line => exact (unpaused.log _ _ _).stopIf _

theorem Alike.engineGone : Alike m.engineGone m'.engineGone := by
  unfold Machine.engineGone
  rw [alike.state]
  dsimp only
  have parted := alike.adopt { m.state with connected := false, phase := .disconnected }
  by_cases gone : m.state.phase = .disconnected
  · simp only [gone, if_true]
    exact parted
  · simp only [gone]
    exact parted.announce .terminated

theorem Alike.handleItem (item : Item) : Alike (m.handleItem host item) (m'.handleItem host item) := by
  cases item with
  | request request => exact alike.handleRequest host request
  | clientClosed => exact (alike.log _ _ _).finish
  | engineEvent event => exact alike.handleEvent event
  | lineConsumed =>
    dsimp only [Machine.handleItem]
    rw [alike.state]
    by_cases pausing : m.state.pausePending = true
    · rw [if_pos pausing, if_pos pausing]
      exact (alike.adopt _).stopForPause
    · rw [if_neg pausing, if_neg pausing]
      exact alike
  | engineClosed | engineFailed reason => exact (alike.log _ _ _).engineGone
  | logLine text => exact alike.announce _

end

end Machine

end DebugBridge.Session
