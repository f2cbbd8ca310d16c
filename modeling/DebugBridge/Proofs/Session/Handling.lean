import DebugBridge.Proofs.Session.Background

/-! What the handling of one thing can come to.

Each command of the client and each line of the engine has its own way through a session. All that the life of
the session and its conversation depend on is said here once for each of them; what a session does over time
is derived from it without looking at a handler again. -/

set_option autoImplicit false

namespace DebugBridge.Session

open Protocol

inductive Occasion where
  | item (item : Item)
  | overdue (waited : Nat)

def verb? (request : Request) : Option Verb := Verb.ofCommand? request.command

/-- The command that lets the engine go on. A pause is asked for by a step. -/
def Verb.resumption? : Verb → Option Engine.Command
  | .resume => some .resume
  | .next => some .stepOver
  | .stepIn | .pause => some .stepIn
  | .stepOut => some .stepOut
  | _ => none

def Verb.isPlain : Verb → Bool
  | .launch | .configurationDone | .disconnect => false
  | verb => verb.resumption?.isNone

theorem plain_other {request : Request} {other : Verb} (plain : (verb? request).all Verb.isPlain = true)
    (special : other.isPlain = false) : verb? request ≠ some other := by
  intro verb
  rw [verb, Option.all_some, special] at plain
  cases plain

theorem resumption_other {request : Request} {verb other : Verb} {command : Engine.Command}
    (named : verb? request = some verb) (resumption : verb.resumption? = some command)
    (staying : other.resumption? = none) : verb? request ≠ some other := by
  rw [named]
  rintro ⟨⟩
  rw [staying] at resumption
  cases resumption

def wanted? (request : Request) : Option (String × List Breakpoint.Wanted) :=
  match request.argumentsAs SetBreakpointsArguments.schema SetBreakpointsArguments.ofConformed with
  | .error _ => none
  | .ok arguments =>
    arguments.source.path.map fun path =>
      (path, arguments.breakpoints.map fun b => ⟨b.line, b.condition, b.hitCondition⟩)

def Outcome.installed : Outcome → List Breakpoint.Location
  | .success (.breakpoints installed) => installed
  | _ => []

def Item.follow (breakpoints : Breakpoint.Table) : Item → Breakpoint.Table
  | .engineEvent (.breakpointCleared file line) =>
    match breakpoints.clearLine file line with
    | (some _, cleared) => cleared
    | (none, _) => breakpoints
  | .engineEvent (.breakpointMoved file line newLine) =>
    match breakpoints.moveLine file line newLine with
    | (some _, moved) => moved
    | (none, _) => breakpoints
  | _ => breakpoints

def Item.frames? : Item → Option (List Engine.Frame)
  | .engineEvent (.stopped frames) => some frames
  | _ => none

/-- The reason for a stop that an item is the end of. A pause that was asked for comes with the next report,
whatever that says. -/
def Item.stop? (s : State) (item : Item) : Option StopReason :=
  if item.isReport && s.pausePending then some .pause else item.frames?.map (State.stopReason s.breakpoints)

def Item.news (s : State) : Item → List Notice
  | .engineEvent (.consoleOutput text) => [.output .stdout (text ++ "\n")]
  | .engineEvent .running => [.continued]
  | .engineEvent (.breakpointCleared file line) =>
    (s.breakpoints.clearLine file line).1.toList.map fun location =>
      .breakpoint .removed location (s.sourceView file)
  | .engineEvent (.breakpointMoved file line newLine) =>
    (s.breakpoints.moveLine file line newLine).1.toList.map fun location =>
      .breakpoint .changed location (s.sourceView file)
  | .logLine text => [.output .console text]
  | _ => []

def Item.notices (s : State) (item : Item) : List Notice := item.news s ++ (item.stop? s).toList.map .stopped

def Item.going (s : State) : Item → Phase
  | .engineEvent .running => .running
  | _ => s.phase

def Item.phaseAfter (s : State) (item : Item) : Phase :=
  if (item.stop? s).isSome then .stopped else item.going s

end DebugBridge.Session

namespace DebugBridge.Engine

def Command.IsInquiry : Command → Prop
  | .evaluate _ _ _ | .evaluateOnConsole _ => True
  | _ => False

def Command.IsOfBreakpoints : Command → Prop
  | .setBreakpoint _ _ _ _ | .clearBreakpoint _ _ => True
  | _ => False

end DebugBridge.Engine

namespace DebugBridge.Session

variable {ω : Type}

/-- Somebody can always be made to read a connection. -/
def Host.StartsReaders (host : Host ω) : Prop := ∀ world, (host.startReader world).1 = .ok ()

end DebugBridge.Session

namespace DebugBridge.Session.Machine

open Protocol

variable {ω : Type}

def respond (m : Machine ω) (request : Request) (outcome : Outcome) : Machine ω :=
  m.emit fun seq => .response seq request outcome

def announceAll (m : Machine ω) (notices : List Notice) : Machine ω := notices.foldl announce m

def meet (host : Host ω) (m : Machine ω) : Occasion → Machine ω
  | .item item => m.handleItem host item
  | .overdue waited => m.startOverdue host waited

abbrev Asked : Machine ω → Machine ω → Prop := Background Engine.Command.IsInquiry

abbrev Informed : Machine ω → Machine ω → Prop := Background Engine.Command.IsOfBreakpoints

/-- What comes of a pending launch: nothing if there is none, and otherwise an answer, with or without a
connection. One that nobody can be made to read fails, but it can be written to. -/
inductive Launched (host : Host ω) (m : Machine ω) : Machine ω → Prop where
  | nothing : m.state.pendingLaunch = none → Launched host m m
  | connected {launch : PendingLaunch} {before informed after : Machine ω} (buffer : Engine.LineBuffer)
      (written : Bool) : m.state.pendingLaunch = some launch →
      Quiet { m with state := { m.state with pendingLaunch := none } } before →
      Informed { before with
        state := { before.state with phase := .running, connected := true }
        reader := some buffer } informed →
      informed.sent = m.sent ++ m.state.breakpoints.replay →
      Quiet ((informed.respond launch.request (.success .nothing)).handOver .resume written) after →
      Launched host m after
  | failed {launch : PendingLaunch} {before : Machine ω} (fault : Engine.ConnectFault) (unread : Bool) :
      m.state.pendingLaunch = some launch → (unread = true → ¬ host.StartsReaders) →
      Quiet { m with state := { m.state with pendingLaunch := none } } before →
      Launched host m ({ before with state := { before.state with
        phase := .idle, connected := unread || before.state.connected, tracing := false } }.respond
          launch.request (.failure (.notConnected fault)))

inductive Handled (host : Host ω) (m : Machine ω) : Occasion → Machine ω → Prop where
  | replied {request : Request} {outcome : Outcome} {before after : Machine ω} (start : Nat) :
      (verb? request).all Verb.isPlain = true → Quiet m before →
      Asked
        { before with state := { before.state with windowStart := start } } after → outcome.installed = [] →
      (verb? request = some .setBreakpoints → wanted? request = none) →
      Handled host m (.item (.request request)) (after.respond request outcome)
  | introduced {request : Request} {before : Machine ω} : verb? request = some .introduce → Quiet m before →
      Handled host m (.item (.request request))
        ((before.respond request (.success .capabilities)).announce .initialized)
  | breakpointsSet {request : Request} {before after : Machine ω} (file : String)
      (wanted : List Breakpoint.Wanted) : verb? request = some .setBreakpoints → Quiet m before →
      Informed { before with state := { before.state with
        breakpoints := (m.state.breakpoints.replace file wanted).2 } } after →
      (after.sent = m.sent ++
        if m.state.connected then (m.state.breakpoints.replace file wanted).1.commands else []) →
      (∃ path, wanted? request = some (path, wanted) ∧ file = m.state.resolver.toEngine path) →
      Handled host m (.item (.request request)) (after.respond request
        (.success (.breakpoints (m.state.breakpoints.replace file wanted).1.installed)))
  | resumed {request : Request} {verb : Verb} {command : Engine.Command} {before after : Machine ω}
      (answer : Answer) (pausing : Bool) : verb? request = some verb → verb.resumption? = some command →
      m.state.connected = true → Quiet m before → Quiet (before.handOver command true) after →
      pausing = (verb = .pause || m.state.pausePending) → (Outcome.success answer).installed = [] →
      Handled host m (.item (.request request)) ({ after with state := { after.state with
          phase := if m.state.phase = Phase.stopped then .running else m.state.phase
          pausePending := pausing } }.respond request (.success answer))
  | notResumed {request : Request} {verb : Verb} {command : Engine.Command} {before : Machine ω} :
      verb? request = some verb → verb.resumption? = some command → m.state.connected = false →
      Quiet m before →
      Handled host m (.item (.request request))
        (before.respond request (.failure (.notResumed command .notConnected)))
  | notWritten {request : Request} {verb : Verb} {command : Engine.Command} {before after : Machine ω}
      (reason : String) : verb? request = some verb → verb.resumption? = some command →
      m.state.connected = true → Quiet m before → Quiet (before.handOver command false) after →
      Handled host m (.item (.request request))
        (after.respond request (.failure (.notResumed command (.notWritten reason))))
  | repeated {request : Request} {before : Machine ω} : verb? request = some .launch →
      m.state.phase ≠ .idle ∨ m.state.pendingLaunch.isSome = true → Quiet m before →
      Handled host m (.item (.request request)) (before.respond request (.failure (.alreadyStarted request.command)))
  | unreadable {request : Request} {before : Machine ω} (fault : SchemaFault) :
      verb? request = some .launch → m.state.phase = .idle → m.state.pendingLaunch = none →
      request.argumentsAs LaunchArguments.schema LaunchArguments.ofConformed = .error fault → Quiet m before →
      Handled host m (.item (.request request))
        (before.respond request (.failure (.invalidArguments request.command fault)))
  | homeless {request : Request} {before : Machine ω} (arguments : LaunchArguments) (reason : String) :
      verb? request = some .launch → m.state.phase = .idle → m.state.pendingLaunch = none →
      request.argumentsAs LaunchArguments.schema LaunchArguments.ofConformed = .ok arguments →
      m.workspace host arguments = .error reason → Quiet m before →
      Handled host m (.item (.request request)) (before.respond request (.failure (.noWorkingFolder reason)))
  | putOff {request : Request} {before after : Machine ω} (arguments : LaunchArguments)
      (resolver : Source.Resolver) (tracing : Bool) : verb? request = some .launch → m.state.phase = .idle →
      m.state.pendingLaunch = none → m.state.configured = false →
      request.argumentsAs LaunchArguments.schema LaunchArguments.ofConformed = .ok arguments → Quiet m before →
      Quiet { before with state := { before.state with
        resolver := resolver, tracing := tracing, pendingLaunch := some ⟨request, arguments⟩ } } after →
      Handled host m (.item (.request request)) after
  | started {request : Request} {before ready after : Machine ω} (arguments : LaunchArguments)
      (resolver : Source.Resolver) (tracing : Bool) : verb? request = some .launch → m.state.phase = .idle →
      m.state.pendingLaunch = none → m.state.configured = true →
      request.argumentsAs LaunchArguments.schema LaunchArguments.ofConformed = .ok arguments → Quiet m before →
      Quiet { before with state := { before.state with
        resolver := resolver, tracing := tracing, pendingLaunch := some ⟨request, arguments⟩ } } ready →
      Launched host ready after →
      Handled host m (.item (.request request)) after
  | configured {request : Request} {before after : Machine ω} : verb? request = some .configurationDone →
      Quiet m before →
      Launched host ({ before with state := { before.state with configured := true } }.respond request
        (.success .nothing)) after →
      Handled host m (.item (.request request)) after
  | disconnected {request : Request} {before : Machine ω} : verb? request = some .disconnect → Quiet m before →
      Handled host m (.item (.request request)) { { before with
          state := { before.state with phase := .disconnected, connected := false }
          reader := none }.respond request (.success .nothing) with ended := true }
  | left {before : Machine ω} : Quiet m before → Handled host m (.item .clientClosed) { before with ended := true }
  /-- Apart from a request, whatever is no end. -/
  | announced {item : Item} (before : Machine ω) (stack : List Engine.Frame) (phase : Phase) (pausing : Bool)
      (notices : List Notice) : (∀ request, item ≠ .request request) → item ≠ .clientClosed →
      item.isFarewell = false → Quiet m before → (∀ notice ∈ notices, notice ≠ .terminated) →
      phase = m.state.phase ∨ item.isReport = true ∧ (phase = .running ∨ phase = .stopped) →
      stack = item.frames?.getD m.state.stack → phase = item.phaseAfter m.state →
      pausing = (m.state.pausePending && !item.isReport) → notices = item.notices m.state →
      Handled host m (.item item) ({ before with state := { before.state with
        stack := stack, phase := phase, pausePending := pausing
        breakpoints := item.follow m.state.breakpoints } }.announceAll notices)
  | parted {item : Item} {before : Machine ω} : item.isFarewell = true → Quiet m before →
      Handled host m (.item item) ({ before with state := { before.state with
        connected := false, phase := .disconnected } }.announceAll
          (if m.state.phase = Phase.disconnected then [] else [.terminated]))
  | overdue {waited : Nat} {before after : Machine ω} : Quiet m before → Launched host before after →
      Handled host m (.overdue waited) after

/-! ## Launching -/

theorem replay_ofBreakpoints (breakpoints : Breakpoint.Table) :
    ∀ command ∈ breakpoints.replay, command.IsOfBreakpoints := by
  intro command member
  rw [Breakpoint.Table.replay, List.mem_flatMap] at member
  obtain ⟨entry, _, member⟩ := member
  obtain ⟨location, _, rfl⟩ := List.mem_map.mp member
  trivial

theorem logIgnored_quiet (m : Machine ω) (line : String) : Quiet m (m.logIgnored line) :=
  (logWarnings_background m line).trans (log_background _ _ _ _)

theorem connected_informed (host : Host ω) (m : Machine ω) (buffer : Engine.LineBuffer)
    (later : Engine.Incoming) :
    Informed { m with
        state := { m.state with phase := .running, connected := true }
        reader := some buffer } (m.connected host buffer later) ∧
      (m.connected host buffer later).sent = m.sent ++ m.state.breakpoints.replay := by
  unfold connected
  extract_lets _ reading heard
  have listening : Quiet reading heard := (receiveChunk_background _ _).trans (receive_background _ _)
  have same : heard.state.breakpoints = m.state.breakpoints := listening.breakpoints
  have connected : heard.state.connected = true := listening.connected
  refine ⟨listening.background.trans (sendAll_background host heard (replay_ofBreakpoints _)), ?_⟩
  rw [sendAll_sent, if_pos connected, same, listening.sent]
  rfl

inductive Connecting (host : Host ω) (m : Machine ω) : Except Engine.ConnectFault Unit × Machine ω → Prop where
  | connected {before : Machine ω} (buffer : Engine.LineBuffer) (later : Engine.Incoming) : Quiet m before →
      Connecting host m (.ok (), before.connected host buffer later)
  | failed {before : Machine ω} (fault : Engine.ConnectFault) (unread : Bool) :
      (unread = true → ¬ host.StartsReaders) → Quiet m before →
      Connecting host m (.error fault,
        { before with state := { before.state with connected := unread || before.state.connected } })

theorem authenticated_cases (host : Host ω) {m heard : Machine ω} (quiet : Quiet m heard) (token : String)
    (buffer : Engine.LineBuffer) (later : Engine.Incoming) :
    Connecting host m (heard.authenticated host token buffer later) := by
  unfold authenticated
  extract_lets logged
  have before (world : ω) : Quiet m { logged with world := world } :=
    (quiet.trans (log_background _ _ _ _)).tail (.surroundings world)
  split
  · next world _ => exact .connected buffer later (before world)
  · next reason world _ => exact .failed (.failed reason) false Bool.noConfusion (before world)
  · next reason world failed =>
    have unread : ¬ host.StartsReaders := fun starts => by
      have started := starts logged.world
      rw [failed] at started
      cases started
    exact .failed (.failed reason) true (fun _ => unread) (before world)

theorem connect_cases (host : Host ω) (m : Machine ω) (arguments : LaunchArguments) :
    Connecting host m (m.connect host arguments) := by
  unfold connect
  split
  · next fault world _ => exact .failed fault false Bool.noConfusion (.single (.surroundings world))
  · next address world _ =>
    extract_lets greeted
    have quiet (world' : ω) : Quiet m { greeted with world := world' } :=
      (((Relation.ReflTransGen.single (.surroundings world)).trans (log_background _ _ _ _)).tail
        (.noted rfl rfl rfl)).tail (.surroundings world')
    split
    · next reason world' _ => exact .failed (.failed reason) false Bool.noConfusion (quiet world')
    · next incoming world' _ =>
      split
      next ignored outcome _ =>
      extract_lets heard
      have quiet : Quiet m heard := (quiet world').trans (foldl_background logIgnored_quiet _ _)
      split
      · next token buffer later _ => exact authenticated_cases host quiet token buffer _
      · exact .failed _ false Bool.noConfusion quiet
      · exact .failed _ false Bool.noConfusion quiet

theorem startLaunch_launched (host : Host ω) (m : Machine ω) : Launched host m (m.startLaunch host) := by
  unfold startLaunch
  split
  · next none => exact .nothing none
  · next launch pending =>
    extract_lets _ taken
    have attempted := connect_cases host taken launch.arguments
    generalize taken.connect host launch.arguments = result at attempted ⊢
    cases attempted with
    | @failed before fault unread none quiet =>
      exact .failed fault unread pending none (quiet.trans (log_background before _ _ _))
    | @connected before buffer later quiet =>
      obtain ⟨informed, sent⟩ := connected_informed host before buffer later
      have linked : ((before.connected host buffer later).respond launch.request
          (.success .nothing)).state.connected = true := informed.connected
      obtain ⟨written, last⟩ := sendAnyway_connected host linked .resume
      refine .connected buffer written pending quiet informed ?_ last
      rw [sent, quiet.sent, quiet.breakpoints]
      rfl

/-! ## One lemma for each command -/

section

variable (host : Host ω) {m before : Machine ω} {request : Request}

structure Plain (request : Request) : Prop where
  verb : (verb? request).all Verb.isPlain = true
  unset : verb? request = some .setBreakpoints → wanted? request = none

theorem answered_handled {after : Machine ω} {outcome : Outcome} (plain : Plain request) (quiet : Quiet m before)
    (asked : Asked before after) (uninstalled : outcome.installed = []) :
    Handled host m (.item (.request request)) (after.respond request outcome) :=
  .replied before.state.windowStart plain.verb quiet asked uninstalled plain.unset

theorem stackTrace_handled host (plain : Plain request) (quiet : Quiet m before) :
    Handled host m (.item (.request request)) (before.stackTrace request) := by
  unfold stackTrace
  split
  · exact answered_handled host plain quiet .refl rfl
  · next arguments _ => exact .replied (arguments.startFrame.getD 0) plain.verb quiet .refl rfl plain.unset

theorem scopes_handled host (plain : Plain request) (quiet : Quiet m before) :
    Handled host m (.item (.request request)) (before.scopes request) := by
  unfold scopes
  split
  · exact answered_handled host plain quiet .refl rfl
  · split <;> exact answered_handled host plain quiet .refl rfl

theorem asking : ∀ tag frame expression, Engine.Command.IsInquiry (.evaluate tag frame expression) :=
  fun _ _ _ => trivial

theorem showVariables_handled (plain : Plain request) (quiet : Quiet m before) :
    Handled host m (.item (.request request)) (before.showVariables host request) := by
  unfold showVariables
  split
  · exact answered_handled host plain quiet .refl rfl
  · split
    · exact answered_handled host plain quiet .refl rfl
    · next scope _ =>
      split
      · exact answered_handled host plain quiet (log_background _ _ _ _) rfl
      · next frame _ =>
        split
        next names named looked =>
        split
        next answers after fetched =>
        have first : Quiet before (before.namesIn host frame scope.kind).2 := namesIn_background _ _ _ _
        rw [looked] at first
        have second := fetch_background asking host named (named.state.engineFrame scope.frame) names
        rw [fetched] at second
        exact answered_handled host plain (quiet.trans first) second rfl

theorem setVariable_handled (plain : Plain request) (quiet : Quiet m before) :
    Handled host m (.item (.request request)) (before.setVariable host request) := by
  unfold setVariable
  split
  · exact answered_handled host plain quiet .refl rfl
  · next arguments _ =>
    split
    · exact answered_handled host plain quiet .refl rfl
    · next scope _ =>
      extract_lets frame
      split
      next assignment assigned first =>
      split
      next question asked second =>
      split
      next answer after last =>
      have assigning := evaluate_background asking host before frame (arguments.name ++ "=" ++ arguments.value)
      have questioning := evaluate_background asking host (assigned.forget assignment) frame arguments.name
      have waiting : Asked asked (asked.await host question).2 := await_background host asked question
      rw [first] at assigning
      rw [second] at questioning
      rw [last] at waiting
      exact answered_handled host plain quiet (((assigning.tail (.evaluations _)).trans questioning).trans waiting) rfl

theorem evaluateExpression_handled (plain : Plain request) (quiet : Quiet m before) :
    Handled host m (.item (.request request)) (before.evaluateExpression host request) := by
  unfold evaluateExpression
  split
  · exact answered_handled host plain quiet .refl rfl
  · next arguments _ =>
    split
    · have asked : Asked before (before.send host (.evaluateOnConsole arguments.expression)).2 :=
        send_background host before trivial
      split
      · next after sent =>
        rw [sent] at asked
        exact answered_handled host plain quiet asked rfl
      · next fault after sent =>
        rw [sent] at asked
        exact answered_handled host plain quiet asked rfl
    · extract_lets frame
      split
      next tag asked evaluated =>
      have asking := evaluate_background asking host before frame arguments.expression
      have waiting : Asked asked (asked.await host tag).2 := await_background host asked tag
      rw [evaluated] at asking
      split
      · next answer after awaited =>
        rw [awaited] at waiting
        exact answered_handled host plain quiet (asking.trans waiting) rfl
      · next after awaited =>
        rw [awaited] at waiting
        exact answered_handled host plain quiet (asking.trans waiting) rfl

theorem replace_ofBreakpoints (breakpoints : Breakpoint.Table) (file : String)
    (wanted : List Breakpoint.Wanted) :
    ∀ command ∈ (breakpoints.replace file wanted).1.commands, command.IsOfBreakpoints := by
  intro command member
  rcases List.mem_append.mp member with cleared | set
  · obtain ⟨location, _, rfl⟩ := List.mem_map.mp cleared
    trivial
  · obtain ⟨location, _, rfl⟩ := List.mem_map.mp set
    trivial

theorem setBreakpoints_handled (verb : verb? request = some .setBreakpoints) (quiet : Quiet m before) :
    Handled host m (.item (.request request)) (before.setBreakpoints host request) := by
  have plain (unset : wanted? request = none) : Plain request := ⟨by rw [verb]; rfl, fun _ => unset⟩
  unfold setBreakpoints
  split
  · next fault unreadable => exact answered_handled host (plain (by rw [wanted?, unreadable])) quiet .refl rfl
  · next arguments read =>
    split
    · next unnamed => exact answered_handled host (plain (by simp [wanted?, read, unnamed])) quiet .refl rfl
    · next path named =>
      extract_lets wanted
      have asked : ∃ path', wanted? request = some (path', wanted) ∧
          before.state.resolver.toEngine path = m.state.resolver.toEngine path' := by
        refine ⟨path, ?_, by rw [quiet.resolver]⟩
        rw [wanted?, read]
        simp only [named]
        rfl
      generalize before.state.resolver.toEngine path = file at asked
      rw [quiet.breakpoints]
      split
      next update breakpoints replaced =>
      obtain ⟨rfl, rfl⟩ : update = (m.state.breakpoints.replace file wanted).1 ∧
          breakpoints = (m.state.breakpoints.replace file wanted).2 := by rw [replaced]; exact ⟨rfl, rfl⟩
      extract_lets tracked informed
      have linked : tracked.state.connected = m.state.connected := quiet.connected
      have sent : tracked.sent = m.sent := quiet.sent
      -- without a connection the breakpoints are only remembered
      by_cases connected : tracked.state.connected = true
      · have same : informed = _ := if_pos connected
        rw [same]
        refine .breakpointsSet file wanted verb quiet
          (sendAll_background host tracked (replace_ofBreakpoints _ file wanted)) ?_ asked
        rw [sendAll_sent, if_pos connected, if_pos (linked ▸ connected), sent]
      · have same : informed = tracked := if_neg connected
        rw [same]
        refine .breakpointsSet file wanted verb quiet .refl ?_ asked
        rw [if_neg (linked ▸ connected), List.append_nil]
        exact sent

theorem resume_cases (m : Machine ω) (command : Engine.Command) :
    (m.state.connected = false ∧ m.resume host command = (.error .notConnected, m)) ∨
      m.state.connected = true ∧ (
        (∃ after, Quiet (m.handOver command true) after ∧
          m.resume host command = (.ok (), { after with state := { after.state with
            phase := if m.state.phase = Phase.stopped then .running else m.state.phase } })) ∨
        ∃ reason after, Quiet (m.handOver command false) after ∧
          m.resume host command = (.error (.notWritten reason), after)) := by
  unfold resume
  cases connected : m.state.connected with
  | false =>
    rw [send_unconnected host connected]
    exact .inl ⟨rfl, rfl⟩
  | true =>
    have sent := send_connected host connected command
    generalize m.send host command = sending at sent ⊢
    obtain ⟨result, after⟩ := sending
    dsimp only at sent
    rcases sent with ⟨rfl, quiet⟩ | ⟨⟨reason, rfl⟩, quiet⟩
    · have phase : after.state.phase = m.state.phase := quiet.phase
      refine .inr ⟨rfl, .inl ⟨after, quiet, ?_⟩⟩
      dsimp only
      rw [phase]
      split
      · rfl
      · rw [← phase]
    · exact .inr ⟨rfl, .inr ⟨reason, after, quiet, rfl⟩⟩

theorem resumed_handled {verb : Verb} {command : Engine.Command} (after : Machine ω) (answer : Answer)
    (pausing : Bool) (named : verb? request = some verb) (resumption : verb.resumption? = some command)
    (quiet : Quiet m before) (connected : before.state.connected = true)
    (sent : Quiet (before.handOver command true) after)
    (paused : pausing = (verb = .pause || after.state.pausePending))
    (uninstalled : (Outcome.success answer).installed = []) :
    Handled host m (.item (.request request)) ({ after with state := { after.state with
      phase := if before.state.phase = Phase.stopped then .running else before.state.phase
      pausePending := pausing } }.respond request (.success answer)) := by
  have same : after.state.pausePending = m.state.pausePending := sent.pausePending.trans quiet.pausePending
  rw [same] at paused
  rw [quiet.phase]
  exact .resumed answer pausing named resumption (quiet.connected ▸ connected) quiet sent paused uninstalled

/-- Whatever is no pause leaves alone whether one is asked for. -/
theorem unpaused {verb : Verb} (other : verb ≠ .pause) (pausing : Bool) :
    pausing = (verb = .pause || pausing) := by
  simp [other]

theorem continueExecution_handled (verb : verb? request = some .resume) (quiet : Quiet m before) :
    Handled host m (.item (.request request)) (before.continueExecution host request) := by
  unfold continueExecution
  rcases resume_cases host before .resume with ⟨unconnected, same⟩ |
    ⟨connected, ⟨after, sent, same⟩ | ⟨reason, after, failed, same⟩⟩
  · rw [same]
    exact .notResumed verb rfl (quiet.connected ▸ unconnected) quiet
  · rw [same]
    exact resumed_handled host after .continued after.state.pausePending verb rfl quiet connected sent
      (unpaused Verb.noConfusion _) rfl
  · rw [same]
    exact .notWritten reason verb rfl (quiet.connected ▸ connected) quiet failed

theorem step_handled {verb : Verb} {command : Engine.Command} (named : verb? request = some verb)
    (resumption : verb.resumption? = some command) (other : verb ≠ .pause) (quiet : Quiet m before) :
    Handled host m (.item (.request request)) (before.step host request command) := by
  unfold step
  rcases resume_cases host before command with ⟨unconnected, same⟩ |
    ⟨connected, ⟨after, sent, same⟩ | ⟨reason, after, failed, same⟩⟩
  · rw [same]
    exact .notResumed named resumption (quiet.connected ▸ unconnected) quiet
  · rw [same]
    exact resumed_handled host after .nothing after.state.pausePending named resumption quiet connected sent
      (unpaused other _) rfl
  · rw [same]
    exact .notWritten reason named resumption (quiet.connected ▸ connected) quiet failed

theorem pause_handled (verb : verb? request = some .pause) (quiet : Quiet m before) :
    Handled host m (.item (.request request)) (before.pause host request) := by
  unfold pause
  rcases resume_cases host before .stepIn with ⟨unconnected, same⟩ |
    ⟨connected, ⟨after, sent, same⟩ | ⟨reason, after, failed, same⟩⟩
  · rw [same]
    exact .notResumed verb rfl (quiet.connected ▸ unconnected) quiet
  · rw [same]
    exact resumed_handled host after .nothing true verb rfl quiet connected sent rfl rfl
  · rw [same]
    exact .notWritten reason verb rfl (quiet.connected ▸ connected) quiet failed

theorem launch_handled (verb : verb? request = some .launch) (quiet : Quiet m before)
    (world : before.world = m.world) :
    Handled host m (.item (.request request)) (before.launch host request) := by
  unfold launch
  rw [quiet.phase, quiet.pendingLaunch]
  split
  · next started => exact .repeated verb started quiet
  · next free =>
    have idle : m.state.phase = .idle := Classical.not_not.mp fun other => free (.inl other)
    have none : m.state.pendingLaunch = none := Option.not_isSome_iff_eq_none.mp fun pending => free (.inr pending)
    split
    · next fault unreadable => exact .unreadable fault verb idle none unreadable quiet
    · next arguments read =>
      split
      · next reason homeless =>
        rw [workspace, world] at homeless
        exact .homeless arguments reason verb idle none read homeless quiet
      · next folder _ =>
        extract_lets _ resolved logged _ remembered
        have ready : Quiet { before with state := { before.state with
            resolver := .new folder arguments.rootDir, tracing := before.state.tracing || arguments.trace,
            pendingLaunch := some ⟨request, arguments⟩ } } remembered := log_background _ _ _ _
        have configured : remembered.state.configured = m.state.configured := ready.configured.trans quiet.configured
        split
        · next done =>
          exact .started arguments _ _ verb idle none (configured ▸ done) read quiet ready
            (startLaunch_launched host remembered)
        · next undone =>
          exact .putOff arguments _ _ verb idle none (configured ▸ Bool.not_eq_true _ ▸ undone) read quiet
            ready

theorem handleRequest_handled (request : Request) (m : Machine ω) :
    Handled host m (.item (.request request)) (m.handleRequest host request) := by
  unfold handleRequest
  extract_lets before
  have quiet : Quiet m before := log_background _ _ _ _
  have verb : verb? request = Verb.ofCommand? request.command := rfl
  cases named : Verb.ofCommand? request.command with
  | none =>
    rw [named] at verb
    exact answered_handled host ⟨by rw [verb]; rfl, by rw [verb]; nofun⟩ quiet .refl rfl
  | some v =>
    rw [named] at verb
    have plain (bearing : v.isPlain = true) (other : v ≠ .setBreakpoints) : Plain request :=
      ⟨by rw [verb]; exact bearing, fun set => absurd (Option.some.inj (verb.symm.trans set)) other⟩
    cases v with
    | introduce => exact .introduced verb quiet
    | launch => exact launch_handled host verb quiet rfl
    | configurationDone => exact .configured verb quiet (startLaunch_launched host _)
    | setBreakpoints => exact setBreakpoints_handled host verb quiet
    | threads => exact answered_handled host (plain rfl Verb.noConfusion) quiet .refl rfl
    | stackTrace => exact stackTrace_handled host (plain rfl Verb.noConfusion) quiet
    | scopes => exact scopes_handled host (plain rfl Verb.noConfusion) quiet
    | showVariables => exact showVariables_handled host (plain rfl Verb.noConfusion) quiet
    | setVariable => exact setVariable_handled host (plain rfl Verb.noConfusion) quiet
    | resume => exact continueExecution_handled host verb quiet
    | next | stepIn | stepOut => exact step_handled host verb rfl Verb.noConfusion quiet
    | pause => exact pause_handled host verb quiet
    | evaluate => exact evaluateExpression_handled host (plain rfl Verb.noConfusion) quiet
    | disconnect => exact .disconnected verb quiet

end

/-! ## What the engine reports -/

theorem state_announceAll (m : Machine ω) (notices : List Notice) : (m.announceAll notices).state = m.state := by
  induction notices generalizing m with
  | nil => rfl
  | cons notice rest ih => exact ih (m.announce notice)

theorem ended_announceAll (m : Machine ω) (notices : List Notice) : (m.announceAll notices).ended = m.ended := by
  induction notices generalizing m with
  | nil => rfl
  | cons notice rest ih => exact ih (m.announce notice)

theorem announceAll_withState (m : Machine ω) (notices : List Notice) (state : State) :
    { m.announceAll notices with state := state } = { m with state := state }.announceAll notices := by
  induction notices generalizing m with
  | nil => rfl
  | cons notice rest ih => exact ih (m.announce notice)

theorem stopForPause_announceAll (m : Machine ω) (notices : List Notice) :
    (m.announceAll notices).stopForPause =
      { m with state := { m.state with phase := .stopped } }.announceAll (notices ++ [Notice.stopped .pause]) := by
  unfold stopForPause
  rw [state_announceAll, announceAll_withState, announceAll, announceAll, List.foldl_append]
  rfl

theorem notices_lasting (s : State) (item : Item) : ∀ notice ∈ item.notices s, notice ≠ .terminated := by
  intro notice member
  rcases List.mem_append.mp member with member | member
  · unfold Item.news at member
    split at member
    · rw [List.mem_singleton.mp member]
      exact Notice.noConfusion
    · rw [List.mem_singleton.mp member]
      exact Notice.noConfusion
    · obtain ⟨location, _, rfl⟩ := List.mem_map.mp member
      exact Notice.noConfusion
    · obtain ⟨location, _, rfl⟩ := List.mem_map.mp member
      exact Notice.noConfusion
    · rw [List.mem_singleton.mp member]
      exact Notice.noConfusion
    · cases member
  · obtain ⟨reason, _, rfl⟩ := List.mem_map.mp member
    exact Notice.noConfusion

theorem phaseAfter_report (s : State) {item : Item} (report : item.isReport = true) :
    item.phaseAfter s = s.phase ∨
      item.isReport = true ∧ (item.phaseAfter s = .running ∨ item.phaseAfter s = .stopped) := by
  unfold Item.phaseAfter
  split
  · exact .inr ⟨report, .inr rfl⟩
  · unfold Item.going
    split
    · exact .inr ⟨report, .inl rfl⟩
    · exact .inl rfl

def report (m before : Machine ω) (item : Item) : Machine ω :=
  { before with state := { before.state with
    stack := item.frames?.getD m.state.stack, phase := item.phaseAfter m.state, pausePending := false
    breakpoints := item.follow m.state.breakpoints } }.announceAll (item.notices m.state)

/-- A pause that was waited for is told after all else. -/
theorem unstopped_report {m : Machine ω} (before : Machine ω) {item : Item} (report : item.isReport = true)
    (running : item.frames? = none) :
    (if m.state.pausePending then
      ({ before with state := { before.state with
        stack := m.state.stack, phase := item.going m.state, pausePending := false
        breakpoints := item.follow m.state.breakpoints } }.announceAll (item.news m.state)).stopForPause
    else
      { before with state := { before.state with
        stack := m.state.stack, phase := item.going m.state, pausePending := false
        breakpoints := item.follow m.state.breakpoints } }.announceAll (item.news m.state)) =
      m.report before item := by
  have stop : item.stop? m.state = if m.state.pausePending then some .pause else none := by
    rw [Item.stop?, report, running, Bool.true_and, Option.map_none]
  unfold Machine.report
  rw [running, Item.phaseAfter, Item.notices, stop]
  split
  · rw [stopForPause_announceAll]
    rfl
  · exact congrArg _ (List.append_nil _).symm

theorem handleEvent_report (m : Machine ω) (event : Engine.Event) :
    ∃ before, Quiet m before ∧ m.handleEvent event = m.report before (.engineEvent event) := by
  have told (before : Machine ω) (quiet : Quiet m before) (running : (Item.engineEvent event).frames? = none) :
      ∃ before, Quiet m before ∧ _ = m.report before (.engineEvent event) :=
    ⟨before, quiet, unstopped_report before rfl running⟩
  cases event with
  | stopped frames =>
    -- the stop is the pause
    refine ⟨m, .refl, ?_⟩
    have stop : (Item.engineEvent (.stopped frames)).stop? m.state = some
        (if m.state.pausePending then .pause else State.stopReason m.state.breakpoints frames) := by
      unfold Item.stop?
      cases m.state.pausePending <;> rfl
    unfold report
    rw [Item.phaseAfter, Item.notices, stop]
    rfl
  | consoleOutput text => exact told m .refl rfl
  | running => exact told m .refl rfl
  | breakpointCleared file line =>
    have told := told m .refl rfl
    unfold handleEvent
    rw [Item.news, Item.follow] at told
    dsimp only
    split
    · next location breakpoints cleared =>
      rw [show m.state.breakpoints.clearLine file line = _ from cleared] at told
      exact told
    · next breakpoints unknown =>
      rw [show m.state.breakpoints.clearLine file line = _ from unknown] at told
      exact told
  | breakpointMoved file line newLine =>
    have told := told m .refl rfl
    unfold handleEvent
    rw [Item.news, Item.follow] at told
    dsimp only
    split
    · next location breakpoints moved =>
      rw [show m.state.breakpoints.moveLine file line newLine = _ from moved] at told
      exact told
    · next breakpoints unknown =>
      rw [show m.state.breakpoints.moveLine file line newLine = _ from unknown] at told
      exact told
  | evaluated tag value | pass token | unknown line => exact told (m.log .debug "remote" _) (log_background _ _ _ _) rfl

theorem report_handled {host : Host ω} {m before : Machine ω} {item : Item} (report : item.isReport = true)
    (quiet : Quiet m before) :
    Handled host m (.item item) (m.report before item) := by
  have request : ∀ request, item ≠ .request request := by
    rintro request rfl
    cases report
  have closed : item ≠ .clientClosed := by
    rintro rfl
    cases report
  have farewell : item.isFarewell = false := by cases item <;> first | rfl | cases report
  have unpaused : false = (m.state.pausePending && !item.isReport) := by
    rw [report, Bool.not_true, Bool.and_false]
  exact .announced before _ _ false _ request closed farewell quiet (notices_lasting m.state item)
    (phaseAfter_report m.state report) rfl rfl unpaused rfl

theorem engineGone_handled {host : Host ω} {m before : Machine ω} {item : Item} (farewell : item.isFarewell = true)
    (quiet : Quiet m before) : Handled host m (.item item) before.engineGone := by
  have handled : Handled host m (.item item) _ := .parted farewell quiet
  rw [← quiet.phase] at handled
  unfold engineGone
  extract_lets gone _ parted
  split
  · next same =>
    rw [if_pos same] at handled
    exact handled
  · next other =>
    rw [if_neg other] at handled
    exact handled

theorem handleItem_handled (host : Host ω) (m : Machine ω) (item : Item) :
    Handled host m (.item item) (m.handleItem host item) := by
  cases item with
  | request request => exact handleRequest_handled host request m
  | clientClosed => exact .left (log_background _ _ _ _)
  | engineEvent event =>
    obtain ⟨before, quiet, same⟩ := handleEvent_report m event
    rw [show m.handleItem host (.engineEvent event) = _ from same]
    exact report_handled rfl quiet
  | lineConsumed =>
    have same : m.handleItem host .lineConsumed = m.report m .lineConsumed := by
      rw [← unstopped_report (m := m) m rfl rfl]
      dsimp only [handleItem]
      split
      · rfl
      · next unpaused =>
        rw [← Bool.eq_false_iff.mpr unpaused]
        rfl
    rw [same]
    exact report_handled rfl .refl
  | engineClosed => exact engineGone_handled rfl (log_background _ _ _ _)
  | engineFailed reason => exact engineGone_handled rfl (log_background _ _ _ _)
  | logLine text =>
    exact .announced m m.state.stack m.state.phase m.state.pausePending _ (fun _ => Item.noConfusion)
      Item.noConfusion rfl .refl (notices_lasting m.state _) (.inl rfl) rfl rfl (Bool.and_true _).symm rfl

theorem meet_handled (host : Host ω) (m : Machine ω) (occasion : Occasion) :
    Handled host m occasion (m.meet host occasion) := by
  cases occasion with
  | item item => exact handleItem_handled host m item
  | overdue waited => exact .overdue (log_background _ _ _ _) (startLaunch_launched host _)

/-! ## What is kept in all cases -/

theorem sent_respond (m : Machine ω) (request : Request) (outcome : Outcome) :
    (m.respond request outcome).sent = m.sent :=
  (sent_record m _).trans (List.append_nil _)

theorem unwritten_respond (m : Machine ω) (request : Request) (outcome : Outcome) :
    (m.respond request outcome).unwritten = m.unwritten :=
  (unwritten_record m _).trans (List.append_nil _)

theorem sent_announceAll (m : Machine ω) (notices : List Notice) : (m.announceAll notices).sent = m.sent := by
  induction notices generalizing m with
  | nil => rfl
  | cons notice rest ih =>
    have first : (m.announce notice).sent = m.sent := (sent_record m _).trans (List.append_nil _)
    exact (ih (m.announce notice)).trans first

theorem waiting_announceAll (m : Machine ω) (notices : List Notice) :
    (m.announceAll notices).waiting = m.waiting := by
  induction notices generalizing m with
  | nil => rfl
  | cons notice rest ih => exact ih (m.announce notice)

section

variable {host : Host ω} {m m' : Machine ω}

theorem Launched.waiting (launched : Launched host m m') : m'.waiting = m.waiting := by
  cases launched with
  | nothing => rfl
  | connected _ _ _ quiet informed _ last => exact last.waiting.trans (informed.waiting.trans quiet.waiting)
  | failed _ _ _ _ quiet => exact quiet.waiting

/-- Whatever is handled, no request is added and none is taken away. -/
theorem Handled.waiting {occasion : Occasion} (handled : Handled host m occasion m') : m'.waiting = m.waiting := by
  cases handled with
  | replied _ _ quiet asked => exact asked.waiting.trans quiet.waiting
  | introduced _ quiet | disconnected _ quiet | left quiet => exact quiet.waiting
  | notResumed _ _ _ quiet | repeated _ _ quiet | unreadable _ _ _ _ _ quiet
  | homeless _ _ _ _ _ _ _ quiet => exact quiet.waiting
  | notWritten _ _ _ _ quiet failed => exact failed.waiting.trans quiet.waiting
  | breakpointsSet _ _ _ quiet informed _ => exact informed.waiting.trans quiet.waiting
  | resumed _ _ _ _ _ quiet sent => exact sent.waiting.trans quiet.waiting
  | putOff _ _ _ _ _ _ _ _ quiet ready => exact ready.waiting.trans quiet.waiting
  | started _ _ _ _ _ _ _ _ quiet ready launched =>
    exact launched.waiting.trans (ready.waiting.trans quiet.waiting)
  | configured _ quiet launched => exact launched.waiting.trans quiet.waiting
  | announced before _ _ _ notices _ _ _ quiet _ _ => exact (waiting_announceAll _ notices).trans quiet.waiting
  | parted _ quiet => exact (waiting_announceAll _ _).trans quiet.waiting
  | overdue quiet launched => exact launched.waiting.trans quiet.waiting

end

end DebugBridge.Session.Machine
