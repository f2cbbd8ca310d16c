import DebugBridge.Proofs.Session.History
import DebugBridge.Proofs.Session.Listening

/-! What the handling of one thing leaves behind, exactly, in a session that has nothing outstanding.

Inspections, the requests about a stopped engine, are described in full. Of all else it is said here only that
nothing is left outstanding, and which requests are turned down, since a refusal leaves everything as it was. -/

set_option autoImplicit false

namespace DebugBridge.Session

open Protocol

/-- What is to be seen, or changed, of a stopped engine. Frames are counted from the top of the window. -/
inductive Inspection where
  | stack (start levels : Nat)
  | scopes (frame : Nat)
  | scopeVariables (scope : ScopeReference)
  | assignment (scope : ScopeReference) (name value : String)
  | expression (frame : Nat) (text : String) (context : EvaluateContext)

def shownLevels : Option Nat → Nat
  | none | some 0 => 1000
  | some levels => levels

def inspection? (request : Request) : Option Inspection :=
  match verb? request with
  | some .stackTrace =>
    (request.argumentsAs StackTraceArguments.schema StackTraceArguments.ofConformed).toOption.map fun arguments =>
      .stack (arguments.startFrame.getD 0) (shownLevels arguments.levels)
  | some .scopes =>
    (request.argumentsAs ScopesArguments.schema ScopesArguments.ofConformed).toOption.map fun arguments =>
      .scopes arguments.frameId
  | some .showVariables =>
    (request.argumentsAs VariablesArguments.schema VariablesArguments.ofConformed).toOption.bind fun arguments =>
      (ScopeReference.decode arguments.variablesReference).toOption.map .scopeVariables
  | some .setVariable =>
    (request.argumentsAs SetVariableArguments.schema SetVariableArguments.ofConformed).toOption.bind fun arguments =>
      (ScopeReference.decode arguments.variablesReference).toOption.map fun scope =>
        .assignment scope arguments.name arguments.value
  | some .evaluate =>
    (request.argumentsAs EvaluateArguments.schema EvaluateArguments.ofConformed).toOption.bind fun arguments =>
      if arguments.context = .repl then none
      else some (.expression (arguments.frameId.getD 0) arguments.expression arguments.context)
  | _ => none

def Occasion.inspection? : Occasion → Option Inspection
  | .item (.request request) => Session.inspection? request
  | _ => none

def Occasion.windowStart (start : Nat) (occasion : Occasion) : Nat :=
  match occasion.inspection? with
  | some (.stack first _) => first
  | _ => start

def Happening.refusal? : Happening → Option Refusal
  | .emitted (.response _ _ (.failure cause)) => some cause
  | _ => none

namespace State

def names (s : State) (read : String → Except Source.FileFault (List UInt8)) (frame : Engine.Frame)
    (kind : ScopeKind) : List String :=
  match (s.scopes.get read (s.resolver.toClient frame.file).text).1.scopes?, kind with
  | some scopes, .locals => scopes.localsOf frame.function
  | some scopes, .globals => scopes.globals
  | none, _ => []

def spent (s : State) (tags : Nat) : State :=
  { s with correlator := ⟨s.correlator.nextTag + UInt64.ofNat tags, []⟩ }

end State

inductive Inspected (s : State) (read : String → Except Source.FileFault (List UInt8)) :
    Inspection → State → List Engine.Command → Outcome → Prop where
  | stack (start levels : Nat) : Inspected s read (.stack start levels) { s with windowStart := start } []
      (.success (.stack (s.window start levels)))
  | scopes {frame : Nat} {locals globals : Int64} : ScopeReference.encode ⟨frame, .locals⟩ = .ok locals →
      ScopeReference.encode ⟨frame, .globals⟩ = .ok globals → Inspected s read (.scopes frame) s []
        (.success (.scopes ((s.viewFrame? frame).map fun shown => s.sourceView shown.file) locals globals))
  | unnumbered {frame : Nat} {kind : ScopeKind} {fault : ReferenceFault} :
      ScopeReference.encode ⟨frame, kind⟩ = .error fault →
      Inspected s read (.scopes frame) s [] (.failure (.badReference fault))
  | unframed {scope : ScopeReference} : s.viewFrame? scope.frame = none →
      Inspected s read (.scopeVariables scope) s [] (.success (.variableList []))
  | fetched {scope : ScopeReference} {frame : Engine.Frame} (cache : Scope.Cache) (answers : List (Option String)) :
      s.viewFrame? scope.frame = some frame → Inspected s read (.scopeVariables scope)
        { s.spent (s.names read frame scope.kind).length with scopes := cache }
        (Engine.inquiries s.correlator.nextTag (s.engineFrame scope.frame) (s.names read frame scope.kind))
        (.success (.variableList (Machine.shownVariables (s.names read frame scope.kind) answers)))
  | assigned {scope : ScopeReference} {name value : String} (answer : String) :
      Inspected s read (.assignment scope name value) (s.spent 2)
        (Engine.inquiries s.correlator.nextTag (s.engineFrame scope.frame) [name ++ "=" ++ value, name])
        (.success (.variableValue answer))
  | evaluated {frame : Nat} {text : String} {context : EvaluateContext} (answer : String) :
      Inspected s read (.expression frame text context) (s.spent 1)
        (Engine.inquiries s.correlator.nextTag (s.engineFrame frame) [text]) (.success (.result answer))
  | unanswered {frame : Nat} {text : String} {context : EvaluateContext} :
      Inspected s read (.expression frame text context) (s.spent 1)
        (Engine.inquiries s.correlator.nextTag (s.engineFrame frame) [text])
        (.failure (if context = .hover then .nothingToShow else .notEvaluated))

theorem Inspected.clear {s s' : State} {read : String → Except Source.FileFault (List UInt8)}
    {inspection : Inspection} {commands : List Engine.Command} {outcome : Outcome}
    (inspected : Inspected s read inspection s' commands outcome) (clear : s.correlator.tags = []) :
    s'.correlator.tags = [] := by
  cases inspected with
  | stack | scopes | unnumbered | unframed => exact clear
  | fetched | assigned | evaluated | unanswered => rfl

namespace Machine

variable {ω : Type}

/-- No request is turned down, the window stays, and nothing is left outstanding. -/
structure Granted (m m' : Machine ω) : Prop where
  clear : m'.state.correlator.tags = []
  windowStart : m'.state.windowStart = m.state.windowStart
  said : ∃ said, m'.deeds = m.deeds ++ said ∧ ∀ deed ∈ said, deed.refusal? = none

inductive Tried (host : Host ω) (m : Machine ω) : Machine ω → Prop where
  | nothing : m.state.pendingLaunch = none → Tried host m m
  | connected {m' : Machine ω} : Granted m m' → Tried host m m'
  /-- Only a reader that does not start leaves the connection open. -/
  | failed {m' : Machine ω} {launch : PendingLaunch} (greeting : List Happening) (fault : Engine.ConnectFault) :
      m.state.pendingLaunch = some launch →
      m'.state = { m.state with
        connected := m'.state.connected, pendingLaunch := none, phase := .idle, tracing := false } →
      (host.StartsReaders → m'.state.connected = m.state.connected) →
      m'.deeds = m.deeds ++
        (greeting ++ [.emitted (.response m.nextSeq launch.request (.failure (.notConnected fault)))]) →
      greeting = [] ∨ greeting = [.greeted launch.arguments.password] → Tried host m m'

inductive Upshot (host : Host ω) (m : Machine ω) : Occasion → Machine ω → Prop where
  | inspected {request : Request} {inspection : Inspection} {s : State} {commands : List Engine.Command}
      {outcome : Outcome} {m' : Machine ω} : inspection? request = some inspection →
      Inspected m.state (host.read m.world) inspection s commands outcome → m'.state = s →
      m'.deeds = m.deeds ++ (m.attempts commands ++ [.emitted (.response m.nextSeq request outcome)]) →
      Upshot host m (.item (.request request)) m'
  | refused {request : Request} {cause : Refusal} {m' : Machine ω} : inspection? request = none →
      (∀ fault, cause ≠ .notConnected fault) → m'.state = m.state →
      m'.deeds = m.deeds ++ [.emitted (.response m.nextSeq request (.failure cause))] →
      Upshot host m (.item (.request request)) m'
  /-- The command of a request is handed over and not written. -/
  | unwritten {request : Request} {command : Engine.Command} {cause : Refusal} {m' : Machine ω} :
      inspection? request = none → (∀ fault, cause ≠ .notConnected fault) → m'.state = m.state →
      m'.transcript = m.transcript ++
        [.sent command, .unwritten command, .emitted (.response m.nextSeq request (.failure cause))] →
      Upshot host m (.item (.request request)) m'
  | granted {occasion : Occasion} {m' : Machine ω} : occasion.inspection? = none → Granted m m' →
      Upshot host m occasion m'
  /-- A launch is tried, after what may have been done to that end. -/
  | attempted {occasion : Occasion} {ready m' : Machine ω} : occasion.inspection? = none → Granted m ready →
      ready.state = { m.state with
        resolver := ready.state.resolver, tracing := ready.state.tracing, configured := ready.state.configured
        pendingLaunch := ready.state.pendingLaunch } →
      (∀ launch, ready.state.pendingLaunch = some launch →
        m.state.pendingLaunch = some launch ∨ verb? launch.request = some .launch) →
      Tried host ready m' → Upshot host m occasion m'

end Machine

def Turn.deeds {ω : Type} (turn : Turn ω) : List Happening := turn.after.deeds.drop turn.before.deeds.length

namespace Machine

variable {ω : Type}

/-! ## What is granted -/

section

variable {m m' n : Machine ω}

theorem granted_refl (clear : m.state.correlator.tags = []) : Granted m m :=
  ⟨clear, rfl, [], (List.append_nil _).symm, by simp⟩

theorem Granted.trans (first : Granted m m') (second : Granted m' n) : Granted m n where
  clear := second.clear
  windowStart := second.windowStart.trans first.windowStart
  said := by
    obtain ⟨early, before, fine⟩ := first.said
    obtain ⟨late, after, well⟩ := second.said
    refine ⟨early ++ late, by rw [after, before, List.append_assoc], fun deed member => ?_⟩
    exact (List.mem_append.mp member).elim (fine deed) (well deed)

theorem Granted.listens (granted : Granted m m') (listens : Listens m' n) : Granted m n where
  clear := listens.tags.trans granted.clear
  windowStart := by rw [listens.state]; exact granted.windowStart
  said := by
    rw [listens.deeds]
    exact granted.said

theorem Granted.record (granted : Granted m m') {h : Happening} (deed : h.isDeed = true) (fine : h.refusal? = none) :
    Granted m (m'.record h) where
  clear := granted.clear
  windowStart := granted.windowStart
  said := by
    obtain ⟨early, before, well⟩ := granted.said
    refine ⟨early ++ [h], by rw [deeds_record m' deed, before, List.append_assoc], fun other member => ?_⟩
    rcases List.mem_append.mp member with member | member
    · exact well other member
    · rwa [List.mem_singleton.mp member]

theorem Granted.become (granted : Granted m m') (windowStart : n.state.windowStart = m'.state.windowStart)
    (correlator : n.state.correlator = m'.state.correlator) (deeds : n.deeds = m'.deeds) : Granted m n where
  clear := by rw [correlator]; exact granted.clear
  windowStart := windowStart.trans granted.windowStart
  said := deeds ▸ granted.said

theorem Granted.succeed (granted : Granted m m') (request : Request) (answer : Answer) :
    Granted m (m'.succeed request answer) :=
  (granted.record (h := .emitted (.response m'.nextSeq request (.success answer))) rfl rfl).become rfl rfl rfl

theorem Granted.announce (granted : Granted m m') (notice : Notice) : Granted m (m'.announce notice) :=
  (granted.record (h := .emitted (.event m'.nextSeq notice)) rfl rfl).become rfl rfl rfl

theorem Granted.log (granted : Granted m m') (level : Log.Level) (target message : String) :
    Granted m (m'.log level target message) := granted.listens (log_listens m' level target message)

theorem Granted.send (granted : Granted m m') (host : Host ω) (command : Engine.Command) :
    Granted m (m'.send host command).2 := by
  cases connected : m'.state.connected with
  | true => exact (granted.record rfl rfl).listens (send_listens host connected command)
  | false =>
    rw [send_unconnected host connected]
    exact granted

theorem Granted.sendAnyway (granted : Granted m m') (host : Host ω) (command : Engine.Command) :
    Granted m (m'.sendAnyway host command) := by
  have sent := granted.send host command
  unfold Machine.sendAnyway
  split
  · next after same => rwa [same] at sent
  · next fault after same =>
    rw [same] at sent
    exact sent.log _ _ _

theorem Granted.sendAll (granted : Granted m m') (host : Host ω) (commands : List Engine.Command) :
    Granted m (commands.foldl (fun m command => m.sendAnyway host command) m') := by
  induction commands generalizing m' with
  | nil => exact granted
  | cons command rest ih => exact ih (granted.sendAnyway host command)

end

/-! ## Requests -/

section

variable {host : Host ω} {m : Machine ω} {request : Request}

theorem refuse_upshot {cause : Refusal} (other : inspection? request = none)
    (reached : ∀ fault, cause ≠ .notConnected fault) :
    Upshot host m (.item (.request request)) (m.refuse request cause) :=
  .refused other reached rfl (deeds_record m rfl)

/-- A command that is not sent is either held back or handed over in vain. -/
theorem send_error {command : Engine.Command} {fault : Engine.SendFault} {after : Machine ω}
    (same : m.send host command = (.error fault, after)) :
    m.state.connected = false ∧ after = m ∨
      ∃ inbox world, after = { m.handOver command false with inbox := inbox, world := world } := by
  unfold send at same
  split at same
  · extract_lets handed at same
    split at same
    · cases same
    · cases same
      rw [handOver_unwritten]
      exact .inr ⟨_, _, rfl⟩
  · next unconnected =>
    cases same
    exact .inl ⟨Bool.eq_false_iff.mpr unconnected, rfl⟩

theorem unsent_upshot {command : Engine.Command} {fault : Engine.SendFault} {after : Machine ω} {cause : Refusal}
    (other : inspection? request = none) (same : m.send host command = (.error fault, after))
    (reached : ∀ fault, cause ≠ .notConnected fault) :
    Upshot host m (.item (.request request)) (after.refuse request cause) := by
  rcases send_error same with ⟨-, rfl⟩ | ⟨inbox, world, rfl⟩
  · exact refuse_upshot other reached
  · have transcript : (({ m.handOver command false with inbox := inbox, world := world } : Machine ω).refuse request
        cause).transcript = m.transcript ++
          [.sent command, .unwritten command, .emitted (.response m.nextSeq request (.failure cause))] := by
      rw [handOver_unwritten]
      simp only [refuse, emit, record, List.append_assoc]
      rfl
    exact .unwritten other reached rfl transcript

theorem answer_upshot {inspection : Inspection} {commands : List Engine.Command} {outcome : Outcome}
    {asked : Machine ω} (asks : inspection? request = some inspection)
    (inspected : Inspected m.state (host.read m.world) inspection asked.state commands outcome)
    (seq : asked.nextSeq = m.nextSeq) (deeds : asked.deeds = m.deeds ++ m.attempts commands) :
    Upshot host m (.item (.request request)) (asked.respond request outcome) := by
  refine .inspected asks inspected rfl ?_
  rw [← seq, ← List.append_assoc, ← deeds]
  exact deeds_record asked rfl

theorem shownLevels_eq (levels : Option Nat) :
    (levels.filter (0 < ·)).getD State.defaultLevels = shownLevels levels := by
  cases levels with
  | none => rfl
  | some levels => cases levels <;> rfl

theorem stackTrace_upshot (verb : verb? request = some .stackTrace) :
    Upshot host m (.item (.request request)) (m.stackTrace request) := by
  unfold stackTrace
  split
  · next unreadable =>
    exact refuse_upshot (by simp only [inspection?, verb, unreadable]; rfl) (fun _ => Refusal.noConfusion)
  · next arguments read =>
    have asks : inspection? request = some (.stack (arguments.startFrame.getD 0) (shownLevels arguments.levels)) := by
      simp only [inspection?, verb, read]
      rfl
    rw [shownLevels_eq]
    exact answer_upshot asks (.stack _ _) rfl (deeds_unasked m)

theorem scopes_upshot (verb : verb? request = some .scopes) :
    Upshot host m (.item (.request request)) (m.scopes request) := by
  unfold scopes
  split
  · next unreadable =>
    exact refuse_upshot (by simp only [inspection?, verb, unreadable]; rfl) (fun _ => Refusal.noConfusion)
  · next arguments read =>
    have asks : inspection? request = some (.scopes arguments.frameId) := by
      simp only [inspection?, verb, read]
      rfl
    split
    · next unnumbered => exact answer_upshot asks (.unnumbered unnumbered) rfl (deeds_unasked m)
    · next unnumbered _ => exact answer_upshot asks (.unnumbered unnumbered) rfl (deeds_unasked m)
    · next locals globals => exact answer_upshot asks (.scopes locals globals) rfl (deeds_unasked m)

theorem namesIn_listens (host : Host ω) (m : Machine ω) (frame : Engine.Frame) (kind : ScopeKind) :
    (m.namesIn host frame kind).1 = m.state.names (host.read m.world) frame kind ∧
      ∃ cache, Listens { m with state := { m.state with scopes := cache } } (m.namesIn host frame kind).2 := by
  unfold namesIn State.names
  generalize (m.state.resolver.toClient frame.file).text = path
  dsimp only
  generalize m.state.scopes.get (host.read m.world) path = looked
  obtain ⟨finding, cache⟩ := looked
  have listens : Listens { m with state := { m.state with scopes := cache } }
      ({ m with state := { m.state with scopes := cache } }.logFinding path finding) := by
    cases finding with
    | known scopes => exact listens_refl _
    | parsed scopes | unreadable fault => exact log_listens _ _ _ _
    | unparsable fault => exact (log_listens _ _ _ _).trans (log_listens _ _ _ _)
  dsimp only
  cases finding.scopes? <;> cases kind <;> exact ⟨rfl, cache, listens⟩

theorem showVariables_upshot (clear : m.state.correlator.tags = []) (verb : verb? request = some .showVariables) :
    Upshot host m (.item (.request request)) (m.showVariables host request) := by
  unfold showVariables
  split
  · next unreadable =>
    exact refuse_upshot (by simp only [inspection?, verb, unreadable]; rfl) (fun _ => Refusal.noConfusion)
  · next arguments read =>
    split
    · next fault undecoded =>
      refine refuse_upshot ?_ (fun _ => Refusal.noConfusion)
      simp only [inspection?, verb, read, Except.toOption, Option.bind_some, undecoded]
      rfl
    · next scope decoded =>
      have asks : inspection? request = some (.scopeVariables scope) := by
        simp only [inspection?, verb, read, Except.toOption, Option.bind_some, decoded]
        rfl
      split
      · next unframed => exact answer_upshot asks (.unframed unframed) rfl (deeds_unasked m)
      · next frame framed =>
        obtain ⟨names, cache, listens⟩ := namesIn_listens host m frame scope.kind
        generalize m.namesIn host frame scope.kind = looked at names listens
        obtain ⟨found, named⟩ := looked
        subst names
        have fetched := fetch_asks host named (named.state.engineFrame scope.frame)
          (m.state.names (host.read m.world) frame scope.kind) (listens.tags.trans clear)
        have engineFrame : named.state.engineFrame scope.frame = m.state.engineFrame scope.frame := by
          rw [listens.state]
          rfl
        -- the look-up of the names asks nothing, so the tags go on from where they were
        have all := listens.asks.trans fetched
        rw [engineFrame, listens.nextTag, List.nil_append] at all
        dsimp only
        rw [engineFrame]
        refine answer_upshot asks ?_ all.nextSeq all.deeds
        rw [all.settled, Engine.length_inquiries]
        exact .fetched cache _ framed

theorem setVariable_upshot (clear : m.state.correlator.tags = []) (verb : verb? request = some .setVariable) :
    Upshot host m (.item (.request request)) (m.setVariable host request) := by
  unfold setVariable
  split
  · next unreadable =>
    exact refuse_upshot (by simp only [inspection?, verb, unreadable]; rfl) (fun _ => Refusal.noConfusion)
  · next arguments read =>
    split
    · next fault undecoded =>
      refine refuse_upshot ?_ (fun _ => Refusal.noConfusion)
      simp only [inspection?, verb, read, Except.toOption, Option.bind_some, undecoded]
      rfl
    · next scope decoded =>
      have asks : inspection? request = some (.assignment scope arguments.name arguments.value) := by
        simp only [inspection?, verb, read, Except.toOption, Option.bind_some, decoded]
        rfl
      -- the assignment is dropped before the question is put, so only the question is ever waited for
      have assigned := evaluate_forget_asks host m (m.state.engineFrame scope.frame)
        (arguments.name ++ "=" ++ arguments.value) clear
      have all := assigned.trans
        (evaluate_await_asks host _ (m.state.engineFrame scope.frame) arguments.name assigned.tags)
      rw [assigned.nextTag, Engine.length_inquiries, ← Engine.inquiries_append] at all
      generalize assignment : m.evaluate host _ (arguments.name ++ "=" ++ arguments.value) = first at all ⊢
      dsimp only
      rw [assignment]
      generalize (first.2.forget first.1).evaluate host _ arguments.name = second at all ⊢
      generalize second.2.await host second.1 = last at all ⊢
      refine answer_upshot asks ?_ all.nextSeq all.deeds
      rw [all.settled, Engine.length_inquiries]
      exact .assigned _

theorem evaluateExpression_upshot (clear : m.state.correlator.tags = []) (verb : verb? request = some .evaluate) :
    Upshot host m (.item (.request request)) (m.evaluateExpression host request) := by
  unfold evaluateExpression
  split
  · next unreadable =>
    exact refuse_upshot (by simp only [inspection?, verb, unreadable]; rfl) (fun _ => Refusal.noConfusion)
  · next arguments read =>
    split
    · next console =>
      have other : inspection? request = none := by
        simp only [inspection?, verb, read, Except.toOption, Option.bind_some, if_pos console]
      have sent := (granted_refl clear).send host (.evaluateOnConsole arguments.expression)
      split
      · next after same =>
        rw [same] at sent
        exact .granted other (sent.succeed request _)
      · next fault after same => exact unsent_upshot other same (fun _ => Refusal.noConfusion)
    · next other =>
      have asks : inspection? request = some (.expression (arguments.frameId.getD 0) arguments.expression
          arguments.context) := by
        simp only [inspection?, verb, read, Except.toOption, Option.bind_some, if_neg other]
      have all := evaluate_await_asks host m (m.state.engineFrame (arguments.frameId.getD 0)) arguments.expression clear
      -- with the answer taken for any, what is left depends on no engine
      dsimp only
      generalize Machine.await host _ _ = awaited at all
      obtain ⟨answer, after⟩ := awaited
      have settled := all.settled
      rw [Engine.length_inquiries] at settled
      cases answer with
      | some answer =>
        refine answer_upshot asks ?_ all.nextSeq all.deeds
        rw [settled]
        exact .evaluated answer
      | none =>
        refine answer_upshot asks ?_ all.nextSeq all.deeds
        rw [settled]
        exact .unanswered

theorem setBreakpoints_upshot (clear : m.state.correlator.tags = []) (verb : verb? request = some .setBreakpoints) :
    Upshot host m (.item (.request request)) (m.setBreakpoints host request) := by
  have other : inspection? request = none := by simp only [inspection?, verb]
  unfold setBreakpoints
  split
  · exact refuse_upshot other (fun _ => Refusal.noConfusion)
  · split
    · exact refuse_upshot other (fun _ => Refusal.noConfusion)
    · extract_lets wanted
      split
      next update breakpoints _ =>
      extract_lets changed informed
      have first : Granted m changed := (granted_refl clear).become rfl rfl rfl
      have second : Granted m informed := by
        simp only [informed]
        split
        · exact first.sendAll host update.commands
        · exact first
      exact .granted other (second.succeed request _)

theorem resumption_upshot (clear : m.state.correlator.tags = []) (other : inspection? request = none)
    (command : Engine.Command) (change : Machine ω → Machine ω) (answer : Answer)
    (keeps : ∀ {n}, Granted m n → Granted m (change n)) :
    Upshot host m (.item (.request request)) (match m.resume host command with
      | (.ok (), m) => (change m).succeed request answer
      | (.error fault, m) => m.refuse request (.notResumed command fault)) := by
  have sent := (granted_refl clear).send host command
  unfold resume
  cases same : m.send host command with
  | mk done after =>
    rw [same] at sent
    cases done with
    | error fault => exact unsent_upshot other same (fun _ => Refusal.noConfusion)
    | ok done =>
      refine .granted other ((keeps ?_).succeed request answer)
      dsimp only
      split
      · exact sent.become rfl rfl rfl
      · exact sent

/-! ## Launching -/

theorem connected_granted (host : Host ω) (buffer : Engine.LineBuffer) (later : Engine.Incoming) {n : Machine ω}
    (granted : Granted m n) : Granted m (n.connected host buffer later) := by
  unfold connected
  extract_lets _ reading heard
  have opened : Granted m reading := granted.become rfl rfl rfl
  have listening : Granted m heard := (opened.listens (receiveChunk_listens _ _)).listens (receive_listens _ _)
  exact listening.sendAll host heard.state.breakpoints.replay

/-- A connection that does not come about changes nothing, unless there is nobody to read it. -/
theorem connect_tried (host : Host ω) (clear : m.state.correlator.tags = []) (arguments : LaunchArguments) :
    (∃ fault unconnected greeting, m.connect host arguments = (.error fault, unconnected) ∧
      unconnected.state = { m.state with connected := unconnected.state.connected } ∧
      (host.StartsReaders → unconnected.state.connected = m.state.connected) ∧
      unconnected.nextSeq = m.nextSeq ∧ unconnected.deeds = m.deeds ++ greeting ∧
      (greeting = [] ∨ greeting = [.greeted arguments.password])) ∨
      ∃ after, m.connect host arguments = (.ok (), after) ∧ Granted m after := by
  unfold connect
  split
  · next fault world _ =>
    -- nobody was reached, so not even the password was said
    exact .inl ⟨fault, _, [], rfl, rfl, fun _ => rfl, rfl, (List.append_nil _).symm, .inl rfl⟩
  · next address world _ =>
    extract_lets dialled
    have greeted : (m.record (.greeted arguments.password)).deeds = m.deeds ++ [.greeted arguments.password] :=
      deeds_record m rfl
    split
    · next reason world _ => exact .inl ⟨_, _, _, rfl, rfl, fun _ => rfl, rfl, greeted, .inr rfl⟩
    · next incoming world _ =>
      split
      next ignored outcome _ =>
      extract_lets heard
      have logs : Logs { dialled with world := world } heard := foldl_logs (fun m line => by
        obtain ⟨inbox, same⟩ := logWarnings_logs m line
        exact ⟨_, by rw [logIgnored, same]; rfl⟩) _ ignored
      obtain ⟨inbox, same⟩ := logs
      rw [same]
      split
      · next token buffer later _ =>
        unfold authenticated
        extract_lets logged
        split
        · next world _ =>
          have opened : Granted m { logged with world := world } :=
            ((granted_refl clear).record (h := .greeted arguments.password) rfl rfl).become rfl rfl rfl
          exact .inr ⟨_, rfl, connected_granted host buffer _ opened⟩
        · exact .inl ⟨_, _, _, rfl, rfl, fun _ => rfl, rfl, greeted, .inr rfl⟩
        · next reason world fault =>
          refine .inl ⟨_, _, _, rfl, rfl, fun starts => ?_, rfl, greeted, .inr rfl⟩
          have started := starts logged.world
          rw [fault] at started
          cases started
      -- however else the engine took the password, it leaves the same behind
      all_goals exact .inl ⟨_, _, _, rfl, rfl, fun _ => rfl, rfl, greeted, .inr rfl⟩

theorem startLaunch_tried (host : Host ω) (clear : m.state.correlator.tags = []) :
    Tried host m (m.startLaunch host) := by
  unfold startLaunch
  split
  · next none => exact .nothing none
  · next launch pending =>
    extract_lets _ taken
    have free : Granted m taken := (granted_refl clear).become rfl rfl rfl
    rcases connect_tried (m := taken) host clear launch.arguments with
      ⟨fault, unconnected, greeting, same, state, unread, seq, deeds, greeted⟩ | ⟨after, same, granted⟩
    · rw [same]
      refine .failed greeting fault pending ?_ unread ?_ greeted
      · exact congrArg (fun s : State => { s with phase := .idle, tracing := false }) state
      · have deeds : unconnected.deeds = m.deeds ++ greeting := deeds
        have seq : unconnected.nextSeq = m.nextSeq := seq
        rw [← List.append_assoc, ← seq, ← deeds]
        exact deeds_record unconnected rfl
    · rw [same]
      exact .connected (((free.trans granted).succeed launch.request .nothing).sendAnyway host .resume)

/-- A launch that has to wait, and nothing else, is granted without an answer. -/
theorem launch_upshot (clear : m.state.correlator.tags = []) (verb : verb? request = some .launch) :
    Upshot host m (.item (.request request)) (m.launch host request) := by
  have other : inspection? request = none := by simp only [inspection?, verb]
  unfold launch
  split
  · exact refuse_upshot other (fun _ => Refusal.noConfusion)
  · split
    · exact refuse_upshot other (fun _ => Refusal.noConfusion)
    · split
      · exact refuse_upshot other (fun _ => Refusal.noConfusion)
      · extract_lets _ resolved logged _ remembered
        -- what a launch remembers is no part of what the laws of a turn speak of
        have ready : Granted m remembered := (granted_refl clear).become rfl rfl rfl
        split
        · refine .attempted other ready rfl ?_ (startLaunch_tried host ready.clear)
          rintro _ ⟨⟩
          exact .inr verb
        · exact .granted other ready

theorem configurationDone_upshot (clear : m.state.correlator.tags = [])
    (verb : verb? request = some .configurationDone) :
    Upshot host m (.item (.request request)) (m.configurationDone host request) := by
  have other : inspection? request = none := by simp only [inspection?, verb]
  unfold configurationDone
  extract_lets _ configured
  have done : Granted m configured := (granted_refl clear).become rfl rfl rfl
  exact .attempted other (done.succeed request .nothing) rfl (fun _ => .inl) (startLaunch_tried host clear)

theorem Upshot.unlogged {logged : Machine ω} {occasion : Occasion} {m' : Machine ω} (logs : Logs m logged)
    (upshot : Upshot host logged occasion m') : Upshot host m occasion m' := by
  obtain ⟨inbox, rfl⟩ := logs
  cases upshot with
  | inspected asks inspected state deeds => exact .inspected asks inspected state deeds
  | refused other reached state deeds => exact .refused other reached state deeds
  | unwritten other reached state transcript => exact .unwritten other reached state transcript
  | granted other granted => exact .granted other ⟨granted.clear, granted.windowStart, granted.said⟩
  | attempted other granted state asked tried =>
    exact .attempted other ⟨granted.clear, granted.windowStart, granted.said⟩ state asked tried

theorem handleRequest_upshot (host : Host ω) (request : Request) (clear : m.state.correlator.tags = []) :
    Upshot host m (.item (.request request)) (m.handleRequest host request) := by
  unfold handleRequest
  extract_lets before
  have logs : Logs m before := ⟨_, rfl⟩
  refine .unlogged logs ?_
  have clear : before.state.correlator.tags = [] := clear
  have verb : verb? request = Verb.ofCommand? request.command := rfl
  cases named : Verb.ofCommand? request.command with
  | none =>
    rw [named] at verb
    exact refuse_upshot (by simp only [inspection?, verb]) (fun _ => Refusal.noConfusion)
  | some v =>
    rw [named] at verb
    cases v with
    | introduce =>
      exact .granted (by simp only [Occasion.inspection?, inspection?, verb])
        (((granted_refl clear).succeed request .capabilities).announce .initialized)
    | launch => exact launch_upshot clear verb
    | configurationDone => exact configurationDone_upshot clear verb
    | setBreakpoints => exact setBreakpoints_upshot clear verb
    | threads =>
      exact .granted (by simp only [Occasion.inspection?, inspection?, verb])
        ((granted_refl clear).succeed request .threads)
    | stackTrace => exact stackTrace_upshot verb
    | scopes => exact scopes_upshot verb
    | showVariables => exact showVariables_upshot clear verb
    | setVariable => exact setVariable_upshot clear verb
    | resume => exact resumption_upshot clear (by simp only [inspection?, verb]) .resume id .continued id
    | next => exact resumption_upshot clear (by simp only [inspection?, verb]) .stepOver id .nothing id
    | stepIn => exact resumption_upshot clear (by simp only [inspection?, verb]) .stepIn id .nothing id
    | stepOut => exact resumption_upshot clear (by simp only [inspection?, verb]) .stepOut id .nothing id
    | pause =>
      exact resumption_upshot clear (by simp only [inspection?, verb]) .stepIn
        (fun n => { n with state := { n.state with pausePending := true } }) .nothing
        fun granted => granted.become rfl rfl rfl
    | evaluate => exact evaluateExpression_upshot clear verb
    | disconnect =>
      have parted : Granted before { before with
          state := { before.state with phase := .disconnected, connected := false }, reader := none } :=
        (granted_refl clear).become rfl rfl rfl
      exact .granted (by simp only [Occasion.inspection?, inspection?, verb])
        ((parted.succeed request .nothing).become rfl rfl rfl)

/-! ## All else -/

theorem handleEvent_granted (clear : m.state.correlator.tags = []) (event : Engine.Event) :
    Granted m (m.handleEvent event) := by
  unfold handleEvent
  extract_lets pausing _ unpaused afterwards
  have first : Granted m unpaused := (granted_refl clear).become rfl rfl rfl
  -- a pause that was waited for is reported after whatever the line says, unless that is a stop itself
  have after {n : Machine ω} (granted : Granted m n) : Granted m (afterwards n) := by
    simp only [afterwards]
    split
    · refine Granted.announce ?_ (.stopped .pause)
      exact granted.become rfl rfl rfl
    · exact granted
  cases event with
  | stopped frames =>
    refine Granted.announce ?_ _
    exact first.become rfl rfl rfl
  | consoleOutput text => exact after (first.announce _)
  | running =>
    refine after (Granted.announce ?_ _)
    exact first.become rfl rfl rfl
  | breakpointCleared file line | breakpointMoved file line newLine =>
    dsimp only
    split
    · refine after (Granted.announce ?_ _)
      exact first.become rfl rfl rfl
    · exact after first
  | evaluated tag value | pass token | unknown line => exact after (first.log _ _ _)

theorem engineGone_granted {n : Machine ω} (granted : Granted m n) : Granted m n.engineGone := by
  unfold engineGone
  extract_lets gone _ parted
  have parted : Granted m parted := granted.become rfl rfl rfl
  split
  · exact parted
  · exact parted.announce .terminated

theorem handleItem_upshot (host : Host ω) (item : Item) (clear : m.state.correlator.tags = []) :
    Upshot host m (.item item) (m.handleItem host item) := by
  have unchanged := granted_refl clear
  cases item with
  | request request => exact handleRequest_upshot host request clear
  | clientClosed => exact .granted rfl (unchanged.become rfl rfl rfl)
  | engineEvent event => exact .granted rfl (handleEvent_granted clear event)
  | lineConsumed =>
    refine .granted rfl ?_
    dsimp only [handleItem]
    split
    · refine Granted.announce ?_ (.stopped .pause)
      exact unchanged.become rfl rfl rfl
    · exact unchanged
  | engineClosed => exact .granted rfl (engineGone_granted (unchanged.log _ _ _))
  | engineFailed reason => exact .granted rfl (engineGone_granted (unchanged.log _ _ _))
  | logLine text => exact .granted rfl (unchanged.announce _)

theorem meet_upshot (host : Host ω) (occasion : Occasion) (clear : m.state.correlator.tags = []) :
    Upshot host m occasion (m.meet host occasion) := by
  cases occasion with
  | item item => exact handleItem_upshot host item clear
  | overdue waited =>
    have logged : Granted m (m.log .debug "dap" ("no configurationDone after " ++ Text.showNanoseconds waited ++
      ", connecting anyway")) := (granted_refl clear).log _ _ _
    exact .attempted rfl logged rfl (fun _ => .inl) (startLaunch_tried host clear)

/-! ## Runs -/

theorem Tried.clear {m' : Machine ω} (tried : Tried host m m') (clear : m.state.correlator.tags = []) :
    m'.state.correlator.tags = [] := by
  cases tried with
  | nothing => exact clear
  | connected granted => exact granted.clear
  | failed _ _ _ state => rw [state]; exact clear

theorem Upshot.clear {host : Host ω} {occasion : Occasion} {m' : Machine ω} (upshot : Upshot host m occasion m')
    (clear : m.state.correlator.tags = []) : m'.state.correlator.tags = [] := by
  cases upshot with
  | inspected _ inspected state => rw [state]; exact inspected.clear clear
  | refused _ _ state | unwritten _ _ state => rw [state]; exact clear
  | granted _ granted => exact granted.clear
  | attempted _ granted _ _ tried => exact tried.clear granted.clear

theorem Tried.windowStart {m' : Machine ω} (tried : Tried host m m') :
    m'.state.windowStart = m.state.windowStart := by
  cases tried with
  | nothing => rfl
  | connected granted => exact granted.windowStart
  | failed _ _ _ state => rw [state]

theorem Upshot.windowStart {host : Host ω} {occasion : Occasion} {m' : Machine ω}
    (upshot : Upshot host m occasion m') : m'.state.windowStart = occasion.windowStart m.state.windowStart := by
  cases upshot with
  | inspected asks inspected state =>
    rw [state, Occasion.windowStart, Occasion.inspection?, asks]
    cases inspected <;> rfl
  | refused other _ state | unwritten other _ state =>
    rw [state, Occasion.windowStart, Occasion.inspection?, other]
  | granted other granted => rw [granted.windowStart, Occasion.windowStart, other]
  | attempted other granted _ _ tried => rw [tried.windowStart, granted.windowStart, Occasion.windowStart, other]

theorem act_clear (host : Host ω) (action : Action) (clear : m.state.correlator.tags = []) :
    (m.act host action).state.correlator.tags = [] := by
  cases action with
  | handle =>
    dsimp only [act, handleNext]
    split
    · next item rest _ _ => exact (handleItem_upshot (m := { m with inbox := rest }) host item clear).clear clear
    · exact clear
  | overdue waited =>
    dsimp only [act]
    split
    · exact (meet_upshot host (.overdue waited) clear).clear clear
    · exact clear
  | message json =>
    dsimp only [act, receiveMessage]
    split
    · split <;> exact clear
    · exact clear
  | clientEnd fault => cases fault <;> exact clear
  | engine incoming => exact (receive_listens m incoming).tags.trans clear
  | logLine text => exact clear

/-- Between two things that happen to a session, nothing is outstanding. -/
theorem run_clear_from (host : Host ω) (clear : m.state.correlator.tags = []) (actions : List Action) :
    (m.run host actions).state.correlator.tags = [] := by
  induction actions generalizing m with
  | nil => exact clear
  | cons action rest ih => exact ih (act_clear host action clear)

theorem run_clear (host : Host ω) (world : ω) (actions : List Action) :
    ((initial host world).run host actions).state.correlator.tags = [] :=
  run_clear_from host rfl actions

theorem turn?_took (host : Host ω) {m : Machine ω} {action : Action} {turn : Turn ω}
    (taken : m.turn? host action = some turn) : Took host m turn := by
  have step := act_step host m action
  rw [taken] at step
  generalize action.request?.toList = received, m.act host action = m' at step
  cases step with
  | took took => exact took

/-- A turn of a run is taken after the actions that brought about the turns before it. -/
theorem turns_split (host : Host ω) {m : Machine ω} {actions : List Action} {past later : List (Turn ω)}
    {turn : Turn ω} (all : m.turns host actions = past ++ turn :: later) :
    ∃ earlier, m.turns host earlier = past ∧ Took host (m.run host earlier) turn := by
  induction actions generalizing m past with
  | nil => cases past <;> cases all
  | cons action rest ih =>
    rw [turns] at all
    cases taken : m.turn? host action with
    | none =>
      -- without a turn of its own the action goes before those that bring about the turns
      rw [taken] at all
      obtain ⟨earlier, before, took⟩ := ih all
      exact ⟨action :: earlier, by rw [turns, taken, before]; rfl, took⟩
    | some first =>
      rw [taken] at all
      cases past with
      | nil =>
        cases (List.cons.inj all).1
        exact ⟨[], rfl, turn?_took host taken⟩
      | cons other past =>
        obtain ⟨rfl, remaining⟩ := List.cons.inj all
        obtain ⟨earlier, before, took⟩ := ih remaining
        exact ⟨action :: earlier, by rw [turns, taken, before]; rfl, took⟩

theorem Took.upshot {host : Host ω} {turn : Turn ω} (took : Took host m turn)
    (clear : m.state.correlator.tags = []) : Upshot host turn.before turn.occasion turn.after ∧
      turn.before.state.correlator.tags = [] := by
  have clear : turn.before.state.correlator.tags = [] := by rwa [took.state]
  rw [took.met]
  exact ⟨meet_upshot host turn.occasion clear, clear⟩

/-- What each turn of a run leaves behind. -/
theorem turn_upshot {host : Host ω} {world : ω} {actions : List Action} {turn : Turn ω}
    (member : turn ∈ (initial host world).turns host actions) :
    Upshot host turn.before turn.occasion turn.after ∧ turn.before.state.correlator.tags = [] := by
  obtain ⟨past, later, all⟩ := List.append_of_mem member
  obtain ⟨earlier, -, took⟩ := turns_split host all
  exact took.upshot (run_clear host world earlier)

theorem deeds_of {turn : Turn ω} {said : List Happening} (deeds : turn.after.deeds = turn.before.deeds ++ said) :
    turn.deeds = said := by
  rw [Turn.deeds, deeds, List.drop_left]

end

end Machine

end DebugBridge.Session
