import DebugBridge.Proofs.Session.Exchange
import DebugBridge.Proofs.Session.Frames

/-! The variables of a scope, as they are listed to the client.

Each name is asked for under a tag of its own, and its value is the first answer to that tag, whenever and in whatever
order the engine answers. -/

set_option autoImplicit false

namespace DebugBridge.Session

open Protocol

variable {ω : Type}

def Turn.happenings (turn : Turn ω) : List Happening := turn.after.transcript.drop turn.before.transcript.length

def Inspection.verb : Inspection → Verb
  | .stack _ _ => .stackTrace
  | .scopes _ => .scopes
  | .scopeVariables _ => .showVariables
  | .assignment _ _ _ => .setVariable
  | .expression _ _ _ => .evaluate

theorem verb_of_inspection {request : Request} {inspection : Inspection}
    (asks : inspection? request = some inspection) : verb? request = some inspection.verb := by
  rw [inspection?] at asks
  split at asks
  · next verb =>
    obtain ⟨_, -, rfl⟩ := Option.map_eq_some_iff.mp asks
    exact verb
  · next verb =>
    obtain ⟨_, -, rfl⟩ := Option.map_eq_some_iff.mp asks
    exact verb
  · next verb =>
    obtain ⟨_, -, read⟩ := Option.bind_eq_some_iff.mp asks
    obtain ⟨_, -, rfl⟩ := Option.map_eq_some_iff.mp read
    exact verb
  · next verb =>
    obtain ⟨_, -, read⟩ := Option.bind_eq_some_iff.mp asks
    obtain ⟨_, -, rfl⟩ := Option.map_eq_some_iff.mp read
    exact verb
  · next verb =>
    obtain ⟨arguments, -, read⟩ := Option.bind_eq_some_iff.mp asks
    split at read
    · cases read
    · obtain rfl := Option.some.inj read
      exact verb
  · cases asks

namespace Machine

/-! ## What happens while values are fetched -/

/-- From one state to another some things happen, and of the evaluations becomes what they make of them. -/
structure Follows (m : Machine ω) (happened : List Happening) (m' : Machine ω) : Prop where
  transcript : m'.transcript = m.transcript ++ happened
  correlator : m'.state.correlator = through m.state.correlator happened
  connected : m'.state.connected = m.state.connected
  nextSeq : m'.nextSeq = m.nextSeq

section

variable {host : Host ω} {m m' n : Machine ω} {happened more : List Happening}

theorem Follows.trans (first : Follows m happened m') (second : Follows m' more n) :
    Follows m (happened ++ more) n where
  transcript := by rw [second.transcript, first.transcript, List.append_assoc]
  correlator := by rw [second.correlator, first.correlator, through_append]
  connected := second.connected.trans first.connected
  nextSeq := second.nextSeq.trans first.nextSeq

/-- What is no part of it may change. -/
theorem follows_nothing (transcript : m'.transcript = m.transcript)
    (correlator : m'.state.correlator = m.state.correlator) (connected : m'.state.connected = m.state.connected)
    (nextSeq : m'.nextSeq = m.nextSeq) : Follows m [] m' :=
  ⟨by rw [transcript, List.append_nil], correlator, connected, nextSeq⟩

theorem follows_refl (m : Machine ω) : Follows m [] m := follows_nothing rfl rfl rfl rfl

theorem Follows.silently (first : Follows m happened m') (second : Follows m' [] n) : Follows m happened n := by
  simpa using first.trans second

theorem Logs.follows (logs : Logs m m') : Follows m [] m' := by
  obtain ⟨inbox, rfl⟩ := logs
  exact follows_nothing rfl rfl rfl rfl

theorem log_follows (m : Machine ω) (level : Log.Level) (target message : String) :
    Follows m [] (m.log level target message) := Logs.follows ⟨_, rfl⟩

theorem receiveLine_follows (m : Machine ω) (line : String) : Follows m [.arrived line] (m.receiveLine line) where
  transcript := by
    unfold receiveLine
    extract_lets heard
    have before : heard.transcript = m.transcript ++ [.arrived line] :=
      ((logWarnings_logs _ line).follows.transcript).trans (List.append_nil _)
    split
    · split <;> exact before
    · exact before
    · exact before
  correlator := (takesIn_receiveLine m line).resolved
  connected := by rw [(receiveLine_listens m line).state]
  nextSeq := (receiveLine_listens m line).nextSeq

theorem receiveLines_follows (m : Machine ω) (lines : List String) :
    Follows m (lines.map .arrived) (lines.foldl receiveLine m) := by
  induction lines generalizing m with
  | nil => exact follows_refl m
  | cons line rest ih => exact (receiveLine_follows m line).trans (ih _)

theorem receiveChunk_follows (m : Machine ω) (chunk : List UInt8) :
    ∃ lines : List String, Follows m (lines.map .arrived) (m.receiveChunk chunk) := by
  unfold receiveChunk
  split
  · exact ⟨[], follows_refl m⟩
  · next buffer _ =>
    have buffered : Follows m [] { m with reader := some (buffer.push chunk).drain.2 } :=
      follows_nothing rfl rfl rfl rfl
    exact ⟨_, buffered.trans (receiveLines_follows _ _)⟩

theorem receiveEnd_follows (m : Machine ω) (ending : Engine.StreamEnd) : Follows m [] (m.receiveEnd ending) := by
  unfold receiveEnd
  split <;> exact follows_nothing rfl rfl rfl rfl

theorem receive_follows (m : Machine ω) (incoming : Engine.Incoming) :
    ∃ lines : List String, Follows m (lines.map .arrived) (m.receive incoming) := by
  have chunks : ∃ lines : List String, Follows m (lines.map .arrived) (incoming.chunks.foldl receiveChunk m) := by
    induction incoming.chunks generalizing m with
    | nil => exact ⟨[], follows_refl m⟩
    | cons chunk rest ih =>
      obtain ⟨first, before⟩ := receiveChunk_follows m chunk
      obtain ⟨second, after⟩ := ih (m.receiveChunk chunk)
      exact ⟨first ++ second, by rw [List.map_append]; exact before.trans after⟩
  obtain ⟨lines, heard⟩ := chunks
  exact ⟨lines, heard.silently (receiveEnd_follows _ incoming.ending)⟩

theorem send_follows {command : Engine.Command} {after : Machine ω} (sent : m.send host command = (.ok (), after)) :
    ∃ lines : List String, Follows (m.record (.sent command)) (lines.map .arrived) after := by
  unfold send at sent
  split at sent
  · extract_lets asked at sent
    split at sent
    · next incoming world _ =>
      cases sent
      have logged : Follows (m.record (.sent command)) [] { asked with world := world } :=
        follows_nothing rfl rfl rfl rfl
      obtain ⟨lines, heard⟩ := receive_follows { asked with world := world } incoming
      exact ⟨lines, logged.trans heard⟩
    · cases sent
  · cases sent

theorem evaluate_follows (host : Host ω) (connected : m.state.connected = true) (frame : Nat) (name : String) :
    ∃ between, Meanwhile (.evaluate m.state.correlator.nextTag frame name) between ∧
      (m.evaluate host frame name).1 = m.state.correlator.nextTag ∧
      Follows m (.sent (.evaluate m.state.correlator.nextTag frame name) :: between)
        (m.evaluate host frame name).2 := by
  rw [evaluate_eq]
  generalize asking : Engine.Command.evaluate m.state.correlator.nextTag frame name = command
  have asked : Follows m [.sent command] (m.issued.record (.sent command)) := by
    subst asking
    exact ⟨rfl, rfl, rfl, rfl⟩
  split
  · next after sent =>
    obtain ⟨lines, heard⟩ := send_follows sent
    exact ⟨_, .arrived lines, rfl, asked.trans heard⟩
  · next fault after unsent =>
    rcases send_error unsent with ⟨unconnected, -⟩ | ⟨inbox, world, rfl⟩
    · cases connected.symm.trans unconnected
    · subst asking
      exact ⟨_, .unwritten, rfl, asked.trans ⟨by rw [handOver_unwritten]; rfl, rfl, rfl, rfl⟩⟩

theorem settle_follows (m : Machine ω) (tag : UInt64) : Follows m [.waited tag] (m.settle tag).2 := ⟨rfl, rfl, rfl, rfl⟩

/-- What is there at the end of a wait, and what arrived until then. What does not wait for an answer is not waited
for. -/
theorem await_follows (host : Host ω) (m : Machine ω) (tag : UInt64) :
    ∃ lines : List String, Follows m (lines.map .arrived ++ [.waited tag]) (m.await host tag).2 ∧
      (m.await host tag).1 = (through m.state.correlator (lines.map .arrived)).answer? tag ∧
      (m.state.correlator.isPending tag = false → lines = []) := by
  unfold await
  split
  · next pending =>
    split
    next incoming world _ =>
    have lingered : Follows m [] { m with world := world } := follows_nothing rfl rfl rfl rfl
    obtain ⟨lines, heard⟩ := receive_follows { m with world := world } incoming
    have waiting (other : m.state.correlator.isPending tag = false) : lines = [] := by cases pending.symm.trans other
    have all := lingered.trans (heard.trans (settle_follows _ tag))
    have answer : ((({ m with world := world }).receive incoming).settle tag).1 =
        (through m.state.correlator (lines.map .arrived)).answer? tag :=
      congrArg (Engine.Correlator.answer? · tag) heard.correlator
    refine ⟨lines, ?_⟩
    split
    · next value settled same =>
      rw [same] at all answer
      exact ⟨all, answer, waiting⟩
    · next settled same =>
      rw [same] at all answer
      exact ⟨all.silently (log_follows _ _ _ _), answer, waiting⟩
  · exact ⟨[], settle_follows m tag, rfl, fun _ => rfl⟩

theorem evaluateAll_follows (host : Host ω) (connected : m.state.connected = true) (frame : Nat) (names : List String) :
    ∃ asked, Asking frame m.state.correlator.nextTag names asked ∧
      Follows m asked (m.evaluateAll host frame names).2 ∧
      (m.evaluateAll host frame names).1 = Engine.successive m.state.correlator.nextTag names.length := by
  induction names generalizing m with
  | nil => exact ⟨[], .done _, follows_refl m, rfl⟩
  | cons name rest ih =>
    obtain ⟨between, meanwhile, tag, first⟩ := evaluate_follows host connected frame name
    obtain ⟨asked, asking, later, tags⟩ := ih (first.connected.trans connected)
    have next := (evaluate_asks host m frame name).2.nextTag
    have next : (m.evaluate host frame name).2.state.correlator.nextTag = m.state.correlator.nextTag + 1 := next
    rw [next] at asking tags
    refine ⟨_, .ask meanwhile asking, first.trans later, ?_⟩
    rw [evaluateAll, List.length_cons, Engine.successive, ← tags, ← tag]

theorem awaitAll_follows (host : Host ω) (m : Machine ω) (tags : List UInt64) :
    ∃ awaited, Awaiting tags awaited ∧ Follows m awaited (m.awaitAll host tags).2 ∧
      (m.awaitAll host tags).1 = answers m.state.correlator awaited := by
  induction tags generalizing m with
  | nil => exact ⟨[], .done, follows_refl m, rfl⟩
  | cons tag rest ih =>
    obtain ⟨lines, first, answer, -⟩ := await_follows host m tag
    obtain ⟨awaited, awaiting, later, more⟩ := ih (m.await host tag).2
    refine ⟨_, .wait lines awaiting, ?_, ?_⟩
    · have all := first.trans later
      rwa [List.append_assoc] at all
    · have here : (m.awaitAll host (tag :: rest)).1 = (m.await host tag).1 ::
          ((m.await host tag).2.awaitAll host rest).1 := rfl
      rw [here, answers_append, answers_unwaited (not_waited_arrived lines), more, answer, first.correlator,
        through_append]
      rfl

theorem fetch_follows (host : Host ω) (m : Machine ω) (connected : m.state.connected = true) (frame : Nat)
    (names : List String) :
    ∃ happened, Fetching frame m.state.correlator.nextTag names happened ∧
      Follows m happened (m.fetch host frame names).2 ∧
      (m.fetch host frame names).1 = answers m.state.correlator happened := by
  fun_induction fetch host m frame names with
  | case1 m names empty =>
    rw [List.isEmpty_iff.mp empty]
    exact ⟨[], .done _, follows_refl m, rfl⟩
  | case2 m names _ tags asked evaluated replies heard awaited more last fetched ih =>
    obtain ⟨put, asking, first, own⟩ := evaluateAll_follows host connected frame (names.take evaluationsInFlight)
    obtain ⟨waited, awaiting, second, replied⟩ := awaitAll_follows host asked tags
    rw [evaluated] at first own
    rw [awaited] at second replied
    dsimp only at first own second replied ⊢
    subst own
    -- the second batch starts where the first has left the tags, with nothing outstanding
    have batch := first.trans second
    obtain ⟨later, fetching, third, followed⟩ := ih (batch.connected.trans connected)
    rw [fetched] at third followed
    dsimp only at third followed
    have next : heard.state.correlator.nextTag =
        m.state.correlator.nextTag + UInt64.ofNat (names.take evaluationsInFlight).length := by
      rw [batch.correlator, through_append, awaiting.nextTag, (asking.outstanding rfl).2]
    rw [next] at fetching
    have few : (names.take evaluationsInFlight).length ≤ evaluationsInFlight := List.length_take_le _ _
    have whole := Fetching.batch few asking awaiting fetching
    have all := batch.trans third
    rw [List.take_append_drop, ← List.append_assoc] at whole
    refine ⟨_, whole, all, ?_⟩
    rw [replied, followed, answers_append, answers_append, answers_unwaited asking.unwaited, List.nil_append,
      ← first.correlator, ← batch.correlator]

theorem namesIn_follows (host : Host ω) (m : Machine ω) (frame : Engine.Frame) (kind : ScopeKind) :
    Follows m [] (m.namesIn host frame kind).2 := by
  unfold namesIn
  extract_lets path
  generalize m.state.scopes.get (host.read m.world) path = looked
  obtain ⟨finding, cache⟩ := looked
  have logs : Follows m [] ({ m with state := { m.state with scopes := cache } }.logFinding path finding) := by
    have cached : Follows m [] { m with state := { m.state with scopes := cache } } :=
      follows_nothing rfl rfl rfl rfl
    cases finding with
    | known scopes => exact cached
    | parsed scopes | unreadable fault => exact cached.trans (log_follows _ _ _ _)
    | unparsable fault => exact cached.trans ((log_follows _ _ _ _).trans (log_follows _ _ _ _))
  dsimp only
  cases finding.scopes? <;> cases kind <;> exact logs

theorem showVariables_follows (host : Host ω) (connected : m.state.connected = true) {request : Request}
    {scope : ScopeReference} {frame : Engine.Frame} (asks : inspection? request = some (.scopeVariables scope))
    (view : m.state.viewFrame? scope.frame = some frame) :
    let names := m.state.names (host.read m.world) frame scope.kind
    ∃ happened, Fetching (m.state.engineFrame scope.frame) m.state.correlator.nextTag names happened ∧
      ∃ asked, Follows m happened asked ∧ m.showVariables host request =
        asked.succeed request (.variableList (shownVariables names (answers m.state.correlator happened))) := by
  have verb : verb? request = some .showVariables := verb_of_inspection asks
  simp only [inspection?, verb] at asks
  unfold showVariables
  cases read : request.argumentsAs VariablesArguments.schema VariablesArguments.ofConformed with
  | error fault => simp [read, Except.toOption] at asks
  | ok arguments =>
    cases decoded : ScopeReference.decode arguments.variablesReference with
    | error fault => simp [read, decoded, Except.toOption] at asks
    | ok other =>
      have same : other = scope := by simpa [read, decoded, Except.toOption] using asks
      subst same
      simp only [decoded, view]
      -- looking the names up asks the engine nothing, so the tags are still those of the request
      obtain ⟨names, cache, listens⟩ := namesIn_listens host m frame other.kind
      have looked := namesIn_follows host m frame other.kind
      generalize m.namesIn host frame other.kind = found at names listens looked
      obtain ⟨_, named⟩ := found
      subst names
      have engineFrame : named.state.engineFrame other.frame = m.state.engineFrame other.frame := by
        rw [listens.state]
        rfl
      obtain ⟨happened, fetching, follows, replies⟩ := fetch_follows host named (looked.connected.trans connected)
        (m.state.engineFrame other.frame) (m.state.names (host.read m.world) frame other.kind)
      rw [looked.correlator, through_nil] at fetching replies
      dsimp only
      rw [engineFrame, replies]
      exact ⟨happened, fetching, _, looked.trans follows, rfl⟩

end

end Machine

/-! ## Listings -/

def listed (names values : List String) : List VariableView :=
  (names.zip values).filterMap fun (name, value) => if value = "\"\"" then none else some ⟨name, value⟩

/-- The variables of a scope are asked for one by one under successive tags, and each is listed with the first answer to
its tag that arrives from when it was asked for to when the wait for it is over. An answer that is late for one is none
for a later one. No more than so many questions are open at a time, and none at the end. -/
structure Turn.FansOut (turn : Turn ω) (request : Request) (frame : Nat) (names : List String) : Prop where
  listing : ∃ values : List String, values.length = names.length ∧
    turn.Answers request (Engine.inquiries turn.before.state.correlator.nextTag frame names)
      (.success (.variableList (listed names values))) ∧
    ∀ earlier name later, names = earlier ++ name :: later → ∃ past between,
      let tag := turn.before.state.correlator.nextTag + UInt64.ofNat earlier.length
      Puts turn.happenings tag frame name past between ∧
        past.filter Happening.isDeed =
          (Engine.inquiries turn.before.state.correlator.nextTag frame earlier).map .sent ∧
        values[earlier.length]? = some ((firstAnswer tag between).getD "Failed to fetch!")
  unmixed : ∀ i j, i < j → j - i < UInt64.size → ∀ line value,
    Engine.Event.decode line = .ok (.evaluated (turn.before.state.correlator.nextTag + UInt64.ofNat i) value) →
    (Happening.arrived line).answer? (turn.before.state.correlator.nextTag + UInt64.ofNat j) = none
  bounded : ∀ past, past <+: turn.happenings → (through turn.before.state.correlator past).pending.length ≤ 64
  followed : turn.after.state.correlator = through turn.before.state.correlator turn.happenings
  settled : turn.after.state.correlator.slots = turn.before.state.correlator.slots

theorem shownVariables_eq (names : List String) (replies : List (Option String)) :
    Machine.shownVariables names replies = listed names (replies.map (·.getD "Failed to fetch!")) := by
  unfold Machine.shownVariables listed
  rw [List.zip_map_right, List.filterMap_map, ← List.filterMap_eq_map, List.filter_filterMap]
  apply List.filterMap_congr
  rintro ⟨name, reply⟩ -
  simp only [Function.comp, Prod.map, Machine.unsetValue, Machine.notFetched, Option.filter_some, bne_iff_ne, ne_eq,
    ite_not, id]

namespace Machine

variable {host : Host ω} {m : Machine ω} {turn : Turn ω} {request : Request}

theorem fansOut_of_fetching {frame : Nat} {names : List String} {happened : List Happening} {asked : Machine ω}
    (fetching : Fetching frame turn.before.state.correlator.nextTag names happened)
    (clear : turn.before.state.correlator.tags = []) (connected : turn.before.state.connected = true)
    (follows : Follows turn.before happened asked)
    (answered : turn.after = asked.succeed request
      (.variableList (shownVariables names (answers turn.before.state.correlator happened)))) :
    turn.FansOut request frame names := by
  rw [shownVariables_eq] at answered
  have said := congrArg Machine.transcript answered
  simp only [succeed, emit, record, follows.transcript, follows.nextSeq, List.append_assoc] at said
  have all : turn.happenings = _ := (congrArg (List.drop turn.before.transcript.length) said).trans List.drop_left
  have settled : turn.after.state.correlator = through turn.before.state.correlator happened := by
    rw [answered]
    exact follows.correlator
  have values : (answers turn.before.state.correlator happened).length = names.length := fetching.length_answers _
  constructor
  case listing =>
    refine ⟨(answers turn.before.state.correlator happened).map (·.getD "Failed to fetch!"), ?_, ?_, ?_⟩
    · rw [List.length_map, values]
    · have deeds := deeds_of ((congrArg (List.filter Happening.isDeed) said).trans (List.filter_append _ _))
      rw [Turn.Answers, deeds, List.filter_append, fetching.deeds, attempts, if_pos connected]
      rfl
    · intro earlier name later split
      obtain ⟨past, between, puts, deeds, answer⟩ := fetching.question clear rfl split
      refine ⟨past, between, ?_, deeds, ?_⟩
      · rw [all]
        exact puts.append _
      · rw [List.getElem?_map, answer]
        rfl
  case unmixed =>
    intro i j before near line value decoded
    simp only [Happening.answer?, decoded, if_neg (Engine.tag_ne before near _)]
  case bounded =>
    intro past begins
    rw [all, List.prefix_concat_iff] at begins
    -- the response is all that is more, and it puts no question
    rcases begins with rfl | within
    · rw [through_append]
      exact fetching.pending clear rfl (List.prefix_refl _)
    · exact fetching.pending clear rfl within
  case followed =>
    rw [settled, all, through_append]
    rfl
  case settled =>
    have cleared := fetching.clear clear rfl
    rw [Engine.Correlator.tags, List.map_eq_nil_iff] at cleared clear
    rw [settled, cleared, clear]

theorem Took.fansOut (took : Took host m turn) (clear : turn.before.state.correlator.tags = [])
    {scope : ScopeReference} {frame : Engine.Frame} (asked : turn.occasion = .item (.request request))
    (asks : inspection? request = some (.scopeVariables scope))
    (view : turn.before.state.viewFrame? scope.frame = some frame) (connected : turn.before.state.connected = true) :
    turn.FansOut request (turn.before.state.engineFrame scope.frame)
      (turn.before.state.names (host.read turn.before.world) frame scope.kind) := by
  have met : ∃ level target message,
      turn.after = (turn.before.log level target message).showVariables host request := by
    rw [took.met, asked]
    simp only [meet, handleItem, handleRequest, show Verb.ofCommand? request.command = _ from verb_of_inspection asks]
    exact ⟨_, _, _, rfl⟩
  obtain ⟨level, target, message, met⟩ := met
  obtain ⟨happened, fetching, fetched, follows, same⟩ := showVariables_follows host
    (m := turn.before.log level target message) connected asks view
  exact fansOut_of_fetching fetching clear connected ((log_follows _ _ _ _).trans follows) (met.trans same)

theorem turns_handle (host : Host ω) {m : Machine ω} {item : Item} {rest : List Item} (going : m.ended = false)
    (first : m.inbox = item :: rest) : m.turns host [.handle] =
      [⟨.item item, { m with inbox := rest }, { m with inbox := rest }.meet host (.item item)⟩] := by
  cases m
  cases going
  cases first
  rfl

/-- For any names, however many, and whatever the engine answers, in whatever order, too late or repeatedly. -/
theorem variables_fanned_out (host : Host ω) {m : Machine ω} (clear : m.state.correlator.tags = [])
    (actions : List Action) : ∀ turn ∈ m.turns host actions, ∀ request scope frame,
    turn.occasion = .item (.request request) → inspection? request = some (.scopeVariables scope) →
    turn.before.state.viewFrame? scope.frame = some frame → turn.before.state.connected = true →
    turn.FansOut request (turn.before.state.engineFrame scope.frame)
      (turn.before.state.names (host.read turn.before.world) frame scope.kind) := by
  intro turn member request scope frame asked asks view connected
  obtain ⟨past, later, all⟩ := List.append_of_mem member
  obtain ⟨earlier, -, took⟩ := turns_split host all
  exact took.fansOut (took.upshot (run_clear_from host clear earlier)).2 asked asks view connected

/-- The engine answers three of four questions, the last first. -/
theorem variables_fanned_out_backwards :
    let host := Surroundings.host "/" 1000
    let script := "function main(%x, %y)\n\x7b\n  %z = %x;\n  %w = %y;\n\x7d\n"
    let world : Surroundings := ⟨⟨[(["ws", "a.cs"], Text.Utf8.encode script)], [["ws"]], []⟩,
      some (.new 2000 [("%x", "5"), ("%y", "\"\""), ("%z", "7")] false 3 [Engine.Simulated.welcome])⟩
    let stopped := (initial host world).run host
      (askAll [launchIn "/ws" "", requestFor "configurationDone" .null] ++ stopAt "BREAK a.cs 3 main\r\n")
    let request : Request := ⟨1, "request", "variables", .object [("variablesReference", .integer 1)]⟩
    ∃ turn ∈ (stopped.post (.request request)).turns host [.handle],
      turn.FansOut request 0 ["%x", "%y", "%z", "%w"] ∧
      (turn.messages.filterMap fun
        | .response _ _ (.success (.variableList shown)) => some shown
        | _ => none) = [[⟨"%x", "5"⟩, ⟨"%z", "7"⟩, ⟨"%w", "Failed to fetch!"⟩]] := by
  intro host script world stopped request
  have idle : stopped.inbox = [] := List.isEmpty_iff.mp (by decide +kernel)
  have first : (stopped.post (.request request)).inbox = [.request request] := by
    rw [post, idle]
    rfl
  have taken := turns_handle host (by decide +kernel) first
  rw [taken]
  refine ⟨_, List.mem_singleton_self _, ?_, by decide +kernel⟩
  have fanned := variables_fanned_out host (m := stopped.post (.request request)) (by decide +kernel) [.handle] _
    (by rw [taken]; exact List.mem_singleton_self _) request ⟨0, .locals⟩ ⟨"a.cs", 3, "main"⟩ rfl rfl
    (by decide +kernel) (by decide +kernel)
  have names : stopped.state.names (host.read stopped.world) ⟨"a.cs", 3, "main"⟩ .locals =
      ["%x", "%y", "%z", "%w"] := by decide +kernel
  have frame : stopped.state.engineFrame 0 = 0 := by decide +kernel
  rw [← names]
  exact frame ▸ fanned

end Machine

end DebugBridge.Session
