import DebugBridge.Proofs.Session.Queue

/-! Variables that are set, and the values that are read back for them.

The engine is told to assign and asked for the value under the next tag. Two answers are under way then. The first is
dropped before the second is asked for, so only the second can be taken for the value. -/

set_option autoImplicit false

namespace DebugBridge.Engine.Correlator

variable {c : Correlator} {tag : UInt64}

theorem tags_dropped (unknown : tag ∉ c.tags) : (c.tags ++ [tag]).filter (· != tag) = c.tags := by
  have others : c.tags.filter (· != tag) = c.tags := by
    apply List.filter_eq_self.mpr
    rintro other member
    exact bne_iff_ne.mpr (ne_of_mem_of_not_mem member unknown)
  simp [others]

end DebugBridge.Engine.Correlator

namespace DebugBridge.Session

open Protocol

variable {ω : Type}

def assigning (tag : UInt64) (frame : Nat) (name value : String) (early late : List Happening)
    (response : Outcome → Message) : List Happening :=
  .sent (.evaluate tag frame (name ++ "=" ++ value)) :: early ++ .sent (.evaluate (tag + 1) frame name) :: late ++
    [.waited (tag + 1), .emitted (response (.success (.variableValue
      ((firstAnswer (tag + 1) late).getD "Failed to fetch!"))))]

theorem lines_assigning (tag : UInt64) (frame : Nat) (name value : String) (early late : List Happening)
    (response : Outcome → Message) :
    (assigning tag frame name value early late response).filterMap Happening.line? =
      (early ++ late).filterMap Happening.line? := by
  rw [assigning, List.filterMap_append, List.filterMap_append, List.filterMap_cons_none rfl,
    List.filterMap_cons_none rfl, List.filterMap_append]
  exact List.append_nil _

/-- A variable is set and its value read back. The response carries the first answer to the question, never one to the
assignment. All other lines wait until it is given, and are dealt with by the turns that follow, or still wait. -/
structure Turn.ReadsBack (turn : Turn ω) (request : Request) (frame : Nat) (name value : String)
    (later : List (Turn ω)) (final : Machine ω) : Prop where
  exchange : ∃ early late items,
    Meanwhile (.evaluate turn.before.state.correlator.nextTag frame (name ++ "=" ++ value)) early ∧
    Meanwhile (.evaluate (turn.before.state.correlator.nextTag + 1) frame name) late ∧
    turn.happenings = assigning turn.before.state.correlator.nextTag frame name value early late
      (.response turn.before.nextSeq request) ∧
    turn.after.inbox = turn.before.inbox ++ items ∧
    items.filter Item.isReport = ((early ++ late).filterMap Happening.line?).map Item.report ∧
    turn.before.inbox ++ items <+: later.filterMap Turn.item? ++ final.inbox
  unmixed : ∀ line answer,
    Engine.Event.decode line = .ok (.evaluated turn.before.state.correlator.nextTag answer) →
    (Happening.arrived line).answer? (turn.before.state.correlator.nextTag + 1) = none
  gone : turn.before.state.correlator.nextTag ∉ turn.after.state.correlator.tags ∧
    turn.before.state.correlator.nextTag + 1 ∉ turn.after.state.correlator.tags
  others : turn.after.state.correlator.tags = turn.before.state.correlator.tags
  next : turn.after.state.correlator.nextTag = turn.before.state.correlator.nextTag + 2

namespace Machine

def perform (host : Host ω) (m : Machine ω) (frame : Nat) (expression : String) : Machine ω :=
  (m.evaluate host frame expression).2.forget (m.evaluate host frame expression).1

def ask (host : Host ω) (m : Machine ω) (frame : Nat) (expression : String) : Option String × Machine ω :=
  (m.evaluate host frame expression).2.await host (m.evaluate host frame expression).1

section

variable {m : Machine ω}

/-! ## One expression -/

/-- What was performed is forgotten: its answer cannot come to anything any more. -/
theorem perform_happens (host : Host ω) (connected : m.state.connected = true) (frame : Nat) (expression : String) :
    ∃ early, Meanwhile (.evaluate m.state.correlator.nextTag frame expression) early ∧
      (m.perform host frame expression).transcript = m.transcript ++
        .sent (.evaluate m.state.correlator.nextTag frame expression) :: early ∧
      (m.perform host frame expression).state.connected = true ∧
      (m.perform host frame expression).nextSeq = m.nextSeq := by
  obtain ⟨early, meanwhile, -, put⟩ := evaluate_follows host connected frame expression
  exact ⟨early, meanwhile, put.transcript, put.connected.trans connected, put.nextSeq⟩

theorem ask_happens (host : Host ω) (connected : m.state.connected = true) (frame : Nat) (expression : String)
    (unknown : m.state.correlator.nextTag ∉ m.state.correlator.tags) :
    ∃ late, Meanwhile (.evaluate m.state.correlator.nextTag frame expression) late ∧
      Follows m (.sent (.evaluate m.state.correlator.nextTag frame expression) :: late ++
        [.waited m.state.correlator.nextTag]) (m.ask host frame expression).2 ∧
      (m.ask host frame expression).1 = firstAnswer m.state.correlator.nextTag late := by
  obtain ⟨between, meanwhile, own, put⟩ := evaluate_follows host connected frame expression
  obtain ⟨lines, heard, answer, silent⟩ := await_follows host (m.evaluate host frame expression).2
    (m.evaluate host frame expression).1
  have held : m.state.correlator.register.2.slot? m.state.correlator.nextTag = some .waiting := by
    have free := Engine.Correlator.slot?_of_not_mem unknown
    rw [Engine.Correlator.slot?_register _ _ free, if_pos rfl]
  have whole : Meanwhile (.evaluate m.state.correlator.nextTag frame expression)
      (between ++ lines.map .arrived) := by
    cases meanwhile with
    | arrived before =>
      rw [← List.map_append]
      exact .arrived _
    | unwritten =>
      -- a question that was not written is not pending, and so nothing arrives while it is waited for
      have settled := slot?_follow_waiting (h := .unwritten (.evaluate m.state.correlator.nextTag frame expression))
        held Happening.noConfusion
      have idle : (m.evaluate host frame expression).2.state.correlator.isPending
          (m.evaluate host frame expression).1 = false := by
        rw [own, put.correlator, Engine.Correlator.isPending, through_cons, through_cons, through_nil]
        exact (congrArg (· == some Engine.Slot.waiting) settled).trans (by simp [Happening.settles?, heldSlot])
      rw [silent idle]
      exact .unwritten
  refine ⟨_, whole, ?_, ?_⟩
  · have all := put.trans heard
    rw [ask]
    rw [own] at all ⊢
    simpa using all
  · rw [ask, answer, own, put.correlator, through_cons, ← through_append]
    exact answer?_through held (whole.unwaited _)

section

variable (host : Host ω) (frame : Nat) (expression : String)

/-- An expression leaves the tags that are outstanding as they were, if its own is none of them. -/
theorem perform_tags (unknown : m.state.correlator.nextTag ∉ m.state.correlator.tags) :
    (m.perform host frame expression).state.correlator.tags = m.state.correlator.tags ∧
      (m.perform host frame expression).state.correlator.nextTag = m.state.correlator.nextTag + 1 := by
  obtain ⟨own, asks⟩ := evaluate_asks host m frame expression
  have dropped := forget_asks (m.evaluate host frame expression).2 (m.evaluate host frame expression).1
  constructor
  · rw [perform, dropped.tags, asks.tags, own, Engine.Correlator.tags_dropped unknown]
  · exact asks.nextTag

theorem ask_tags (unknown : m.state.correlator.nextTag ∉ m.state.correlator.tags) :
    (m.ask host frame expression).2.state.correlator.tags = m.state.correlator.tags ∧
      (m.ask host frame expression).2.state.correlator.nextTag = m.state.correlator.nextTag + 1 := by
  obtain ⟨own, asks⟩ := evaluate_asks host m frame expression
  have waited := await_asks host (m.evaluate host frame expression).2 (m.evaluate host frame expression).1
  constructor
  · rw [ask, waited.tags, asks.tags, own, Engine.Correlator.tags_dropped unknown]
  · exact (waited.nextTag.trans (UInt64.add_zero _)).trans asks.nextTag

variable (m)

theorem perform_queues : Queues m (m.perform host frame expression) :=
  (evaluate_queues host m frame expression).trans (queues_still rfl rfl)

theorem ask_queues : Queues m (m.ask host frame expression).2 :=
  (evaluate_queues host m frame expression).trans (await_queues host _ _)

end

/-! ## An assignment and the question for its value -/

variable {request : Request} {scope : ScopeReference} {name value : String}
variable (host : Host ω) (asks : inspection? request = some (.assignment scope name value))
include asks

theorem setVariable_eq (m : Machine ω) :
    m.setVariable host request =
      let assigned := m.perform host (m.state.engineFrame scope.frame) (name ++ "=" ++ value)
      let answer := assigned.ask host (m.state.engineFrame scope.frame) name
      answer.2.succeed request (.variableValue (answer.1.getD "Failed to fetch!")) := by
  have verb : verb? request = some .setVariable := verb_of_inspection asks
  simp only [inspection?, verb] at asks
  unfold setVariable
  cases read : request.argumentsAs SetVariableArguments.schema SetVariableArguments.ofConformed with
  | error fault => simp [read, Except.toOption] at asks
  | ok arguments =>
    cases decoded : ScopeReference.decode arguments.variablesReference with
    | error fault => simp [read, decoded, Except.toOption] at asks
    | ok other =>
      obtain ⟨rfl, rfl, rfl⟩ : other = scope ∧ arguments.name = name ∧ arguments.value = value := by
        simpa [read, decoded, Except.toOption] using asks
      simp only [decoded]
      rfl

theorem setVariable_queues (m : Machine ω) : Queues m (m.setVariable host request) := by
  rw [setVariable_eq host asks]
  have assigned := perform_queues m host (m.state.engineFrame scope.frame) (name ++ "=" ++ value)
  exact (assigned.trans (ask_queues _ host _ name)).trans (record_queues _ rfl)

theorem setVariable_happens (connected : m.state.connected = true)
    (unknown : m.state.correlator.nextTag ∉ m.state.correlator.tags)
    (unknownNext : m.state.correlator.nextTag + 1 ∉ m.state.correlator.tags) :
    (∃ early late,
      Meanwhile (.evaluate m.state.correlator.nextTag (m.state.engineFrame scope.frame) (name ++ "=" ++ value)) early ∧
      Meanwhile (.evaluate (m.state.correlator.nextTag + 1) (m.state.engineFrame scope.frame) name) late ∧
      (m.setVariable host request).transcript = m.transcript ++ assigning m.state.correlator.nextTag
        (m.state.engineFrame scope.frame) name value early late (.response m.nextSeq request)) ∧
      (m.setVariable host request).state.correlator.tags = m.state.correlator.tags ∧
      (m.setVariable host request).state.correlator.nextTag = m.state.correlator.nextTag + 2 := by
  rw [setVariable_eq host asks]
  generalize m.state.engineFrame scope.frame = frame
  obtain ⟨early, assignment, said, still, seq⟩ := perform_happens host connected frame (name ++ "=" ++ value)
  obtain ⟨left, passed⟩ := perform_tags host frame (name ++ "=" ++ value) unknown
  generalize m.perform host frame (name ++ "=" ++ value) = assigned at *
  rw [← passed, ← left] at unknownNext
  obtain ⟨late, question, follows, answer⟩ := ask_happens host still frame name unknownNext
  obtain ⟨kept, next⟩ := ask_tags host frame name unknownNext
  refine ⟨⟨early, late, assignment, passed ▸ question, ?_⟩, kept.trans left, ?_⟩
  · simp only [succeed, emit, record, follows.transcript, follows.nextSeq, said, seq, answer, passed, assigning,
      List.append_assoc, List.cons_append, List.nil_append]
  · exact next.trans (by rw [passed, UInt64.add_assoc]; rfl)

end

variable {host : Host ω} {m : Machine ω} {turn : Turn ω}

theorem Took.readsBack (took : Took host m turn) {request : Request} {scope : ScopeReference} {name value : String}
    (asked : turn.occasion = .item (.request request))
    (asks : inspection? request = some (.assignment scope name value)) (connected : turn.before.state.connected = true)
    (unknown : turn.before.state.correlator.nextTag ∉ turn.before.state.correlator.tags)
    (unknownNext : turn.before.state.correlator.nextTag + 1 ∉ turn.before.state.correlator.tags)
    {later : List (Turn ω)} {final : Machine ω}
    (served : turn.after.inbox <+: later.filterMap Turn.item? ++ final.inbox) :
    turn.ReadsBack request (turn.before.state.engineFrame scope.frame) name value later final := by
  have met : ∃ level target message,
      turn.after = (turn.before.log level target message).setVariable host request := by
    rw [took.met, asked]
    simp only [meet, handleItem, handleRequest, show Verb.ofCommand? request.command = _ from verb_of_inspection asks]
    exact ⟨_, _, _, rfl⟩
  obtain ⟨level, target, message, met⟩ := met
  -- what is written to the log on the way brings no line of the engine
  have queues : Queues turn.before turn.after :=
    met ▸ (log_queues turn.before level target message).trans (setVariable_queues host asks _)
  obtain ⟨⟨early, late, assignment, question, said⟩, tags, next⟩ :=
    setVariable_happens (m := turn.before.log level target message) host asks connected unknown unknownNext
  rw [← met] at said tags next
  have happened : turn.happenings = assigning _ _ name value early late _ :=
    (congrArg (List.drop turn.before.transcript.length) said).trans List.drop_left
  constructor
  case exchange =>
    obtain ⟨happenings, items, same, inbox, reports⟩ := queues
    have all : happenings = turn.happenings := by rw [Turn.happenings, same, List.drop_left]
    rw [all, happened, lines_assigning] at reports
    exact ⟨early, late, items, assignment, question, happened, inbox, reports, inbox ▸ served⟩
  case unmixed =>
    intro line answer decoded
    rw [Happening.answer?, decoded]
    exact if_neg (by simp)
  case gone => exact ⟨fun member => unknown (tags ▸ member), fun member => unknownNext (tags ▸ member)⟩
  case others => exact tags
  case next => exact next

/-- From any state, whatever is outstanding there besides the two tags that come next. In a session nothing is, as
`run_clear` says. -/
theorem assignments_read_back (host : Host ω) (m : Machine ω) (actions : List Action) :
    ∀ past turn later, m.turns host actions = past ++ turn :: later → ∀ request scope name value,
    turn.occasion = .item (.request request) → inspection? request = some (.assignment scope name value) →
    turn.before.state.connected = true →
    turn.before.state.correlator.nextTag ∉ turn.before.state.correlator.tags →
    turn.before.state.correlator.nextTag + 1 ∉ turn.before.state.correlator.tags →
    turn.ReadsBack request (turn.before.state.engineFrame scope.frame) name value later (m.run host actions) := by
  intro past turn later all request scope name value asked asks connected unknown unknownNext
  obtain ⟨earlier, -, took⟩ := turns_split host all
  obtain ⟨next, turns, final⟩ := turns_onward host all
  have served := served_in_order host turn.after next
  rw [turns, final] at served
  exact took.readsBack asked asks connected unknown unknownNext served

def reciting : Host (List String) :=
  { dial := fun world _ _ => (.error .wrongPassword, world)
    tell := fun world _ => (.ok ⟨world.head?.toList.map Text.Utf8.encode, .silent⟩, world.tail)
    startReader := fun world => (.ok (), world)
    linger := fun world => (⟨world.head?.toList.map Text.Utf8.encode, .silent⟩, world.tail)
    read := fun _ _ => .error .notFound
    workingFolder := fun _ => .ok "/"
    connectTimeout := 1000 }

/-- The value is answered before it is asked for, then late, and then again, with a stop in between. -/
theorem assignments_read_back_crossed :
    let request : Request := ⟨1, "request", "setVariable", .object [("variablesReference", .integer 11),
      ("name", .string "%x"), ("value", .string "5")]⟩
    let chunks := ["COUT hi\r\nEVALOUT 8 4\r\n", "BREAK a.cs 3 main\r\nEVALOUT 7 5\r\n",
      "EVALOUT 8 6\r\nEVALOUT 8 9\r\n"]
    let blank := initial reciting chunks
    let m : Machine (List String) := { blank with
      state := { blank.state with connected := true, correlator := ⟨7, [(3, .waiting)]⟩ }
      reader := some .empty, inbox := [.request request] }
    let turn : Turn (List String) := ⟨.item (.request request), { m with inbox := [] },
      { m with inbox := [] }.meet reciting (.item (.request request))⟩
    let later := turn.after.turns reciting (.replicate 6 .handle)
    let final := turn.after.run reciting (.replicate 6 .handle)
    turn.ReadsBack request 1 "%x" "5" later final ∧ later.length = 6 ∧ final.inbox.isEmpty = true ∧
      (turn.messages.filterMap fun
        | .response _ _ (.success (.variableValue value)) => some value
        | _ => none) = ["6"] := by
  intro request chunks blank m turn later final
  have taken : m.turn? reciting .handle = some turn := rfl
  have all : m.turns reciting (.handle :: .replicate 6 .handle) = [] ++ turn :: later := by
    rw [turns, taken, turn?_act taken]
    rfl
  have onward : m.run reciting (.handle :: .replicate 6 .handle) = final := by
    rw [run, List.foldl_cons, turn?_act taken]
    rfl
  have read := assignments_read_back reciting m (.handle :: .replicate 6 .handle) [] turn later all request ⟨1, .locals⟩
    "%x" "5" rfl rfl rfl (by decide +kernel) (by decide +kernel)
  have frame : turn.before.state.engineFrame 1 = 1 := by decide +kernel
  rw [frame, onward] at read
  exact ⟨read, by decide +kernel, by decide +kernel, by decide +kernel⟩

end Machine

end DebugBridge.Session
