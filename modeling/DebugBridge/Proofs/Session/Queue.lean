import DebugBridge.Proofs.Session.Listing
import DebugBridge.Proofs.Session.Stops

/-! The inbox as a queue.

What is put into it joins it at the end, whatever else happens, and what is dealt with is taken from its front. So
everything that waits is dealt with in the order in which it came, and none of it twice. -/

set_option autoImplicit false

namespace DebugBridge.Session

open Protocol

variable {ω : Type}

def Turn.item? (turn : Turn ω) : Option Item :=
  match turn.occasion with
  | .item item => some item
  | .overdue _ => none

def Item.isOfClient : Item → Bool
  | .request _ | .clientClosed => true
  | _ => false

theorem Item.ofClient_ofEngine {item : Item} (ofEngine : item.isOfEngine = true) : item.isOfClient = false := by
  cases item <;> first | rfl | cases ofEngine

def Happening.line? : Happening → Option String
  | .arrived line => some line
  | _ => none

namespace Machine

section

variable {m m' n : Machine ω}

/-! ## Nothing is lost and nothing overtaken -/

/-- All that waits keeps its place, and what joins it is nothing of the client's. -/
def Joined (m m' : Machine ω) : Prop :=
  ∃ items, m'.inbox = m.inbox ++ items ∧ ∀ item ∈ items, item.isOfClient = false

theorem joined_still (inbox : m'.inbox = m.inbox) : Joined m m' :=
  ⟨[], by rw [inbox, List.append_nil], List.forall_mem_nil _⟩

theorem joined_post (m : Machine ω) {item : Item} (other : item.isOfClient = false) : Joined m (m.post item) :=
  ⟨[item], rfl, List.forall_mem_singleton.mpr other⟩

theorem Joined.trans (first : Joined m m') (second : Joined m' n) : Joined m n := by
  obtain ⟨items, joined, others⟩ := first
  obtain ⟨more, joining, also⟩ := second
  exact ⟨items ++ more, by rw [joining, joined, List.append_assoc], List.forall_mem_append.mpr ⟨others, also⟩⟩

theorem Joined.behind (joined : Joined m m') : m.inbox <+: m'.inbox := by
  obtain ⟨items, inbox, -⟩ := joined
  exact inbox ▸ List.prefix_append _ _

theorem Background.joined {may : Engine.Command → Prop} (background : Background may m m') : Joined m m' := by
  induction background with
  | refl => exact joined_still rfl
  | tail _ aside ih =>
    apply ih.trans
    cases aside with
    | logged text => exact joined_post _ rfl
    | reported => exact joined_post _ (Item.ofClient_ofEngine (Item.ofEngine_report (Item.isReport_report _)))
    | parted _ farewell =>
      exact (joined_post _ (Item.ofClient_ofEngine (Item.ofEngine_farewell farewell)) :)
    | _ => exact joined_still rfl

variable {host : Host ω} {turn : Turn ω}

theorem Launched.joined (launched : Launched host m m') : Joined m m' := by
  cases launched with
  | nothing => exact joined_still rfl
  | connected _ _ _ quiet informed _ last =>
    have before : Joined m _ := quiet.joined
    exact before.trans (Joined.trans informed.joined last.joined :)
  | failed _ _ _ _ quiet => exact (quiet.joined :)

/-- Whatever is handled, nothing is lost, nothing is overtaken, and nothing comes that only a client can bring. -/
theorem Handled.joined {occasion : Occasion} (handled : Handled host m occasion m') : Joined m m' := by
  cases handled with
  | replied _ _ quiet asked => exact (quiet.joined.trans asked.joined :)
  | introduced _ quiet | disconnected _ quiet | left quiet => exact (quiet.joined :)
  | notResumed _ _ _ quiet | repeated _ _ quiet | unreadable _ _ _ _ _ quiet | homeless _ _ _ _ _ _ _ quiet =>
    exact (quiet.joined :)
  | breakpointsSet _ _ _ quiet informed => exact (quiet.joined.trans informed.joined :)
  | resumed _ _ _ _ _ quiet sent | notWritten _ _ _ _ quiet sent => exact (quiet.joined.trans sent.joined :)
  | putOff _ _ _ _ _ _ _ _ quiet ready => exact (quiet.joined.trans ready.joined :)
  | started _ _ _ _ _ _ _ _ quiet ready launched =>
    exact (quiet.joined.trans ready.joined :).trans launched.joined
  | configured _ quiet launched => exact (quiet.joined.trans launched.joined :)
  | announced _ _ _ _ _ _ _ _ quiet | parted _ quiet =>
    exact Joined.trans quiet.joined (joined_still (inbox_announceAll _ _))
  | overdue quiet launched => exact quiet.joined.trans launched.joined

theorem Took.inbox (took : Took host m turn) : m.inbox = [turn].filterMap Turn.item? ++ turn.before.inbox := by
  obtain ⟨item, rest, inbox, occasion, same⟩ | ⟨waited, inbox, occasion, same⟩ := took.first
  · rw [same, List.filterMap_cons_some (by rw [Turn.item?, occasion]), inbox]
    rfl
  · rw [same, List.filterMap_cons_none (by rw [Turn.item?, occasion])]
    rfl

theorem Step.inbox {received : List Request} {turns : List (Turn ω)} (step : Step host m received turns m') :
    m.inbox <+: turns.filterMap Turn.item? ++ m'.inbox := by
  cases step with
  | took took =>
    rw [took.inbox, List.prefix_append_right_inj]
    exact took.handled.joined.behind
  | asked => exact List.prefix_append _ _
  | closed quiet => exact (Background.joined quiet).behind.trans (List.prefix_append _ _)
  | listened quiet => exact (Background.joined quiet).behind

/-- First come, first served: what waits is dealt with from the first on, each item once, or still waits behind. -/
theorem served_in_order (host : Host ω) (m : Machine ω) (actions : List Action) :
    m.inbox <+: (m.turns host actions).filterMap Turn.item? ++ (m.run host actions).inbox := by
  induction actions generalizing m with
  | nil => exact List.prefix_refl _
  | cons action rest ih =>
    rw [turns, List.filterMap_append, List.append_assoc]
    exact (act_step host m action).inbox.trans ((List.prefix_append_right_inj _).mpr (ih (m.act host action)))

theorem turn?_act {action : Action} (taken : m.turn? host action = some turn) : m.act host action = turn.after := by
  have step := act_step host m action
  rw [taken] at step
  generalize action.request?.toList = received, m.act host action = m' at step
  cases step with
  | took => rfl

theorem turns_onward (host : Host ω) {actions : List Action} {past later : List (Turn ω)}
    (all : m.turns host actions = past ++ turn :: later) :
    ∃ next, turn.after.turns host next = later ∧ turn.after.run host next = m.run host actions := by
  induction actions generalizing m past with
  | nil => cases past <;> cases all
  | cons action rest ih =>
    rw [turns] at all
    cases taken : m.turn? host action with
    | none =>
      rw [taken] at all
      exact ih all
    | some first =>
      rw [taken] at all
      cases past with
      | nil =>
        obtain ⟨rfl, remaining⟩ := List.cons.inj all
        rw [turn?_act taken] at remaining
        exact ⟨rest, remaining, congrArg (run host · rest) (turn?_act taken).symm⟩
      | cons other past => exact ih (List.cons.inj all).2

/-! ## Lines in the queue -/

/-- Lines arrive from one state to another, among other things, and each is reported once, behind all that waits. -/
def Queues (m m' : Machine ω) : Prop :=
  ∃ happened items, m'.transcript = m.transcript ++ happened ∧ m'.inbox = m.inbox ++ items ∧
    items.filter Item.isReport = (happened.filterMap Happening.line?).map Item.report

theorem queues_still (transcript : m'.transcript = m.transcript) (inbox : m'.inbox = m.inbox) : Queues m m' :=
  ⟨[], [], by rw [transcript, List.append_nil], by rw [inbox, List.append_nil], rfl⟩

theorem Queues.trans (first : Queues m m') (second : Queues m' n) : Queues m n := by
  obtain ⟨happened, items, said, joined, reports⟩ := first
  obtain ⟨more, new, saying, joining, reporting⟩ := second
  refine ⟨happened ++ more, items ++ new, ?_, ?_, ?_⟩
  · rw [saying, said, List.append_assoc]
  · rw [joining, joined, List.append_assoc]
  · rw [List.filter_append, reports, reporting, List.filterMap_append, List.map_append]

theorem foldl_queues {α : Type} {f : Machine ω → α → Machine ω} (each : ∀ m a, Queues m (f m a)) (m : Machine ω)
    (items : List α) : Queues m (items.foldl f m) := by
  induction items generalizing m with
  | nil => exact queues_still rfl rfl
  | cons item rest ih => exact (each m item).trans (ih (f m item))

theorem post_queues (m : Machine ω) {item : Item} (other : item.isReport = false) : Queues m (m.post item) :=
  ⟨[], [item], (List.append_nil _).symm, rfl, by rw [List.filter_singleton, other]; rfl⟩

theorem record_queues (m : Machine ω) {h : Happening} (other : h.line? = none) : Queues m (m.record h) :=
  ⟨[h], [], rfl, (List.append_nil _).symm, by rw [List.filterMap_cons_none other]; rfl⟩

theorem log_queues (m : Machine ω) (level : Log.Level) (target message : String) :
    Queues m (m.log level target message) := by
  simp only [log, Log.forwarded]
  split
  · exact post_queues m rfl
  · exact queues_still rfl (List.append_nil _)

theorem report_queues {line : String} (heard : Queues (m.record (.arrived line)) m')
    (said : m'.transcript = m.transcript ++ [.arrived line]) : Queues m (m'.post (.report line)) := by
  obtain ⟨happened, items, more, joined, reports⟩ := heard
  have nothing : happened = [] := List.append_right_eq_self.mp (more.symm.trans said)
  rw [nothing] at reports
  refine ⟨[.arrived line], items ++ [.report line], said, ?_, ?_⟩
  · rw [post, joined, List.append_assoc]
    rfl
  · rw [List.filter_append, reports, List.filter_singleton, Item.isReport_report]
    rfl

theorem receiveLine_queues (m : Machine ω) (line : String) : Queues m (m.receiveLine line) := by
  unfold receiveLine
  extract_lets heard
  have before : Queues (m.record (.arrived line)) heard :=
    (log_queues _ _ _ _).trans (foldl_queues (fun _ _ => log_queues _ _ _ _) _ _)
  have said : heard.transcript = m.transcript ++ [.arrived line] :=
    ((logWarnings_logs _ line).follows.transcript).trans (List.append_nil _)
  split
  · next decoded =>
    rw [show Item.lineConsumed = .report line by simp only [Item.report, decoded]]
    split
    · exact report_queues (before.trans (queues_still rfl rfl)) said
    · exact report_queues (before.trans (log_queues _ _ _ _)) said
  · next event _ decoded =>
    rw [show Item.engineEvent event = .report line by simp only [Item.report, decoded]]
    exact report_queues before said
  · next decoded =>
    rw [show Item.lineConsumed = .report line by simp only [Item.report, decoded]]
    exact report_queues (before.trans (log_queues _ _ _ _)) said

theorem receiveChunk_queues (m : Machine ω) (chunk : List UInt8) : Queues m (m.receiveChunk chunk) := by
  unfold receiveChunk
  split
  · exact queues_still rfl rfl
  · next buffer _ =>
    have buffered : Queues m { m with reader := some (buffer.push chunk).drain.2 } := queues_still rfl rfl
    exact buffered.trans (foldl_queues receiveLine_queues _ _)

theorem receiveEnd_queues (m : Machine ω) (ending : Engine.StreamEnd) : Queues m (m.receiveEnd ending) := by
  have unread : Queues m { m with reader := none } := queues_still rfl rfl
  unfold receiveEnd
  split
  · exact queues_still rfl rfl
  · exact queues_still rfl rfl
  · exact unread.trans (post_queues _ rfl)
  · exact unread.trans (post_queues _ rfl)

theorem receive_queues (m : Machine ω) (incoming : Engine.Incoming) : Queues m (m.receive incoming) :=
  (foldl_queues receiveChunk_queues m incoming.chunks).trans (receiveEnd_queues _ _)

/-! ## Lines that arrive while values are asked for -/

variable (host)

theorem send_queues (m : Machine ω) (command : Engine.Command) : Queues m (m.send host command).2 := by
  unfold send
  split
  · extract_lets asked
    have logged : Queues m asked := (log_queues m _ _ _).trans (record_queues _ rfl)
    have told (world : ω) : Queues asked { asked with world := world } := queues_still rfl rfl
    split
    · exact logged.trans ((told _).trans (receive_queues _ _))
    · exact logged.trans ((told _).trans (record_queues _ rfl))
  · exact queues_still rfl rfl

theorem evaluate_queues (m : Machine ω) (frame : Nat) (expression : String) :
    Queues m (m.evaluate host frame expression).2 := by
  have issued : Queues m m.issued := queues_still rfl rfl
  have asked : Queues m (m.issued.send host (.evaluate m.state.correlator.nextTag frame expression)).2 :=
    issued.trans (send_queues host _ _)
  rw [evaluate_eq]
  split
  · next after sent => rwa [sent] at asked
  · next after sent =>
    rw [sent] at asked
    exact asked.trans ((log_queues _ _ _ _).trans (queues_still rfl rfl))

theorem await_queues (m : Machine ω) (tag : UInt64) : Queues m (m.await host tag).2 := by
  have settled (m : Machine ω) : Queues m (m.settle tag).2 := by
    have forgotten : Queues m (m.forget tag) := queues_still rfl rfl
    exact forgotten.trans (record_queues _ rfl)
  unfold await
  split
  · split
    next incoming world _ =>
    have lingered : Queues m { m with world := world } := queues_still rfl rfl
    have waited := lingered.trans ((receive_queues _ incoming).trans (settled _))
    split
    · next answer after same => rwa [same] at waited
    · next after same =>
      rw [same] at waited
      exact waited.trans (log_queues _ _ _ _)
  · exact settled m

end

end Machine

end DebugBridge.Session
