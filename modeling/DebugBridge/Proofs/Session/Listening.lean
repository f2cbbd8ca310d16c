import DebugBridge.Proofs.Engine.Correlation
import DebugBridge.Proofs.Session.Background

/-! Listening to the engine and asking it for values, seen from what is outstanding and what has been said.

While a session listens, answers reach the evaluations that wait for them, and that is all that changes. Whoever
asks also waits, or drops the question, so in the end nothing is outstanding that was not before. -/

set_option autoImplicit false

namespace DebugBridge.Engine

def inquiries (tag : UInt64) (frame : Nat) : List String → List Command
  | [] => []
  | expression :: rest => .evaluate tag frame expression :: inquiries (tag + 1) frame rest

@[simp] theorem length_inquiries (tag : UInt64) (frame : Nat) (expressions : List String) :
    (inquiries tag frame expressions).length = expressions.length := by
  induction expressions generalizing tag with
  | nil => rfl
  | cons expression rest ih => exact congrArg (· + 1) (ih _)

theorem succ_tag (tag : UInt64) (n : Nat) : tag + 1 + UInt64.ofNat n = tag + UInt64.ofNat (n + 1) := by
  rw [UInt64.ofNat_add, UInt64.add_comm (UInt64.ofNat n), UInt64.add_assoc]
  rfl

theorem inquiries_append (tag : UInt64) (frame : Nat) (first second : List String) :
    inquiries tag frame (first ++ second) =
      inquiries tag frame first ++ inquiries (tag + UInt64.ofNat first.length) frame second := by
  induction first generalizing tag with
  | nil => exact congrArg (inquiries · frame second) (UInt64.add_zero tag).symm
  | cons expression rest ih =>
    rw [List.length_cons, ← succ_tag]
    exact congrArg (Command.evaluate tag frame expression :: ·) (ih (tag + 1))

end DebugBridge.Engine

namespace DebugBridge.Session

def Happening.isDeed : Happening → Bool
  | .emitted _ | .greeted _ | .sent _ => true
  | .unwritten _ | .arrived _ | .waited _ => false

namespace Machine

variable {ω : Type}

def deeds (m : Machine ω) : List Happening := m.transcript.filter Happening.isDeed

theorem deeds_record (m : Machine ω) {h : Happening} (deed : h.isDeed = true) :
    (m.record h).deeds = m.deeds ++ [h] := by
  rw [deeds, record, List.filter_append, List.filter_cons_of_pos deed]
  rfl

theorem deeds_record_other (m : Machine ω) {h : Happening} (other : h.isDeed = false) :
    (m.record h).deeds = m.deeds := by
  rw [deeds, record, List.filter_append, List.filter_cons_of_neg (by rw [other]; exact Bool.false_ne_true)]
  exact List.append_nil _

/-! ## Listening -/

/-- Nothing is said, and of the state only what has been answered changes. -/
structure Listens (m m' : Machine ω) : Prop where
  state : m'.state = { m.state with correlator := m'.state.correlator }
  nextTag : m'.state.correlator.nextTag = m.state.correlator.nextTag
  tags : m'.state.correlator.tags = m.state.correlator.tags
  nextSeq : m'.nextSeq = m.nextSeq
  deeds : m'.deeds = m.deeds

theorem listens_refl (m : Machine ω) : Listens m m := ⟨rfl, rfl, rfl, rfl, rfl⟩

theorem Listens.trans {m m' n : Machine ω} (first : Listens m m') (second : Listens m' n) : Listens m n where
  state := by rw [second.state, first.state]
  nextTag := second.nextTag.trans first.nextTag
  tags := second.tags.trans first.tags
  nextSeq := second.nextSeq.trans first.nextSeq
  deeds := second.deeds.trans first.deeds

theorem log_listens (m : Machine ω) (level : Log.Level) (target message : String) :
    Listens m (m.log level target message) := ⟨rfl, rfl, rfl, rfl, rfl⟩

theorem post_listens (m : Machine ω) (item : Item) : Listens m (m.post item) := ⟨rfl, rfl, rfl, rfl, rfl⟩

theorem record_listens (m : Machine ω) {h : Happening} (other : h.isDeed = false) : Listens m (m.record h) :=
  ⟨rfl, rfl, rfl, rfl, deeds_record_other m other⟩

theorem world_listens (m : Machine ω) (world : ω) : Listens m { m with world := world } := ⟨rfl, rfl, rfl, rfl, rfl⟩

theorem foldl_listens {α : Type} {f : Machine ω → α → Machine ω} (each : ∀ m a, Listens m (f m a))
    (m : Machine ω) (items : List α) : Listens m (items.foldl f m) := by
  induction items generalizing m with
  | nil => exact listens_refl m
  | cons item rest ih => exact (each m item).trans (ih (f m item))

def Logs (m m' : Machine ω) : Prop := ∃ inbox, m' = { m with inbox := inbox }

theorem Logs.listens {m m' : Machine ω} (logs : Logs m m') : Listens m m' := by
  obtain ⟨inbox, rfl⟩ := logs
  exact ⟨rfl, rfl, rfl, rfl, rfl⟩

theorem foldl_logs {α : Type} {f : Machine ω → α → Machine ω} (each : ∀ m a, Logs m (f m a)) (m : Machine ω)
    (items : List α) : Logs m (items.foldl f m) := by
  induction items generalizing m with
  | nil => exact ⟨m.inbox, rfl⟩
  | cons item rest ih =>
    obtain ⟨first, same⟩ := each m item
    obtain ⟨all, later⟩ := ih (f m item)
    exact ⟨all, by rw [List.foldl_cons, later, same]⟩

theorem logWarnings_logs (m : Machine ω) (line : String) : Logs m (m.logWarnings line) :=
  foldl_logs (fun _ _ => ⟨_, rfl⟩) m _

theorem receiveLine_listens (m : Machine ω) (line : String) : Listens m (m.receiveLine line) := by
  unfold receiveLine
  extract_lets heard
  have noted : Listens m (m.record (.arrived line)) := record_listens m rfl
  have before : Listens m heard := (noted.trans (log_listens _ _ _ _)).trans (logWarnings_logs _ line).listens
  split
  · next tag value _ =>
    split
    · next correlator resolved =>
      have same := heard.state.correlator.tags_resolve tag value
      rw [resolved] at same
      exact before.trans ⟨rfl, same.2, same.1, rfl, rfl⟩
    · exact (before.trans (log_listens _ _ _ _)).trans (post_listens _ _)
  · exact before.trans (post_listens _ _)
  · exact (before.trans (log_listens _ _ _ _)).trans (post_listens _ _)

theorem receiveChunk_listens (m : Machine ω) (chunk : List UInt8) : Listens m (m.receiveChunk chunk) := by
  unfold receiveChunk
  split
  · exact listens_refl m
  · next buffer _ =>
    have buffered : Listens m { m with reader := some (buffer.push chunk).drain.2 } := ⟨rfl, rfl, rfl, rfl, rfl⟩
    exact buffered.trans (foldl_listens receiveLine_listens _ _)

theorem receiveEnd_listens (m : Machine ω) (ending : Engine.StreamEnd) : Listens m (m.receiveEnd ending) := by
  unfold receiveEnd
  split <;> exact ⟨rfl, rfl, rfl, rfl, rfl⟩

theorem receive_listens (m : Machine ω) (incoming : Engine.Incoming) : Listens m (m.receive incoming) :=
  (foldl_listens receiveChunk_listens m incoming.chunks).trans (receiveEnd_listens _ _)

/-- With a connection a command is handed over, whether it can be written or not. -/
theorem send_listens (host : Host ω) {m : Machine ω} (connected : m.state.connected = true)
    (command : Engine.Command) : Listens (m.record (.sent command)) (m.send host command).2 := by
  unfold send
  rw [if_pos connected]
  -- logging and recording do not depend on each other
  have logged := log_listens (m.record (.sent command)) .debug "remote" ("-> " ++ command.line)
  extract_lets handed
  split
  · exact (logged.trans (world_listens handed _)).trans (receive_listens _ _)
  · exact (logged.trans (world_listens handed _)).trans (record_listens _ rfl)

/-! ## Asking -/

def attempts (m : Machine ω) (commands : List Engine.Command) : List Happening :=
  if m.state.connected then commands.map .sent else []

theorem attempts_append (m : Machine ω) (first second : List Engine.Command) :
    m.attempts (first ++ second) = m.attempts first ++ m.attempts second := by
  unfold attempts
  split
  · exact List.map_append
  · rfl

theorem attempts_nil (m : Machine ω) : m.attempts [] = [] := by
  unfold attempts
  split <;> rfl

theorem deeds_unasked (m : Machine ω) : m.deeds = m.deeds ++ m.attempts [] := by
  rw [attempts_nil, List.append_nil]

/-- Values are asked for with these commands, one tag for each. These tags are outstanding afterwards. -/
structure Asks (m : Machine ω) (commands : List Engine.Command) (outstanding : List UInt64) (m' : Machine ω) :
    Prop where
  state : m'.state = { m.state with correlator := m'.state.correlator }
  nextTag : m'.state.correlator.nextTag = m.state.correlator.nextTag + UInt64.ofNat commands.length
  tags : m'.state.correlator.tags = outstanding
  nextSeq : m'.nextSeq = m.nextSeq
  deeds : m'.deeds = m.deeds ++ m.attempts commands

section

variable {m m' n : Machine ω} {commands more : List Engine.Command} {outstanding remaining : List UInt64}

theorem Listens.asks (listens : Listens m m') : Asks m [] m.state.correlator.tags m' where
  state := listens.state
  nextTag := listens.nextTag.trans (UInt64.add_zero _).symm
  tags := listens.tags
  nextSeq := listens.nextSeq
  deeds := listens.deeds.trans (deeds_unasked m)

theorem Asks.trans (first : Asks m commands outstanding m') (second : Asks m' more remaining n) :
    Asks m (commands ++ more) remaining n where
  state := by rw [second.state, first.state]
  nextTag := by rw [second.nextTag, first.nextTag, List.length_append, UInt64.ofNat_add, UInt64.add_assoc]
  tags := second.tags
  nextSeq := second.nextSeq.trans first.nextSeq
  deeds := by
    have same : m'.attempts more = m.attempts more := by rw [attempts, first.state]; rfl
    rw [second.deeds, first.deeds, same, attempts_append, List.append_assoc]

theorem Asks.listens (asks : Asks m commands outstanding m') (listens : Listens m' n) :
    Asks m commands outstanding n := by
  have after := asks.trans listens.asks
  rwa [List.append_nil, asks.tags] at after

/-- With nothing outstanding, all that is left of asking are the tags that are used up. -/
theorem Asks.settled (asks : Asks m commands [] m') : m'.state = { m.state with
    correlator := ⟨m.state.correlator.nextTag + UInt64.ofNat commands.length, []⟩ } := by
  have slots : m'.state.correlator.slots = [] := List.map_eq_nil_iff.mp asks.tags
  rw [asks.state, ← asks.nextTag, ← slots]

end

section

variable (host : Host ω) (m : Machine ω)

def issued (m : Machine ω) : Machine ω :=
  { m with state := { m.state with correlator := m.state.correlator.register.2 } }

def unsent (m : Machine ω) (tag : UInt64) : Machine ω :=
  { m with state := { m.state with correlator := m.state.correlator.markUnsent tag } }

theorem evaluate_eq (frame : Nat) (expression : String) :
    m.evaluate host frame expression =
      match m.issued.send host (.evaluate m.state.correlator.nextTag frame expression) with
      | (.ok (), after) => (m.state.correlator.nextTag, after)
      | (.error fault, after) => (m.state.correlator.nextTag, (after.log .warn "remote"
          ("EVAL " ++ Text.Decimal.showNat m.state.correlator.nextTag.toNat ++ ": " ++ fault.message)).unsent
            m.state.correlator.nextTag) := rfl

theorem unsent_listens (tag : UInt64) : Listens m (m.unsent tag) :=
  ⟨rfl, Engine.Correlator.nextTag_advance _ _ _ _, Engine.Correlator.tags_advance _ _ _ _, rfl, rfl⟩

theorem evaluate_asks (frame : Nat) (expression : String) :
    (m.evaluate host frame expression).1 = m.state.correlator.nextTag ∧
      Asks m [.evaluate m.state.correlator.nextTag frame expression]
        (m.state.correlator.tags ++ [m.state.correlator.nextTag]) (m.evaluate host frame expression).2 := by
  have tags : m.issued.state.correlator.tags = m.state.correlator.tags ++ [m.state.correlator.nextTag] :=
    m.state.correlator.tags_register
  rw [evaluate_eq]
  generalize asking : Engine.Command.evaluate m.state.correlator.nextTag frame expression = command
  cases connected : m.state.connected with
  | true =>
    -- the answer may be there before the sending is over, which changes what its tag holds but not the tags
    have listens := send_listens (m := m.issued) host connected command
    have issued : Asks m [command] (m.state.correlator.tags ++ [m.state.correlator.nextTag])
        (m.issued.record (.sent command)) := by
      refine ⟨rfl, rfl, tags, rfl, ?_⟩
      rw [deeds_record _ rfl, attempts, connected]
      rfl
    have sent := issued.listens listens
    split
    · next after same =>
      rw [same] at sent
      exact ⟨rfl, sent⟩
    · next fault after same =>
      rw [same] at sent
      exact ⟨rfl, (sent.listens (log_listens _ _ _ _)).listens (unsent_listens _ _)⟩
  | false =>
    rw [send_unconnected (m := m.issued) host connected]
    refine ⟨rfl, rfl, Engine.Correlator.nextTag_advance _ _ _ _,
      (Engine.Correlator.tags_advance _ _ _ _).trans tags, rfl, ?_⟩
    rw [attempts, connected]
    exact (List.append_nil _).symm

theorem forget_asks (tag : UInt64) : Asks m [] (m.state.correlator.tags.filter (· != tag)) (m.forget tag) where
  state := rfl
  nextTag := (UInt64.add_zero _).symm
  tags := m.state.correlator.tags_forget tag
  nextSeq := rfl
  deeds := deeds_unasked m

theorem settle_asks (tag : UInt64) :
    Asks m [] (m.state.correlator.tags.filter (· != tag)) (m.settle tag).2 :=
  (forget_asks m tag).listens ⟨rfl, rfl, rfl, rfl, deeds_record_other (m.forget tag) rfl⟩

theorem await_asks (tag : UInt64) :
    Asks m [] (m.state.correlator.tags.filter (· != tag)) (m.await host tag).2 := by
  unfold await
  split
  · split
    next incoming world _ =>
    have listens : Listens m ({ m with world := world }.receive incoming) :=
      (world_listens m world).trans (receive_listens _ _)
    have asks := listens.asks.trans (settle_asks _ tag)
    rw [listens.tags] at asks
    split
    · next answer settled same => rwa [same] at asks
    · next settled same =>
      rw [same] at asks
      exact asks.listens (log_listens _ _ _ _)
  · exact settle_asks m tag

theorem evaluate_await_asks (frame : Nat) (expression : String) (clear : m.state.correlator.tags = []) :
    Asks m (Engine.inquiries m.state.correlator.nextTag frame [expression]) []
      ((m.evaluate host frame expression).2.await host (m.evaluate host frame expression).1).2 := by
  obtain ⟨tag, asks⟩ := evaluate_asks host m frame expression
  have all := asks.trans (await_asks host _ (m.evaluate host frame expression).1)
  rw [asks.tags, clear, tag, List.nil_append, List.append_nil, List.filter_cons_of_neg (by simp)] at all
  rwa [tag]

theorem evaluate_forget_asks (frame : Nat) (expression : String) (clear : m.state.correlator.tags = []) :
    Asks m (Engine.inquiries m.state.correlator.nextTag frame [expression]) []
      ((m.evaluate host frame expression).2.forget (m.evaluate host frame expression).1) := by
  obtain ⟨tag, asks⟩ := evaluate_asks host m frame expression
  have all := asks.trans (forget_asks _ (m.evaluate host frame expression).1)
  rw [asks.tags, clear, tag, List.nil_append, List.append_nil, List.filter_cons_of_neg (by simp)] at all
  rwa [tag]

theorem evaluateAll_asks (frame : Nat) (names : List String) :
    Asks m (Engine.inquiries m.state.correlator.nextTag frame names)
      (m.state.correlator.tags ++ (m.evaluateAll host frame names).1) (m.evaluateAll host frame names).2 := by
  induction names generalizing m with
  | nil =>
    have asks := (listens_refl m).asks
    rwa [← List.append_nil m.state.correlator.tags] at asks
  | cons name rest ih =>
    obtain ⟨tag, asks⟩ := evaluate_asks host m frame name
    have all := asks.trans (ih (m.evaluate host frame name).2)
    rw [asks.nextTag, asks.tags, List.append_assoc] at all
    have tags : (m.evaluateAll host frame (name :: rest)).1 = m.state.correlator.nextTag ::
        ((m.evaluate host frame name).2.evaluateAll host frame rest).1 := congrArg (· :: _) tag
    rw [tags]
    exact all

theorem awaitAll_asks (tags : List UInt64) :
    Asks m [] (m.state.correlator.tags.filter fun tag => !tags.contains tag) (m.awaitAll host tags).2 := by
  induction tags generalizing m with
  | nil =>
    have all : m.state.correlator.tags.filter (fun tag => !([] : List UInt64).contains tag) = m.state.correlator.tags :=
      List.filter_eq_self.mpr fun _ _ => rfl
    rw [all]
    exact (listens_refl m).asks
  | cons tag rest ih =>
    have asks := await_asks host m tag
    have all := asks.trans (ih (m.await host tag).2)
    rw [asks.tags, List.filter_filter] at all
    have same : (fun other => !(tag :: rest).contains other) = fun other => !rest.contains other && other != tag := by
      funext other
      rw [List.contains_cons, Bool.not_or, Bool.and_comm]
      rfl
    rw [same]
    exact all

theorem fetch_asks (frame : Nat) (names : List String) (clear : m.state.correlator.tags = []) :
    Asks m (Engine.inquiries m.state.correlator.nextTag frame names) [] (m.fetch host frame names).2 := by
  fun_induction fetch host m frame names with
  | case1 m names empty =>
    rw [List.isEmpty_iff.mp empty]
    exact clear ▸ (listens_refl m).asks
  | case2 m names _ tags asked evaluated answers heard awaited more last fetched ih =>
    -- a batch is waited for in full before the next one is put, so that begins with nothing outstanding again
    have asking := evaluateAll_asks host m frame (names.take evaluationsInFlight)
    rw [evaluated, clear, List.nil_append] at asking
    have waiting := awaitAll_asks host asked tags
    rw [awaited, asking.tags, List.filter_eq_nil_iff.mpr fun tag member => by simp [member]] at waiting
    have batch := asking.trans waiting
    have all := batch.trans (ih waiting.tags)
    rw [fetched, List.append_nil] at all
    rw [batch.nextTag, List.append_nil, Engine.length_inquiries, ← Engine.inquiries_append,
      List.take_append_drop] at all
    exact all

end

end Machine

end DebugBridge.Session
