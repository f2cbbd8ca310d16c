import DebugBridge.Proofs.Session.Handling

/-! The connection to the engine, as the reader and the items it leaves in the inbox show it. -/

set_option autoImplicit false

namespace DebugBridge.Session.Machine

variable {ω : Type}

def fromEngine (m : Machine ω) : List Item := m.inbox.filter Item.isOfEngine

structure Unread (m : Machine ω) : Prop where
  reader : m.reader = none
  fromEngine : m.fromEngine = []

/-- How the reader stands to the connection. It starts with it, and its last word is a farewell, which ends the
connection as soon as it is dealt with. -/
inductive Linked (m : Machine ω) : Prop where
  | unconnected : m.state.connected = false → m.reader = none → m.fromEngine = [] → Linked m
  | reading {buffer : Engine.LineBuffer} : m.state.connected = true → m.reader = some buffer →
      (∀ item ∈ m.fromEngine, item.isFarewell = false) → Linked m
  | hungUp {reports : List Item} {last : Item} : m.state.connected = true → m.reader = none →
      m.fromEngine = reports ++ [last] → (∀ item ∈ reports, item.isFarewell = false) → last.isFarewell = true →
      Linked m

section

variable {host : Host ω} {m m' : Machine ω}

theorem Linked.same (linked : Linked m) (connected : m'.state.connected = m.state.connected)
    (reader : m'.reader = m.reader) (inbox : m'.fromEngine = m.fromEngine) : Linked m' := by
  cases linked with
  | unconnected closed idle empty =>
    exact .unconnected (connected.trans closed) (reader.trans idle) (inbox.trans empty)
  | reading opened reads lasting => exact .reading (connected.trans opened) (reader.trans reads) (inbox ▸ lasting)
  | hungUp opened idle items lasting farewell =>
    exact .hungUp (connected.trans opened) (reader.trans idle) (inbox.trans items) lasting farewell

theorem fromEngine_post (m : Machine ω) {item : Item} (ofEngine : item.isOfEngine = true) :
    (m.post item).fromEngine = m.fromEngine ++ [item] := by
  rw [fromEngine, post, List.filter_append, List.filter_cons_of_pos ofEngine]
  rfl

theorem fromEngine_post_other (m : Machine ω) {item : Item} (other : item.isOfEngine = false) :
    (m.post item).fromEngine = m.fromEngine := by
  rw [fromEngine, post, List.filter_append, List.filter_cons_of_neg (by simp [other])]
  exact List.append_nil _

theorem Aside.linked {may : Engine.Command → Prop} (aside : Aside may m m') (linked : Linked m) : Linked m' := by
  cases aside with
  | logged text => exact linked.same rfl rfl (fromEngine_post_other m rfl)
  | noted | sent | unwritten | evaluations | files | surroundings => exact linked.same rfl rfl rfl
  | buffered later reads =>
    -- whatever a reader brings, there is none before the connection and none behind the farewell
    cases linked with
    | unconnected _ idle _ | hungUp _ idle _ _ _ =>
      rw [idle] at reads
      cases reads
    | reading opened _ lasting => exact .reading opened rfl lasting
  | @reported _ line reads =>
    have report := Item.isReport_report line
    generalize Item.report line = item at report
    cases linked with
    | unconnected _ idle _ | hungUp _ idle _ _ _ =>
      rw [idle] at reads
      cases reads
    | reading opened _ lasting =>
      refine .reading opened reads ?_
      rw [fromEngine_post m (Item.ofEngine_report report)]
      intro other member
      rcases List.mem_append.mp member with member | member
      · exact lasting other member
      · rw [List.mem_singleton.mp member]
        cases item <;> first | rfl | cases report
  | parted reads farewell =>
    cases linked with
    | unconnected _ idle _ | hungUp _ idle _ _ _ =>
      rw [idle] at reads
      cases reads
    | reading opened _ lasting =>
      exact .hungUp opened rfl (fromEngine_post _ (Item.ofEngine_farewell farewell)) lasting farewell

theorem Background.linked {may : Engine.Command → Prop} (background : Background may m m') (linked : Linked m) :
    Linked m' := by
  induction background with
  | refl => exact linked
  | tail _ aside ih => exact aside.linked ih

theorem Background.unread {may : Engine.Command → Prop} (background : Background may m m') (unread : Unread m) :
    Unread m' := by
  induction background with
  | refl => exact unread
  | tail _ aside ih =>
    obtain ⟨reader, items⟩ := ih
    cases aside with
    | logged text => exact ⟨reader, (fromEngine_post_other _ rfl).trans items⟩
    | noted | sent | unwritten | evaluations | files | surroundings => exact ⟨reader, items⟩
    | buffered _ reads | reported reads | parted reads _ =>
      rw [reader] at reads
      cases reads

theorem Linked.taken {item : Item} {rest : List Item} (linked : Linked m) (first : m.inbox = item :: rest) :
    if item.isFarewell then
      m.state.connected = true ∧ Unread { m with inbox := rest }
    else Linked { m with inbox := rest } ∧ (item.isReport = true → m.state.connected = true) := by
  by_cases ofEngine : item.isOfEngine = true
  · have items : m.fromEngine = item :: ({ m with inbox := rest }).fromEngine := by
      rw [fromEngine, first, List.filter_cons_of_pos ofEngine]
      rfl
    cases linked with
    | unconnected _ _ empty =>
      rw [items] at empty
      cases empty
    | reading opened reads lasting =>
      rw [items, List.forall_mem_cons] at lasting
      rw [if_neg (by simp [lasting.1])]
      exact ⟨.reading opened reads lasting.2, fun _ => opened⟩
    -- what waits are reports and then the farewell, so the first is the farewell just if no report is left
    | @hungUp reports last opened idle all lasting farewell =>
      rw [items] at all
      cases reports with
      | nil =>
        obtain ⟨rfl, left⟩ := List.cons.inj all
        rw [if_pos farewell]
        exact ⟨opened, idle, left⟩
      | cons report later =>
        obtain ⟨rfl, left⟩ := List.cons.inj all
        rw [List.forall_mem_cons] at lasting
        rw [if_neg (by simp [lasting.1])]
        exact ⟨.hungUp opened idle left lasting.2 farewell, fun _ => opened⟩
  · have items : ({ m with inbox := rest }).fromEngine = m.fromEngine := by
      rw [fromEngine, fromEngine, first, List.filter_cons_of_neg ofEngine]
    rw [Item.isOfEngine, Bool.or_eq_true, not_or] at ofEngine
    rw [if_neg ofEngine.2]
    exact ⟨linked.same rfl rfl items, fun report => absurd report ofEngine.1⟩

theorem linked_announceAll (linked : Linked m) (notices : List Notice) : Linked (m.announceAll notices) := by
  induction notices generalizing m with
  | nil => exact linked
  | cons notice rest ih => exact ih (linked.same rfl rfl rfl)

theorem unread_announceAll (unread : Unread m) (notices : List Notice) : Unread (m.announceAll notices) := by
  induction notices generalizing m with
  | nil => exact unread
  | cons notice rest ih => exact ih ⟨unread.reader, unread.fromEngine⟩

/-- A launch that succeeds starts a reader, where none was before. -/
theorem Launched.linked (launched : Launched host m m') (starts : host.StartsReaders) (linked : Linked m)
    (unlaunched : m.state.pendingLaunch ≠ none → m.state.connected = false) : Linked m' := by
  cases launched with
  | nothing => exact linked
  | @connected launch before informed after buffer written pending quiet informing _ last =>
    have closed : m.state.connected = false := unlaunched (by simp [pending])
    have empty : before.fromEngine = [] := by
      -- a launch waits for a session without a connection only, so nothing of an engine can be there before
      cases quiet.linked (linked.same rfl rfl rfl) with
      | unconnected _ _ empty => exact empty
      | reading opened _ _ | hungUp opened _ _ _ _ =>
        rw [quiet.connected, show State.connected _ = false from closed] at opened
        cases opened
    have none : ∀ item ∈ before.fromEngine, item.isFarewell = false := by
      simp [empty]
    have reading : Linked { before with
        state := { before.state with phase := .running, connected := true }, reader := some buffer } :=
      .reading rfl rfl none
    exact last.linked ((informing.linked reading).same rfl rfl rfl)
  | failed fault unread _ unstarted quiet =>
    cases unread with
    | false => exact (quiet.linked (linked.same rfl rfl rfl)).same rfl rfl rfl
    | true => exact absurd starts (unstarted rfl)

theorem Handled.linked {occasion : Occasion} (handled : Handled host m occasion m') (starts : host.StartsReaders)
    (linked : Linked m)
    (lasting : ∀ item, occasion = .item item → item.isFarewell = false) (going : m'.ended = false)
    (unlaunched : m.state.pendingLaunch ≠ none ∨ m.state.phase = .idle → m.state.connected = false) :
    Linked m' := by
  cases handled with
  | replied start _ quiet asked => exact (asked.linked ((quiet.linked linked).same rfl rfl rfl)).same rfl rfl rfl
  | introduced _ quiet => exact (quiet.linked linked).same rfl rfl rfl
  | breakpointsSet _ _ _ quiet informed _ =>
    exact (informed.linked ((quiet.linked linked).same rfl rfl rfl)).same rfl rfl rfl
  | resumed _ _ _ _ _ quiet sent => exact (sent.linked ((quiet.linked linked).same rfl rfl rfl)).same rfl rfl rfl
  | notResumed _ _ _ quiet | repeated _ _ quiet | unreadable _ _ _ _ _ quiet
  | homeless _ _ _ _ _ _ _ quiet => exact (quiet.linked linked).same rfl rfl rfl
  | notWritten _ _ _ _ quiet failed =>
    exact (failed.linked ((quiet.linked linked).same rfl rfl rfl)).same rfl rfl rfl
  | putOff _ _ _ _ _ _ _ _ quiet ready => exact ready.linked ((quiet.linked linked).same rfl rfl rfl)
  | started _ _ _ _ idle _ _ _ quiet ready launched =>
    refine launched.linked starts (ready.linked ((quiet.linked linked).same rfl rfl rfl)) fun _ => ?_
    exact ready.connected.trans (quiet.connected.trans (unlaunched (.inr idle)))
  | configured _ quiet launched =>
    apply launched.linked starts ((quiet.linked linked).same rfl rfl rfl)
    intro pending
    exact quiet.connected.trans (unlaunched (.inl (quiet.pendingLaunch ▸ pending)))
  | disconnected => cases going
  | left => cases going
  | announced before _ _ _ notices _ _ _ quiet _ _ =>
    refine linked_announceAll ?_ notices
    exact (quiet.linked linked).same rfl rfl rfl
  | parted farewell =>
    rw [lasting _ rfl] at farewell
    cases farewell
  | overdue quiet launched =>
    apply launched.linked starts (quiet.linked linked)
    intro pending
    exact quiet.connected.trans (unlaunched (.inl (quiet.pendingLaunch ▸ pending)))

theorem Handled.parted_linked {item : Item} (handled : Handled host m (.item item) m')
    (farewell : item.isFarewell = true) (unread : Unread m) : Linked m' := by
  cases handled with
  | announced _ _ _ _ _ _ _ lasting =>
    rw [lasting] at farewell
    cases farewell
  | @parted _ before _ quiet =>
    have unread := quiet.unread unread
    refine linked_announceAll ?_ _
    exact .unconnected rfl unread.reader unread.fromEngine
  | _ => cases farewell

/-- Only a launch that succeeds starts a reader, and then the session is idle no more. -/
theorem Launched.unread (launched : Launched host m m') (idle : m'.state.phase = .idle) (unread : Unread m) :
    Unread m' := by
  have before (pending : Option PendingLaunch) :
      Unread { m with state := { m.state with pendingLaunch := pending } } := ⟨unread.reader, unread.fromEngine⟩
  cases launched with
  | nothing => exact unread
  | connected _ _ _ _ informing _ last =>
    have running : m'.state.phase = .running := last.phase.trans informing.phase
    cases running.symm.trans idle
  | failed _ _ _ _ quiet =>
    have unread := quiet.unread (before none)
    exact ⟨unread.reader, unread.fromEngine⟩

theorem Handled.unread {occasion : Occasion} (handled : Handled host m occasion m') (idle : m'.state.phase = .idle)
    (unread : Unread m) : Unread m' := by
  have still {n n' : Machine ω} (unread : Unread n) (reader : n'.reader = n.reader)
      (inbox : n'.fromEngine = n.fromEngine) : Unread n' :=
    ⟨reader.trans unread.reader, inbox.trans unread.fromEngine⟩
  cases handled with
  | replied _ _ quiet asked =>
    exact still (asked.unread (still (quiet.unread unread) rfl rfl)) rfl rfl
  | introduced _ quiet | notResumed _ _ _ quiet | repeated _ _ quiet | unreadable _ _ _ _ _ quiet
  | homeless _ _ _ _ _ _ _ quiet | left quiet => exact still (quiet.unread unread) rfl rfl
  | breakpointsSet _ _ _ quiet informed =>
    exact still (informed.unread (still (quiet.unread unread) rfl rfl)) rfl rfl
  | resumed _ _ _ _ _ quiet sent | notWritten _ _ _ _ quiet sent =>
    exact still (sent.unread (still (quiet.unread unread) rfl rfl)) rfl rfl
  | putOff _ _ _ _ _ _ _ _ quiet ready => exact ready.unread (still (quiet.unread unread) rfl rfl)
  | started _ _ _ _ _ _ _ _ quiet ready launched =>
    exact launched.unread idle (ready.unread (still (quiet.unread unread) rfl rfl))
  | configured _ quiet launched => exact launched.unread idle (still (quiet.unread unread) rfl rfl)
  | disconnected => cases idle
  | announced _ _ _ _ _ _ _ _ quiet | parted _ quiet =>
    refine unread_announceAll ?_ _
    exact still (quiet.unread unread) rfl rfl
  | overdue quiet launched => exact launched.unread idle (quiet.unread unread)

end

end DebugBridge.Session.Machine
