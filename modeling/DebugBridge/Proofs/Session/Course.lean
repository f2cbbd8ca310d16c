import DebugBridge.Proofs.Session.Conversation

/-! What one thing does to the life of a session, and which of its messages tell of it. -/

set_option autoImplicit false

namespace DebugBridge.Session

open Protocol

variable {ω : Type}

inductive Milestone where
  | failed
  | connected
  | terminated
  | disconnected
  deriving DecidableEq

def Message.milestone? : Message → Option Milestone
  | .response _ request (.success _) =>
    match verb? request with
    | some .launch => some .connected
    | some .disconnect => some .disconnected
    | _ => none
  | .response _ _ (.failure (.alreadyStarted _)) => none
  | .response _ request (.failure _) => if verb? request = some .launch then some .failed else none
  | .event _ .terminated => some .terminated
  | .event _ _ => none

def milestones (messages : List Message) : List Milestone := messages.filterMap Message.milestone?

theorem milestone?_other (seq : Nat) {request : Request} (outcome : Outcome)
    (launch : verb? request ≠ some .launch) (disconnect : verb? request ≠ some .disconnect) :
    (Message.response seq request outcome).milestone? = none := by
  cases outcome with
  | success answer => simp [Message.milestone?]
  | failure cause => cases cause <;> simp [Message.milestone?, launch]

theorem milestone?_notice (seq : Nat) {notice : Notice} (lasting : notice ≠ .terminated) :
    (Message.event seq notice).milestone? = none := by
  cases notice <;> first | rfl | exact absurd rfl lasting

theorem milestones_refused (seq : Nat) {request : Request} {cause : Refusal} (verb : verb? request = some .launch)
    (unstarted : ∀ phase, cause ≠ .alreadyStarted phase) :
    milestones [.response seq request (.failure cause)] = [.failed] := by
  cases cause with
  | alreadyStarted phase => exact absurd rfl (unstarted phase)
  | _ => simp [milestones, Message.milestone?, verb]

namespace Machine

inductive Course (host : Host ω) (s s' : State) (ended : Bool) : Occasion → List Milestone → Prop where
  | kept {occasion : Occasion} : ended = false → s'.phase = s.phase → s'.connected = s.connected →
      s'.pendingLaunch = s.pendingLaunch ∨ s.phase = .idle → Course host s s' ended occasion []
  | moved {occasion : Occasion} : ended = false →
      (s.connected = true ∧ s.phase = .stopped) ∨ (∃ item, occasion = .item item ∧ item.isReport = true) →
      s'.phase = .running ∨ s'.phase = .stopped → s'.connected = s.connected →
      s'.pendingLaunch = s.pendingLaunch → Course host s s' ended occasion []
  | connected {occasion : Occasion} : ended = false → s.pendingLaunch ≠ none ∨ s.phase = .idle →
      s'.phase = .running → s'.connected = true → s'.pendingLaunch = none →
      Course host s s' ended occasion [.connected]
  | failed {occasion : Occasion} : ended = false → s.pendingLaunch ≠ none ∨ s.phase = .idle →
      s'.phase = .idle → (host.StartsReaders → s'.connected = s.connected) → s'.pendingLaunch = none →
      Course host s s' ended occasion [.failed]
  | parted {item : Item} : ended = false → item.isFarewell = true → s'.phase = .disconnected →
      s'.connected = false → s'.pendingLaunch = s.pendingLaunch →
      Course host s s' ended (.item item) (if s.phase = .disconnected then [] else [.terminated])
  | disconnected {occasion : Occasion} : ended = true → s'.phase = .disconnected → s'.connected = false →
      Course host s s' ended occasion [.disconnected]
  | left {occasion : Occasion} : ended = true → s'.phase = s.phase → s'.connected = s.connected →
      Course host s s' ended occasion []

section

variable {host : Host ω} {m m' n : Machine ω}

theorem Background.course {may : Engine.Command → Prop} {occasion : Occasion} (background : Background may m m')
    (going : m.ended = false) : Course host m.state m'.state m'.ended occasion [] :=
  .kept (background.ended.trans going) background.phase background.connected (.inl background.pendingLaunch)

theorem respond_course {request : Request} {outcome : Outcome} (launch : verb? request ≠ some .launch)
    (disconnect : verb? request ≠ some .disconnect) (told : Told m n [])
    (course : Course host m.state n.state n.ended (.item (.request request)) []) :
    ∃ messages, Told m (n.respond request outcome) messages ∧
      Course host m.state (n.respond request outcome).state (n.respond request outcome).ended
        (.item (.request request)) (milestones messages) := by
  refine ⟨_, told.respond request outcome, ?_⟩
  have none : milestones ([] ++ [Message.response n.nextSeq request outcome]) = [] := by
    rw [List.nil_append, milestones, List.filterMap_cons_none (milestone?_other _ _ launch disconnect)]
    rfl
  rw [none]
  exact course

/-- A launch that is turned down leaves an idle session as idle as it was. -/
theorem refused_course {request : Request} {cause : Refusal} (verb : verb? request = some .launch)
    (unstarted : ∀ phase, cause ≠ .alreadyStarted phase) (idle : m.state.phase = .idle)
    (none : m.state.pendingLaunch = none) (quiet : Quiet m n) (going : m.ended = false) :
    ∃ messages, Told m (n.respond request (.failure cause)) messages ∧
      Course host m.state (n.respond request (.failure cause)).state (n.respond request (.failure cause)).ended
        (.item (.request request)) (milestones messages) := by
  refine ⟨_, quiet.told.respond request (.failure cause), ?_⟩
  rw [List.nil_append, milestones_refused _ verb unstarted]
  exact .failed (quiet.ended.trans going) (.inr idle) (quiet.phase.trans idle) (fun _ => quiet.connected)
    (quiet.pendingLaunch.trans none)

theorem announceAll_course {item : Item} {notices : List Notice}
    (lasting : ∀ notice ∈ notices, notice ≠ .terminated) (told : Told m n [])
    (course : Course host m.state n.state n.ended (.item item) []) :
    ∃ messages, Told m (n.announceAll notices) messages ∧
      Course host m.state (n.announceAll notices).state (n.announceAll notices).ended (.item item)
        (milestones messages) := by
  refine ⟨_, told.trans (told_announceAll n notices), ?_⟩
  have none : milestones ([] ++ events n.nextSeq notices) = [] := by
    apply List.filterMap_eq_nil_iff.mpr
    intro message member
    obtain ⟨seq, notice, among, rfl⟩ := mem_events member
    exact milestone?_notice seq (lasting notice among)
  rw [none, state_announceAll, ended_announceAll]
  exact course

theorem Attempted.course {s : State} {earlier messages : List Message} {occasion : Occasion}
    (attempted : Attempted host m m' messages) (plain : milestones earlier = []) (going : m.ended = false)
    (launches : ∀ request, m.pendingRequest = some request → verb? request = some .launch)
    (phase : m.state.phase = s.phase) (linked : m.state.connected = s.connected)
    (pending : m.state.pendingLaunch = s.pendingLaunch ∨ s.phase = .idle) :
    Course host s m'.state m'.ended occasion (milestones (earlier ++ messages)) := by
  have skipped : milestones (earlier ++ messages) = milestones messages := by
    rw [milestones, List.filterMap_append, ← milestones, plain]
    rfl
  rw [skipped]
  have ready {launch : PendingLaunch} (waiting : m.state.pendingLaunch = some launch) :
      (s.pendingLaunch ≠ none ∨ s.phase = .idle) ∧ verb? launch.request = some .launch := by
    refine ⟨pending.imp_left fun same => ?_, launches launch.request (by rw [pendingRequest, waiting]; rfl)⟩
    rw [← same, waiting]
    exact Option.some_ne_none _
  cases attempted with
  | nothing _ same =>
    rw [same]
    exact .kept going phase linked pending
  | @succeeded launch seq waiting taken _ ended running connected =>
    obtain ⟨free, verb⟩ := ready waiting
    have milestone : milestones [.response seq launch.request (.success .nothing)] = [.connected] := by
      simp [milestones, Message.milestone?, verb]
    rw [milestone]
    exact .connected (ended.trans going) free running connected taken
  | @failed launch seq fault waiting taken _ ended idle connected =>
    obtain ⟨free, verb⟩ := ready waiting
    rw [milestones_refused seq verb fun _ => Refusal.noConfusion]
    exact .failed (ended.trans going) free idle (fun starts => (connected starts).trans linked) taken

theorem Handled.course {occasion : Occasion} (handled : Handled host m occasion m') (going : m.ended = false)
    (launches : ∀ request, m.pendingRequest = some request → verb? request = some .launch) :
    ∃ messages, Told m m' messages ∧ Course host m.state m'.state m'.ended occasion (milestones messages) := by
  cases handled with
  | @replied request outcome before after start plain quiet asked =>
    exact respond_course (plain_other plain rfl) (plain_other plain rfl) (quiet.told.silently asked rfl rfl)
      (.kept (asked.ended.trans (quiet.ended.trans going)) (asked.phase.trans quiet.phase)
        (asked.connected.trans quiet.connected) (.inl (asked.pendingLaunch.trans quiet.pendingLaunch)))
  | @introduced request before verb quiet =>
    have told := (quiet.told.respond request (.success .capabilities)).trans
      (told_announce (before.respond request (.success .capabilities)) .initialized)
    have none : milestones (([] ++ [Message.response before.nextSeq request (.success .capabilities)]) ++
        [Message.event (before.respond request (.success .capabilities)).nextSeq .initialized]) = [] := by
      simp [milestones, Message.milestone?, verb]
    refine ⟨_, told, ?_⟩
    rw [none]
    exact quiet.course going
  | @breakpointsSet request before after file wanted verb quiet informed _ =>
    exact respond_course (by rw [verb]; decide) (by rw [verb]; decide) (quiet.told.silently informed rfl rfl)
      (.kept (informed.ended.trans (quiet.ended.trans going)) (informed.phase.trans quiet.phase)
        (informed.connected.trans quiet.connected) (.inl (informed.pendingLaunch.trans quiet.pendingLaunch)))
  | @resumed request verb command before after answer pausing named resumption connected quiet sent =>
    have told := quiet.told.silently sent (emitted_handOver _ _ _) rfl
    refine respond_course (resumption_other named resumption rfl) (resumption_other named resumption rfl)
      (told.kept rfl rfl) ?_
    have ended : after.ended = false := sent.ended.trans (quiet.ended.trans going)
    have linked : after.state.connected = m.state.connected := sent.connected.trans quiet.connected
    have pending : after.state.pendingLaunch = m.state.pendingLaunch := sent.pendingLaunch.trans quiet.pendingLaunch
    -- only an engine that stood still is moved by the command
    by_cases stopped : m.state.phase = .stopped
    · exact .moved ended (.inl ⟨connected, stopped⟩) (.inl (if_pos stopped)) linked pending
    · exact .kept ended (if_neg stopped) linked (.inl pending)
  | notWritten _ named resumption _ quiet failed =>
    exact respond_course (resumption_other named resumption rfl) (resumption_other named resumption rfl)
      (quiet.told.silently failed (emitted_handOver _ _ _) rfl)
      (.kept (failed.ended.trans (quiet.ended.trans going)) (failed.phase.trans quiet.phase)
        (failed.connected.trans quiet.connected) (.inl (failed.pendingLaunch.trans quiet.pendingLaunch)))
  | notResumed named resumption _ quiet =>
    exact respond_course (resumption_other named resumption rfl) (resumption_other named resumption rfl) quiet.told
      (quiet.course going)
  | repeated verb _ quiet =>
    exact ⟨_, quiet.told.respond _ _, quiet.course going⟩
  | unreadable _ verb idle none _ quiet | homeless _ _ verb idle none _ _ quiet =>
    exact refused_course verb (fun _ => Refusal.noConfusion) idle none quiet going
  | putOff arguments resolver tracing verb idle none unconfigured _ quiet ready =>
    exact ⟨_, quiet.told.silently ready rfl rfl, .kept (ready.ended.trans (quiet.ended.trans going))
      (ready.phase.trans quiet.phase) (ready.connected.trans quiet.connected) (.inr idle)⟩
  | @started request before ready after arguments resolver tracing verb idle none _ _ quiet prepared launched =>
    obtain ⟨messages, told, attempted⟩ := launched.attempted
    refine ⟨_, (quiet.told.silently prepared rfl rfl).trans told, ?_⟩
    have pending : ready.state.pendingLaunch = some ⟨request, arguments⟩ := prepared.pendingLaunch
    have launch : ∀ other, ready.pendingRequest = some other → verb? other = some .launch := by
      intro other same
      rw [pendingRequest, pending] at same
      cases same
      exact verb
    exact attempted.course rfl (prepared.ended.trans (quiet.ended.trans going)) launch
      (prepared.phase.trans quiet.phase) (prepared.connected.trans quiet.connected) (.inr idle)
  | @configured request before after verb quiet launched =>
    obtain ⟨messages, told, attempted⟩ := launched.attempted
    have first : Told m { before with state := { before.state with configured := true } } [] :=
      quiet.told.kept rfl rfl
    have plain : milestones ([] ++ [Message.response before.nextSeq request (.success .nothing)]) = [] := by
      simp [milestones, Message.milestone?, verb]
    refine ⟨_, (first.respond request (.success .nothing)).trans told, ?_⟩
    exact attempted.course plain (quiet.ended.trans going) (pendingRequest_same quiet.pendingLaunch ▸ launches)
      quiet.phase quiet.connected (.inl quiet.pendingLaunch)
  | @disconnected request before verb quiet =>
    have first : Told m { before with
        state := { before.state with phase := .disconnected, connected := false }, reader := none } [] :=
      quiet.told.kept rfl rfl
    refine ⟨_, (first.respond request (.success .nothing)).kept rfl rfl, ?_⟩
    have milestone : milestones ([] ++ [Message.response before.nextSeq request (.success .nothing)]) =
        [.disconnected] := by
      simp [milestones, Message.milestone?, verb]
    exact milestone ▸ .disconnected rfl rfl rfl
  | left quiet => exact ⟨_, quiet.told.kept rfl rfl, .left rfl quiet.phase quiet.connected⟩
  | announced before stack phase pausing notices _ _ _ quiet lasting moved =>
    refine announceAll_course lasting (quiet.told.kept rfl rfl) ?_
    rcases moved with same | ⟨report, moved⟩
    · exact .kept (quiet.ended.trans going) same quiet.connected (.inl quiet.pendingLaunch)
    · exact .moved (quiet.ended.trans going) (.inr ⟨_, rfl, report⟩) moved quiet.connected quiet.pendingLaunch
  | @parted item before farewell quiet =>
    have parted : Course host m.state { before.state with connected := false, phase := .disconnected } before.ended
        (.item item) _ := .parted (quiet.ended.trans going) farewell rfl rfl quiet.pendingLaunch
    have told : Told m { before with state := { before.state with
        connected := false, phase := .disconnected } } [] := quiet.told.kept rfl rfl
    -- who has disconnected already is not told again
    split
    · next gone =>
      rw [if_pos gone] at parted
      exact ⟨_, told, parted⟩
    · next present =>
      rw [if_neg present] at parted
      exact ⟨_, told.trans (told_announce _ .terminated), parted⟩
  | overdue quiet launched =>
    obtain ⟨messages, told, attempted⟩ := launched.attempted
    refine ⟨_, quiet.told.trans told, ?_⟩
    exact attempted.course rfl (quiet.ended.trans going) (pendingRequest_same quiet.pendingLaunch ▸ launches)
      quiet.phase quiet.connected (.inl quiet.pendingLaunch)

end

end Machine

end DebugBridge.Session
