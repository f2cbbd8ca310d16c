import DebugBridge.Proofs.Session.History

/-! What the engine is sent, and what becomes of the breakpoints meanwhile. -/

set_option autoImplicit false

namespace DebugBridge.Session.Machine

open Protocol

variable {ω : Type}

inductive Dispatch (host : Host ω) (s s' : State) : Occasion → List Engine.Command → Prop where
  | other {occasion : Occasion} {commands : List Engine.Command} :
      (∀ item, occasion = .item item → item.isReport = false) → s'.breakpoints = s.breakpoints →
      (∀ command ∈ commands, ¬ command.IsOfBreakpoints) → (s.connected = false → commands = []) →
      s'.connected = s.connected → (s.phase = .idle → s'.phase = .idle) → Dispatch host s s' occasion commands
  | parted {occasion : Occasion} : (∀ item, occasion = .item item → item.isReport = false) →
      s'.breakpoints = s.breakpoints → s'.connected = false → s'.phase = .disconnected →
      Dispatch host s s' occasion []
  /-- The connection is made, but nobody can be made to read it. -/
  | unread {occasion : Occasion} : (∀ item, occasion = .item item → item.isReport = false) →
      s.pendingLaunch ≠ none ∨ s.phase = .idle → ¬ host.StartsReaders → s'.breakpoints = s.breakpoints →
      s'.connected = true → s'.phase = .idle → Dispatch host s s' occasion []
  | informed {request : Request} (file : String) (wanted : List Breakpoint.Wanted) :
      s'.breakpoints = (s.breakpoints.replace file wanted).2 → s'.connected = s.connected → s'.phase = s.phase →
      Dispatch host s s' (.item (.request request))
        (if s.connected then (s.breakpoints.replace file wanted).1.commands else [])
  | launched {occasion : Occasion} : (∀ item, occasion = .item item → item.isReport = false) →
      s.pendingLaunch ≠ none ∨ s.phase = .idle → s'.breakpoints = s.breakpoints → s'.connected = true →
      s'.phase = .running → Dispatch host s s' occasion (s.breakpoints.replay ++ [.resume])
  | followed {item : Item} : s'.breakpoints = item.follow s.breakpoints → s'.connected = s.connected →
      s'.phase = s.phase ∨ item.isReport = true → Dispatch host s s' (.item item) []

section

variable {host : Host ω} {m m' : Machine ω}

theorem Background.unsent {may : Engine.Command → Prop} (background : Background may m m')
    (closed : m.state.connected = false) : m'.sent = m.sent := by
  induction background with
  | refl => rfl
  | tail before aside ih =>
    cases aside with
    | noted _ silent => rw [sent_record, silent, ih, Option.toList_none, List.append_nil]
    | unwritten =>
      rw [sent_record, ih]
      exact List.append_nil _
    | sent _ opened =>
      rw [Background.connected before, closed] at opened
      cases opened
    | _ => exact ih

theorem dispatch_nothing {s s' : State} {occasion : Occasion}
    (unreported : ∀ item, occasion = .item item → item.isReport = false) (table : s'.breakpoints = s.breakpoints)
    (linked : s'.connected = s.connected) (still : s.phase = .idle → s'.phase = .idle) :
    Dispatch host s s' occasion [] :=
  .other unreported table (List.forall_mem_nil _) (fun _ => rfl) linked still

theorem request_unreported (request : Request) :
    ∀ item, Occasion.item (.request request) = .item item → item.isReport = false := by
  rintro _ ⟨⟩
  rfl

theorem Launched.dispatch {s : State} {occasion : Occasion} (launched : Launched host m m')
    (unreported : ∀ item, occasion = .item item → item.isReport = false)
    (table : m.state.breakpoints = s.breakpoints) (linked : m.state.connected = s.connected)
    (phase : m.state.phase = s.phase) (free : m.state.pendingLaunch = s.pendingLaunch ∨ s.phase = .idle) :
    ∃ commands, m'.sent = m.sent ++ commands ∧ Dispatch host s m'.state occasion commands := by
  have waiting {launch : PendingLaunch} (pending : m.state.pendingLaunch = some launch) :
      s.pendingLaunch ≠ none ∨ s.phase = .idle := by
    apply free.imp_left
    intro same
    rw [← same, pending]
    exact Option.some_ne_none _
  cases launched with
  | nothing =>
    exact ⟨[], (List.append_nil _).symm, dispatch_nothing unreported table linked (phase ▸ id)⟩
  | @connected launch before informed after buffer written pending quiet informing sent last =>
    refine ⟨s.breakpoints.replay ++ [.resume], ?_, .launched unreported (waiting pending) ?_ ?_ ?_⟩
    · rw [last.sent, sent_handOver, sent_respond, sent, table, List.append_assoc]
    · exact last.breakpoints.trans (informing.breakpoints.trans (quiet.breakpoints.trans table))
    · exact last.connected.trans informing.connected
    · exact last.phase.trans informing.phase
  | @failed launch before fault unread pending unstarted quiet =>
    refine ⟨[], ?_, ?_⟩
    · rw [sent_respond, List.append_nil]
      exact quiet.sent
    · cases unread with
      | false =>
        exact dispatch_nothing unreported (quiet.breakpoints.trans table) (quiet.connected.trans linked) fun _ => rfl
      | true => exact .unread unreported (waiting pending) (unstarted rfl) (quiet.breakpoints.trans table) rfl rfl

theorem unsent_dispatch {occasion : Occasion} (unreported : ∀ item, occasion = .item item → item.isReport = false)
    (sent : m'.sent = m.sent) (table : m'.state.breakpoints = m.state.breakpoints)
    (linked : m'.state.connected = m.state.connected) (still : m.state.phase = .idle → m'.state.phase = .idle) :
    ∃ commands, m'.sent = m.sent ++ commands ∧ Dispatch host m.state m'.state occasion commands :=
  ⟨[], sent.trans (List.append_nil _).symm, dispatch_nothing unreported table linked still⟩

/-- A command that lets the engine go on is handed over, written or not. -/
theorem handOver_dispatch {request : Request} {verb : Verb} {command : Engine.Command} {written : Bool}
    {before after : Machine ω} (connected : m.state.connected = true) (resumption : verb.resumption? = some command)
    (quiet : Quiet m before) (sending : Quiet (before.handOver command written) after)
    (table : m'.state.breakpoints = after.state.breakpoints) (sent : m'.sent = after.sent)
    (linked : m'.state.connected = after.state.connected) (still : m.state.phase = .idle → m'.state.phase = .idle) :
    ∃ commands, m'.sent = m.sent ++ commands ∧
      Dispatch host m.state m'.state (.item (.request request)) commands := by
  refine ⟨[command], ?_, .other (request_unreported _) (table.trans (sending.breakpoints.trans quiet.breakpoints)) ?_ ?_
    (linked.trans (sending.connected.trans quiet.connected)) still⟩
  · rw [sent, sending.sent, sent_handOver, quiet.sent]
  · intro other member
    rw [List.mem_singleton.mp member]
    cases verb <;> cases resumption <;> exact id
  · intro closed
    rw [connected] at closed
    cases closed

theorem Handled.dispatch {occasion : Occasion} (handled : Handled host m occasion m') :
    ∃ commands, m'.sent = m.sent ++ commands ∧ Dispatch host m.state m'.state occasion commands := by
  cases handled with
  | @replied request outcome before after start plain quiet asked =>
    obtain ⟨commands, sent, inquiries⟩ := Background.sent asked
    have all : after.sent = m.sent ++ commands := sent.trans (congrArg (· ++ commands) quiet.sent)
    refine ⟨commands, (sent_respond _ _ _).trans all, .other (request_unreported request)
      (asked.breakpoints.trans quiet.breakpoints) ?_ ?_ (asked.connected.trans quiet.connected)
      fun idle => asked.phase.trans (quiet.phase.trans idle)⟩
    · intro command member
      have inquiry := inquiries command member
      cases command <;> first | exact id | cases inquiry
    -- without a connection nothing was sent, so there is nothing among the inquiries
    · intro closed
      have unsent : after.sent = m.sent := (Background.unsent asked (quiet.connected.trans closed)).trans quiet.sent
      exact List.append_right_eq_self.mp (all.symm.trans unsent)
  | @introduced request before verb quiet =>
    have sent := (sent_announceAll (before.respond request (.success .capabilities)) [.initialized]).trans
      ((sent_respond _ _ _).trans quiet.sent)
    exact unsent_dispatch (request_unreported _) sent quiet.breakpoints quiet.connected quiet.phase.trans
  | @breakpointsSet request before after file wanted verb quiet informing sent =>
    exact ⟨_, (sent_respond _ _ _).trans sent,
      .informed file wanted informing.breakpoints (informing.connected.trans quiet.connected)
        (informing.phase.trans quiet.phase)⟩
  | @resumed request verb command before after answer pausing named resumption connected quiet sending =>
    refine handOver_dispatch connected resumption quiet sending rfl (sent_respond _ _ _) rfl fun idle => ?_
    exact (if_neg (idle ▸ Phase.noConfusion)).trans idle
  | @notWritten request verb command before after reason named resumption connected quiet failing =>
    exact handOver_dispatch connected resumption quiet failing rfl (sent_respond _ _ _) rfl
      fun idle => failing.phase.trans (quiet.phase.trans idle)
  | notResumed _ _ _ quiet | repeated _ _ quiet | unreadable _ _ _ _ _ quiet
  | homeless _ _ _ _ _ _ _ quiet =>
    exact unsent_dispatch (request_unreported _) ((sent_respond _ _ _).trans quiet.sent) quiet.breakpoints
      quiet.connected quiet.phase.trans
  | putOff _ _ _ _ _ _ _ _ quiet ready =>
    exact unsent_dispatch (request_unreported _) (ready.sent.trans quiet.sent)
      (ready.breakpoints.trans quiet.breakpoints) (ready.connected.trans quiet.connected)
      fun idle => ready.phase.trans (quiet.phase.trans idle)
  | started _ _ _ _ idle _ _ _ quiet ready launched =>
    obtain ⟨commands, sent, dispatch⟩ := launched.dispatch (request_unreported _)
      (ready.breakpoints.trans quiet.breakpoints) (ready.connected.trans quiet.connected)
      (ready.phase.trans quiet.phase) (.inr idle)
    exact ⟨commands, sent.trans (congrArg (· ++ commands) (ready.sent.trans quiet.sent)), dispatch⟩
  | configured _ quiet launched =>
    obtain ⟨commands, sent, dispatch⟩ := launched.dispatch (request_unreported _) quiet.breakpoints quiet.connected
      quiet.phase (.inl quiet.pendingLaunch)
    exact ⟨commands, sent.trans (congrArg (· ++ commands) ((sent_respond _ _ _).trans quiet.sent)), dispatch⟩
  | disconnected _ quiet =>
    exact ⟨[], ((sent_respond _ _ _).trans quiet.sent).trans (List.append_nil _).symm,
      .parted (request_unreported _) quiet.breakpoints rfl rfl⟩
  | left quiet =>
    refine unsent_dispatch ?_ quiet.sent quiet.breakpoints quiet.connected quiet.phase.trans
    rintro _ ⟨⟩
    rfl
  | announced before _ _ _ notices _ _ _ quiet _ moved =>
    refine ⟨[], ?_, .followed ?_ ?_ ?_⟩
    · rw [sent_announceAll, List.append_nil]
      exact quiet.sent
    · rw [state_announceAll]
    · rw [state_announceAll]
      exact quiet.connected
    · rw [state_announceAll]
      exact moved.imp_right And.left
  | @parted item before farewell quiet =>
    refine ⟨[], ?_, .parted ?_ ?_ ?_ ?_⟩
    · rw [sent_announceAll, List.append_nil]
      exact quiet.sent
    · rintro _ ⟨⟩
      cases item <;> first | rfl | cases farewell
    · rw [state_announceAll]
      exact quiet.breakpoints
    · rw [state_announceAll]
    · rw [state_announceAll]
  | @overdue waited before after quiet launched =>
    have unreported : ∀ item, Occasion.overdue waited = .item item → item.isReport = false := nofun
    obtain ⟨commands, sent, dispatch⟩ := launched.dispatch unreported quiet.breakpoints quiet.connected
      quiet.phase (.inl quiet.pendingLaunch)
    exact ⟨commands, sent.trans (congrArg (· ++ commands) quiet.sent), dispatch⟩

end

/-! ## Runs -/

section

variable {host : Host ω} {world : ω} {m : Machine ω} {turn : Turn ω} {turns : List (Turn ω)}

theorem Took.dispatch (took : Took host m turn) : turn.after.sent = turn.before.sent ++ turn.commands ∧
    Dispatch host turn.before.state turn.after.state turn.occasion turn.commands := by
  obtain ⟨commands, sent, dispatch⟩ := took.handled.dispatch
  rw [commands_of sent]
  exact ⟨sent, dispatch⟩

theorem Took.unsent (took : Took host m turn) (closed : turn.before.state.connected = false)
    (still : turn.after.state.connected = false) : turn.commands = [] := by
  obtain ⟨-, dispatch⟩ := took.dispatch
  generalize turn.occasion = occasion, turn.commands = commands at dispatch
  cases dispatch with
  | other _ _ _ silent => exact silent closed
  | informed => rw [closed, if_neg Bool.false_ne_true]
  | launched _ _ _ opened =>
    rw [still] at opened
    cases opened
  | parted | unread | followed => rfl

/-- The turn that connects sends a replay and lets the engine go on, if the connection is read. -/
theorem Took.opening (took : Took host m turn) (closed : turn.before.state.connected = false)
    (opened : turn.after.state.connected = true) : (m.state.pendingLaunch ≠ none ∨ m.state.phase = .idle) ∧
      (turn.after.state.phase ≠ .idle ∨ host.StartsReaders →
        turn.commands = turn.before.state.breakpoints.replay ++ [.resume]) := by
  obtain ⟨-, dispatch⟩ := took.dispatch
  rw [← took.state]
  generalize turn.occasion = occasion, turn.commands = commands at dispatch
  cases dispatch with
  | other _ _ _ _ linked | informed _ _ _ linked | followed _ linked =>
    rw [linked, closed] at opened
    cases opened
  | parted _ _ gone =>
    rw [gone] at opened
    cases opened
  | unread _ free unstarted _ _ idle => exact ⟨free, fun read => (read.elim (absurd idle) unstarted).elim⟩
  | launched _ free => exact ⟨free, fun _ => rfl⟩

theorem History.sent {received : List Request} (history : History host world received turns m) :
    m.sent = turns.flatMap Turn.commands := by
  induction history with
  | start => rfl
  | step history step ih =>
    rw [List.flatMap_append, ← ih]
    cases step with
    | took took =>
      rw [took.dispatch.1, took.sent, List.flatMap_singleton]
    | asked _ => exact (List.append_nil _).symm
    | closed quiet | listened quiet => exact quiet.sent.trans (List.append_nil _).symm

end

end DebugBridge.Session.Machine
