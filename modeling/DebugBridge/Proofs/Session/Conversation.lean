import DebugBridge.Proofs.Session.History

/-! What a client is told, and how its requests are answered.

A request is answered in the turn that deals with it. The one exception is a launch that waits for the end of
the configuration: it is answered in the turn that ends the wait. -/

set_option autoImplicit false

namespace DebugBridge.Protocol

def Envelope.seq : Envelope → Nat
  | .response seq _ _ _ _ _ | .event seq _ _ => seq

abbrev Label := Int64 × String

def Envelope.answered? : Envelope → Option Label
  | .response _ requestSeq _ command _ _ => some (requestSeq, command)
  | .event _ _ _ => none

def Request.label (request : Request) : Label := (request.seq, request.command)

end DebugBridge.Protocol

namespace DebugBridge.Session

open Protocol

variable {ω : Type}

def answered (messages : List Message) : List Label := messages.filterMap fun message => message.envelope.answered?

def events (seq : Nat) : List Notice → List Message
  | [] => []
  | notice :: rest => .event seq notice :: events (seq + 1) rest

theorem mem_events {seq : Nat} {notices : List Notice} {message : Message} (member : message ∈ events seq notices) :
    ∃ seq, ∃ notice ∈ notices, message = .event seq notice := by
  induction notices generalizing seq with
  | nil => cases member
  | cons notice rest ih =>
    rcases List.mem_cons.mp member with rfl | member
    · exact ⟨seq, notice, List.mem_cons_self, rfl⟩
    · obtain ⟨later, other, among, same⟩ := ih member
      exact ⟨later, other, List.mem_cons_of_mem _ among, same⟩

namespace Machine

structure Told (m m' : Machine ω) (messages : List Message) : Prop where
  emitted : m'.emitted = m.emitted ++ messages
  numbered : messages.map (fun message => message.envelope.seq) = List.range' m.nextSeq messages.length
  nextSeq : m'.nextSeq = m.nextSeq + messages.length

section

variable {m m' n n' : Machine ω} {messages : List Message}

theorem told_nothing (m : Machine ω) : Told m m [] := ⟨(List.append_nil _).symm, rfl, rfl⟩

theorem Told.trans {later : List Message} (first : Told m m' messages) (second : Told m' n later) :
    Told m n (messages ++ later) where
  emitted := by rw [second.emitted, first.emitted, List.append_assoc]
  numbered := by
    rw [List.map_append, first.numbered, second.numbered, first.nextSeq, List.range'_append_1, List.length_append]
  nextSeq := by rw [second.nextSeq, first.nextSeq, List.length_append, Nat.add_assoc]

theorem Told.kept (told : Told m m' messages) (emitted : n.emitted = m'.emitted)
    (nextSeq : n.nextSeq = m'.nextSeq) : Told m n messages where
  emitted := emitted.trans told.emitted
  numbered := told.numbered
  nextSeq := nextSeq.trans told.nextSeq

theorem Told.silently {may : Engine.Command → Prop} (told : Told m m' messages) (background : Background may n n')
    (emitted : n.emitted = m'.emitted) (nextSeq : n.nextSeq = m'.nextSeq) : Told m n' messages :=
  told.kept (background.emitted.trans emitted) (background.nextSeq.trans nextSeq)

theorem Background.told {may : Engine.Command → Prop} (background : Background may m m') : Told m m' [] :=
  (told_nothing m).silently background rfl rfl

theorem Told.respond (told : Told m m' messages) (request : Request) (outcome : Outcome) :
    Told m (m'.respond request outcome) (messages ++ [.response m'.nextSeq request outcome]) :=
  told.trans
    { emitted := emitted_record m' _
      numbered := by cases outcome <;> rfl
      nextSeq := rfl }

theorem told_announce (m : Machine ω) (notice : Notice) :
    Told m (m.announce notice) [.event m.nextSeq notice] :=
  ⟨emitted_record m _, rfl, rfl⟩

theorem told_announceAll (m : Machine ω) (notices : List Notice) :
    Told m (m.announceAll notices) (events m.nextSeq notices) := by
  induction notices generalizing m with
  | nil => exact told_nothing m
  | cons notice rest ih => exact (told_announce m notice).trans (ih (m.announce notice))

end

/-! ## Requests and their answers -/

def pendingRequest (m : Machine ω) : Option Request := m.state.pendingLaunch.map PendingLaunch.request

section

variable {host : Host ω} {m m' : Machine ω}

theorem pendingRequest_same (same : m'.state.pendingLaunch = m.state.pendingLaunch) :
    m'.pendingRequest = m.pendingRequest := congrArg (Option.map PendingLaunch.request) same

inductive Attempted (host : Host ω) (m m' : Machine ω) : List Message → Prop where
  | nothing : m.state.pendingLaunch = none → m' = m → Attempted host m m' []
  | succeeded {launch : PendingLaunch} (seq : Nat) : m.state.pendingLaunch = some launch →
      m'.state.pendingLaunch = none → m'.state.configured = m.state.configured → m'.ended = m.ended →
      m'.state.phase = .running → m'.state.connected = true →
      Attempted host m m' [.response seq launch.request (.success .nothing)]
  | failed {launch : PendingLaunch} (seq : Nat) (fault : Engine.ConnectFault) :
      m.state.pendingLaunch = some launch → m'.state.pendingLaunch = none →
      m'.state.configured = m.state.configured → m'.ended = m.ended → m'.state.phase = .idle →
      (host.StartsReaders → m'.state.connected = m.state.connected) →
      Attempted host m m' [.response seq launch.request (.failure (.notConnected fault))]

theorem Launched.attempted (launched : Launched host m m') :
    ∃ messages, Told m m' messages ∧ Attempted host m m' messages := by
  cases launched with
  | nothing none => exact ⟨[], told_nothing _, .nothing none rfl⟩
  | @connected launch before informed after buffer written pending quiet informing _ last =>
    have told := (((told_nothing m).silently quiet rfl rfl).silently informing rfl rfl).respond
      launch.request (.success .nothing)
    refine ⟨_, told.silently last (emitted_handOver _ _ _) rfl, .succeeded _ pending ?_ ?_ ?_ ?_ ?_⟩
    · exact last.pendingLaunch.trans (informing.pendingLaunch.trans quiet.pendingLaunch)
    · exact last.configured.trans (informing.configured.trans quiet.configured)
    · exact last.ended.trans (informing.ended.trans quiet.ended)
    · exact last.phase.trans informing.phase
    · exact last.connected.trans informing.connected
  | @failed launch before fault unread pending unstarted quiet =>
    have told : Told m { before with state := { before.state with
        phase := .idle, connected := unread || before.state.connected, tracing := false } } [] :=
      ((told_nothing m).silently quiet rfl rfl).kept rfl rfl
    have connected (starts : host.StartsReaders) : (unread || before.state.connected) = m.state.connected := by
      cases unread with
      | false => exact quiet.connected
      | true => exact absurd starts (unstarted rfl)
    exact ⟨_, told.respond launch.request (.failure (.notConnected fault)), .failed _ fault pending
      quiet.pendingLaunch quiet.configured quiet.ended rfl connected⟩

theorem Attempted.answers {messages : List Message} (attempted : Attempted host m m' messages) :
    answered messages = (m.pendingRequest.map Request.label).toList ∧ m'.pendingRequest = none ∧
      m'.state.configured = m.state.configured := by
  cases attempted with
  | nothing none same =>
    rw [same, pendingRequest, none]
    exact ⟨rfl, rfl, rfl⟩
  | succeeded _ pending taken configured _ _ _ | failed _ _ pending taken configured _ _ _ =>
    rw [pendingRequest, pendingRequest, pending, taken]
    exact ⟨rfl, rfl, configured⟩

/-- How an occasion is answered, and what it means for the launch that waits. -/
inductive Settled (m m' : Machine ω) (labels : List Label) : Occasion → Prop where
  | atOnce {request : Request} : verb? request ≠ some .configurationDone → labels = [request.label] →
      m'.pendingRequest = m.pendingRequest → m'.state.configured = m.state.configured →
      Settled m m' labels (.item (.request request))
  | later {request : Request} : verb? request = some .launch → m.pendingRequest = none →
      m.state.configured = false → labels = [] → m'.pendingRequest = some request → m'.state.configured = false →
      Settled m m' labels (.item (.request request))
  | configured {request : Request} : verb? request = some .configurationDone →
      labels = request.label :: (m.pendingRequest.map Request.label).toList → m'.pendingRequest = none →
      m'.state.configured = true → Settled m m' labels (.item (.request request))
  | overdue {waited : Nat} : labels = (m.pendingRequest.map Request.label).toList → m'.pendingRequest = none →
      m'.state.configured = m.state.configured → Settled m m' labels (.overdue waited)
  | unasked {item : Item} : (∀ request, item ≠ .request request) → labels = [] →
      m'.pendingRequest = m.pendingRequest → m'.state.configured = m.state.configured →
      Settled m m' labels (.item item)

theorem respond_settled {request : Request} {outcome : Outcome} {before : Machine ω}
    (other : verb? request ≠ some .configurationDone) (told : Told m before [])
    (pending : before.state.pendingLaunch = m.state.pendingLaunch)
    (configured : before.state.configured = m.state.configured) :
    ∃ messages, Told m (before.respond request outcome) messages ∧
      Settled m (before.respond request outcome) (answered messages) (.item (.request request)) := by
  refine ⟨_, told.respond request outcome, .atOnce other ?_ ?_ configured⟩
  · cases outcome <;> rfl
  · rw [pendingRequest, pendingRequest]
    exact congrArg _ pending

theorem announceAll_settled {item : Item} {before : Machine ω} {notices : List Notice}
    (unasked : ∀ request, item ≠ .request request) (told : Told m before [])
    (pending : before.state.pendingLaunch = m.state.pendingLaunch)
    (configured : before.state.configured = m.state.configured) :
    ∃ messages, Told m (before.announceAll notices) messages ∧
      Settled m (before.announceAll notices) (answered messages) (.item item) := by
  have state := state_announceAll before notices
  refine ⟨_, told.trans (told_announceAll before notices), .unasked unasked ?_ (pendingRequest_same ?_) ?_⟩
  · apply List.filterMap_eq_nil_iff.mpr
    intro message member
    obtain ⟨seq, notice, _, rfl⟩ := mem_events member
    rfl
  · rw [state, pending]
  · rw [state, configured]

theorem Handled.answers {occasion : Occasion} (handled : Handled host m occasion m') :
    ∃ messages, Told m m' messages ∧ Settled m m' (answered messages) occasion := by
  cases handled with
  | @replied request outcome before after start plain quiet asked =>
    exact respond_settled (plain_other plain rfl) (quiet.told.silently asked rfl rfl)
      (asked.pendingLaunch.trans quiet.pendingLaunch) (asked.configured.trans quiet.configured)
  | @introduced request before verb quiet =>
    have told := (quiet.told.respond request (.success .capabilities)).trans
      (told_announce (before.respond request (.success .capabilities)) .initialized)
    exact ⟨_, told, .atOnce (by rw [verb]; decide) rfl (pendingRequest_same quiet.pendingLaunch) quiet.configured⟩
  | @breakpointsSet request before after file wanted verb quiet informed _ =>
    exact respond_settled (by rw [verb]; decide) (quiet.told.silently informed rfl rfl)
      (informed.pendingLaunch.trans quiet.pendingLaunch) (informed.configured.trans quiet.configured)
  | @resumed request verb command before after answer pausing named resumption connected quiet sent =>
    have told := quiet.told.silently sent (emitted_handOver _ _ _) rfl
    exact respond_settled (resumption_other named resumption rfl) (told.kept rfl rfl)
      (sent.pendingLaunch.trans quiet.pendingLaunch) (sent.configured.trans quiet.configured)
  | notWritten _ named resumption _ quiet failed =>
    exact respond_settled (resumption_other named resumption rfl)
      (quiet.told.silently failed (emitted_handOver _ _ _) rfl)
      (failed.pendingLaunch.trans quiet.pendingLaunch) (failed.configured.trans quiet.configured)
  | notResumed named resumption _ quiet =>
    exact respond_settled (resumption_other named resumption rfl) quiet.told quiet.pendingLaunch quiet.configured
  | repeated verb _ quiet =>
    exact respond_settled (by rw [verb]; decide) quiet.told quiet.pendingLaunch quiet.configured
  | unreadable _ verb _ _ _ quiet | homeless _ _ verb _ _ _ _ quiet =>
    exact respond_settled (by rw [verb]; decide) quiet.told quiet.pendingLaunch quiet.configured
  -- no answer yet: the launch waits from here on
  | putOff arguments resolver tracing verb _ none unconfigured _ quiet ready =>
    refine ⟨_, quiet.told.silently ready rfl rfl, .later verb ?_ unconfigured rfl ?_ ?_⟩
    · exact congrArg _ none
    · exact congrArg _ ready.pendingLaunch
    · exact ready.configured.trans (quiet.configured.trans unconfigured)
  | started arguments resolver tracing verb _ none _ _ quiet ready launched =>
    obtain ⟨messages, told, attempted⟩ := launched.attempted
    obtain ⟨answers, pending, configured⟩ := attempted.answers
    refine ⟨_, (quiet.told.silently ready rfl rfl).trans told, .atOnce (by rw [verb]; decide) ?_ ?_ ?_⟩
    · rw [List.nil_append, answers, pendingRequest, ready.pendingLaunch]
      rfl
    · rw [pending, pendingRequest, none]
      rfl
    · exact configured.trans (ready.configured.trans quiet.configured)
  | @configured request before _ verb quiet launched =>
    obtain ⟨messages, told, attempted⟩ := launched.attempted
    obtain ⟨answers, pending, configured⟩ := attempted.answers
    have first : Told m { before with state := { before.state with configured := true } } [] :=
      quiet.told.kept rfl rfl
    refine ⟨_, (first.respond request (.success .nothing)).trans told, .configured verb ?_ pending configured⟩
    rw [← pendingRequest_same quiet.pendingLaunch]
    exact congrArg _ answers
  | @disconnected request before verb quiet =>
    have first : Told m { before with
        state := { before.state with phase := .disconnected, connected := false }, reader := none } [] :=
      quiet.told.kept rfl rfl
    exact ⟨_, (first.respond request (.success .nothing)).kept rfl rfl, .atOnce (by rw [verb]; decide) rfl
      (pendingRequest_same quiet.pendingLaunch) quiet.configured⟩
  | left quiet =>
    exact ⟨_, quiet.told.kept rfl rfl, .unasked (fun _ => Item.noConfusion) rfl
      (pendingRequest_same quiet.pendingLaunch) quiet.configured⟩
  | announced before stack phase pausing notices unasked _ _ quiet _ _ =>
    exact announceAll_settled unasked (quiet.told.kept rfl rfl) quiet.pendingLaunch quiet.configured
  | parted farewell quiet =>
    refine announceAll_settled ?_ (quiet.told.kept rfl rfl) quiet.pendingLaunch quiet.configured
    rintro request rfl
    cases farewell
  | overdue quiet launched =>
    obtain ⟨messages, told, attempted⟩ := launched.attempted
    obtain ⟨answers, pending, configured⟩ := attempted.answers
    refine ⟨_, quiet.told.trans told, .overdue ?_ pending (configured.trans quiet.configured)⟩
    rw [List.nil_append, answers, pendingRequest_same quiet.pendingLaunch]

end

end Machine

/-! ## Turns -/

namespace Turn

def answers (turn : Turn ω) : List Label := answered turn.messages

def EndsConfiguration (turn : Turn ω) : Prop :=
  ∃ request, turn.request? = some request ∧ verb? request = some .configurationDone

def leaves (waiting : Option Request) (turn : Turn ω) : Option Request :=
  match turn.occasion with
  | .overdue _ => none
  | .item (.request request) =>
    if verb? request = some .configurationDone then none
    else if verb? request = some .launch ∧ turn.answers = [] then some request
    else waiting
  | .item _ => waiting

end Turn

def waitingLaunch (turns : List (Turn ω)) : Option Request := turns.foldl Turn.leaves none

theorem waitingLaunch_snoc (turns : List (Turn ω)) (turn : Turn ω) :
    waitingLaunch (turns ++ [turn]) = turn.leaves (waitingLaunch turns) := by
  rw [waitingLaunch, List.foldl_append]
  rfl

namespace Machine

section

variable {host : Host ω} {world : ω} {m : Machine ω} {turn : Turn ω}

theorem Took.told (took : Took host m turn) : Told turn.before turn.after turn.messages ∧
    Settled turn.before turn.after turn.answers turn.occasion := by
  obtain ⟨messages, told, settled⟩ := took.handled.answers
  have same : turn.messages = messages := by rw [Turn.messages, told.emitted, List.drop_left]
  rw [Turn.answers, same]
  exact ⟨told, settled⟩

theorem Took.pendingRequest (took : Took host m turn) : turn.before.pendingRequest = m.pendingRequest :=
  pendingRequest_same (by rw [took.state])

theorem Settled.leaves (settled : Settled turn.before turn.after turn.answers turn.occasion) :
    turn.leaves turn.before.pendingRequest = turn.after.pendingRequest := by
  obtain ⟨occasion, before, after⟩ := turn
  cases settled with
  | atOnce other answers pending _ =>
    dsimp only [Turn.leaves]
    rw [if_neg other, if_neg (by rw [answers]; simp), pending]
  | later verb _ _ answers pending _ =>
    dsimp only [Turn.leaves]
    rw [if_neg (by rw [verb]; decide), if_pos ⟨verb, answers⟩, pending]
  | configured verb _ pending _ =>
    dsimp only [Turn.leaves]
    rw [if_pos verb, pending]
  | overdue _ pending _ => exact pending.symm
  | @unasked item unasked _ pending _ =>
    cases item with
    | request request => exact absurd rfl (unasked request)
    | _ => exact pending.symm

theorem Settled.endsConfiguration (settled : Settled turn.before turn.after turn.answers turn.occasion) :
    turn.after.state.configured = true ↔ turn.before.state.configured = true ∨ turn.EndsConfiguration := by
  obtain ⟨occasion, before, after⟩ := turn
  cases settled with
  | atOnce other _ _ configured =>
    rw [configured, iff_self_or]
    rintro ⟨request, ⟨⟩, verb⟩
    exact absurd verb other
  | later verb _ unconfigured _ _ configured =>
    rw [configured, unconfigured, iff_self_or]
    rintro ⟨request, ⟨⟩, other⟩
    rw [verb] at other
    cases other
  | @configured request verb _ _ configured => exact iff_of_true configured (.inr ⟨request, rfl, verb⟩)
  | overdue _ _ configured =>
    rw [configured, iff_self_or]
    rintro ⟨request, ⟨⟩, _⟩
  | @unasked item unasked _ _ configured =>
    rw [configured, iff_self_or]
    rintro ⟨request, asked, _⟩
    cases (request?_unasked unasked).symm.trans asked

/-- What a session knows of its past: which launch waits, and whether the configuration is done. -/
structure Ledger (turns : List (Turn ω)) (m : Machine ω) : Prop where
  pending : m.pendingRequest = waitingLaunch turns
  configured : m.state.configured = true ↔ ∃ turn ∈ turns, turn.EndsConfiguration
  settled : m.state.configured = true → m.pendingRequest = none
  verb : ∀ request, m.pendingRequest = some request → verb? request = some .launch

theorem Ledger.same {turns : List (Turn ω)} {m' : Machine ω} (ledger : Ledger turns m)
    (pending : m'.state.pendingLaunch = m.state.pendingLaunch)
    (configured : m'.state.configured = m.state.configured) : Ledger turns m' := by
  have same := pendingRequest_same pending
  constructor
  · rw [same, ledger.pending]
  · rw [configured, ledger.configured]
  · rw [configured, same]
    exact ledger.settled
  · rw [same]
    exact ledger.verb

theorem Ledger.next {turns : List (Turn ω)} (ledger : Ledger turns m) (took : Took host m turn) :
    Ledger (turns ++ [turn]) turn.after := by
  obtain ⟨-, settled⟩ := took.told
  have free := ledger.settled
  have launch := ledger.verb
  rw [← took.pendingRequest] at launch free
  rw [← took.state] at free
  constructor
  · rw [waitingLaunch_snoc, ← ledger.pending, ← took.pendingRequest, settled.leaves]
  · rw [settled.endsConfiguration, took.state, ledger.configured]
    simp only [List.mem_append, List.mem_singleton, or_and_right, exists_or, exists_eq_left]
  -- only where a launch is put off does one come to wait, and then the configuration is not done
  · generalize turn.occasion = occasion at settled
    cases settled with
    | atOnce _ _ pending configured => rwa [configured, pending]
    | later _ _ _ _ _ configured =>
      intro done
      rw [configured] at done
      cases done
    | configured _ _ pending _ | overdue _ pending _ => exact fun _ => pending
    | unasked _ _ pending configured => rwa [configured, pending]
  · intro request waiting
    generalize turn.occasion = occasion at settled
    cases settled with
    | atOnce _ _ pending _ | unasked _ _ pending _ => exact launch request (pending ▸ waiting)
    | later verb _ _ _ pending _ =>
      rw [pending] at waiting
      cases waiting
      exact verb
    | configured _ _ pending _ | overdue _ pending _ =>
      rw [pending] at waiting
      cases waiting

theorem History.ledger {received : List Request} {turns : List (Turn ω)}
    (history : History host world received turns m) : Ledger turns m := by
  induction history with
  | start =>
    refine ⟨rfl, iff_of_false Bool.false_ne_true ?_, fun _ => rfl, fun _ waiting => nomatch waiting⟩
    rintro ⟨turn, member, -⟩
    cases member
  | step history step ih =>
    cases step with
    | took took => exact ih.next took
    | asked _ => exact (List.append_nil _).symm ▸ ih.same rfl rfl
    | closed quiet => exact (List.append_nil _).symm ▸ ih.same quiet.pendingLaunch quiet.configured
    | listened quiet => exact (List.append_nil _).symm ▸ ih.same quiet.pendingLaunch quiet.configured

/-- Every message of a run is told in one of its turns, and they are numbered without a gap. -/
theorem History.told {received : List Request} {turns : List (Turn ω)}
    (history : History host world received turns m) :
    Told (initial host world) m (turns.flatMap Turn.messages) := by
  induction history with
  | start => exact told_nothing _
  | step history step ih =>
    rw [List.flatMap_append]
    cases step with
    | took took =>
      rw [List.flatMap_singleton]
      exact (ih.kept took.emitted took.nextSeq).trans took.told.1
    | asked _ => exact (List.append_nil _).symm ▸ ih.kept rfl rfl
    | closed quiet => exact (List.append_nil _).symm ▸ (ih.silently quiet rfl rfl).kept rfl rfl
    | listened quiet => exact (List.append_nil _).symm ▸ ih.silently quiet rfl rfl

theorem Settled.balance (settled : Settled turn.before turn.after turn.answers turn.occasion) :
    (turn.answers ++ (turn.after.pendingRequest.map Request.label).toList).Perm
      ((turn.before.pendingRequest.map Request.label).toList ++ (turn.request?.map Request.label).toList) := by
  obtain ⟨occasion, before, after⟩ := turn
  cases settled with
  | atOnce _ answers pending _ =>
    rw [answers, pending]
    exact List.perm_append_comm
  | later _ none _ answers pending _ =>
    rw [answers, pending, none]
    exact .refl _
  | configured _ answers pending _ =>
    rw [answers, pending]
    exact (List.append_nil _).symm ▸ (List.perm_append_singleton _ _).symm
  | overdue answers pending _ =>
    rw [answers, pending]
    exact .refl _
  | @unasked item unasked answers pending _ =>
    rw [answers, pending, Turn.request?]
    dsimp only
    rw [request?_unasked unasked]
    exact (List.append_nil _).symm ▸ .refl _

theorem requests_snoc (turns : List (Turn ω)) (turn : Turn ω) :
    (turns ++ [turn]).filterMap Turn.request? = turns.filterMap Turn.request? ++ turn.request?.toList := by
  rw [List.filterMap_append]
  cases asked : turn.request? <;> simp [asked]

/-- Answers and the launch that waits balance the requests. -/
theorem History.balance {received : List Request} {turns : List (Turn ω)}
    (history : History host world received turns m) :
    (turns.flatMap Turn.answers ++ ((waitingLaunch turns).map Request.label).toList).Perm
      ((turns.filterMap Turn.request?).map Request.label) := by
  induction history with
  | start => exact .refl _
  | step history step ih =>
    cases step with
    | @took turn took =>
      have balance := took.told.2.balance
      rw [took.pendingRequest, history.ledger.pending, (history.ledger.next took).pending] at balance
      rw [requests_snoc, List.flatMap_append, List.flatMap_singleton, List.map_append, List.append_assoc,
        ← Option.toList_map]
      exact (balance.append_left _).trans ((List.append_assoc _ _ _) ▸ ih.append_right _)
    | asked _ | closed _ | listened _ => rwa [List.append_nil]

/-- No request gets lost: what was received has been dealt with or waits for it, in this order. -/
theorem History.requests {received : List Request} {turns : List (Turn ω)}
    (history : History host world received turns m) : turns.filterMap Turn.request? ++ m.waiting = received := by
  induction history with
  | start => rfl
  | step history step ih =>
    cases step with
    | @took turn took =>
      rw [took.waiting, ← took.handled.waiting] at ih
      rw [List.append_nil, requests_snoc, List.append_assoc, ih]
    | asked _ => rw [List.append_nil, waiting_post, ← List.append_assoc, ih]; rfl
    | closed quiet => rw [List.append_nil, List.append_nil, waiting_post_other _ rfl, quiet.waiting, ih]
    | listened quiet => rw [List.append_nil, List.append_nil, quiet.waiting, ih]

/-! ## The answers of a run -/

theorem Settled.request {request : Request}
    (settled : Settled turn.before turn.after turn.answers turn.occasion) (asked : turn.request? = some request)
    (other : verb? request ≠ some .launch) :
    turn.answers = request.label ::
      if verb? request = some .configurationDone then (turn.before.pendingRequest.map Request.label).toList
      else [] := by
  obtain ⟨occasion, before, after⟩ := turn
  cases settled with
  | atOnce unfinished answers _ _ =>
    cases asked
    rw [answers, if_neg unfinished]
  | later verb => cases asked; exact absurd verb other
  | configured verb answers _ _ =>
    cases asked
    rw [answers, if_pos verb]
  | overdue => cases asked
  | @unasked item unasked _ _ _ =>
    cases (request?_unasked unasked).symm.trans asked

theorem Settled.launch {request : Request}
    (settled : Settled turn.before turn.after turn.answers turn.occasion) (asked : turn.request? = some request)
    (verb : verb? request = some .launch) :
    turn.answers = [request.label] ∨
      turn.answers = [] ∧ turn.before.pendingRequest = none ∧ turn.before.state.configured = false := by
  obtain ⟨occasion, before, after⟩ := turn
  cases settled with
  | atOnce _ answers _ _ =>
    cases asked
    exact .inl answers
  | later _ none unconfigured answers _ _ => exact .inr ⟨answers, none, unconfigured⟩
  | configured finished =>
    cases asked
    rw [verb] at finished
    cases finished
  | overdue => cases asked
  | @unasked item unasked _ _ _ =>
    cases (request?_unasked unasked).symm.trans asked

theorem Settled.unrequested (settled : Settled turn.before turn.after turn.answers turn.occasion)
    (unasked : turn.request? = none) :
    turn.answers =
      match turn.occasion with
      | .overdue _ => (turn.before.pendingRequest.map Request.label).toList
      | .item _ => [] := by
  obtain ⟨occasion, before, after⟩ := turn
  cases settled with
  | atOnce | later | configured => cases unasked
  | overdue answers _ _ | unasked _ answers _ _ => exact answers

/-- How a run answers: every request but a launch in its own turn; a launch in its own turn or when the
configuration is done or overdue, whichever comes first; nothing else at all. -/
structure Answering (received : List Request) (turns : List (Turn ω)) (m : Machine ω) : Prop where
  request {past later : List (Turn ω)} {turn : Turn ω} {request : Request} : turns = past ++ turn :: later →
    turn.request? = some request → verb? request ≠ some .launch →
    turn.answers = request.label ::
      if verb? request = some .configurationDone then ((waitingLaunch past).map Request.label).toList else []
  launch {past later : List (Turn ω)} {turn : Turn ω} {request : Request} : turns = past ++ turn :: later →
    turn.request? = some request → verb? request = some .launch →
    turn.answers = [request.label] ∨
      turn.answers = [] ∧ waitingLaunch past = none ∧ ∀ earlier ∈ past, ¬ earlier.EndsConfiguration
  unrequested {past later : List (Turn ω)} {turn : Turn ω} : turns = past ++ turn :: later → turn.request? = none →
    turn.answers =
      match turn.occasion with
      | .overdue _ => ((waitingLaunch past).map Request.label).toList
      | .item _ => []
  balance : (turns.flatMap Turn.answers ++ ((waitingLaunch turns).map Request.label).toList).Perm
    ((turns.filterMap Turn.request?).map Request.label)
  finished : (∃ turn ∈ turns, turn.EndsConfiguration) → waitingLaunch turns = none
  requests : turns.filterMap Turn.request? ++ m.waiting = received
  messages : m.emitted = turns.flatMap Turn.messages
  numbered : m.emitted.map (fun message => message.envelope.seq) = List.range' 1 m.emitted.length

end

theorem requests_answered_once (host : Host ω) (world : ω) (actions : List Action) :
    Answering (actions.filterMap Action.request?) ((initial host world).turns host actions)
      ((initial host world).run host actions) := by
  have history := run_history host world actions
  have told := history.told
  have emitted : ((initial host world).run host actions).emitted = _ := told.emitted.trans (List.nil_append _)
  constructor
  case request =>
    intro past later turn request all asked other
    obtain ⟨earlier, before, history, took⟩ := (all ▸ history).split
    rw [took.told.2.request asked other, took.pendingRequest, history.ledger.pending]
  case launch =>
    intro past later turn request all asked verb
    obtain ⟨earlier, before, history, took⟩ := (all ▸ history).split
    refine (took.told.2.launch asked verb).imp_right fun ⟨answers, free, unconfigured⟩ => ⟨answers, ?_, ?_⟩
    · rw [← history.ledger.pending, ← took.pendingRequest, free]
    -- who ended the configuration before would have left no launch waiting
    · intro turn member ends
      have configured := history.ledger.configured.mpr ⟨turn, member, ends⟩
      rw [← took.state, unconfigured] at configured
      cases configured
  case unrequested =>
    intro past later turn all unasked
    obtain ⟨earlier, before, history, took⟩ := (all ▸ history).split
    rw [took.told.2.unrequested unasked, took.pendingRequest, history.ledger.pending]
  case balance => exact history.balance
  case finished =>
    intro ends
    rw [← history.ledger.pending]
    exact history.ledger.settled (history.ledger.configured.mpr ends)
  case requests => exact history.requests
  case messages => exact emitted
  case numbered =>
    rw [emitted]
    exact told.numbered

end Machine

end DebugBridge.Session
