import DebugBridge.Proofs.Session.Course
import DebugBridge.Proofs.Session.Link

/-! The life of a session.

It begins without an engine. Launches may fail, but once one has succeeded there is no other, and when the
engine is gone it stays gone. The messages that mark this life come in one order only. -/

set_option autoImplicit false

namespace DebugBridge.Session

open Protocol

variable {ω : Type}

namespace Machine

/-! ## Reachable states -/

def failures (n : Nat) : List Milestone := List.replicate n .failed

/-- The milestones that lead to a phase, with or without a connection, of a session that is over or not. They
come in this order only. -/
inductive Life : Phase → Bool → Bool → List Milestone → Prop where
  | idle (n : Nat) {ended : Bool} : Life .idle false ended (failures n)
  | connected (n : Nat) {phase : Phase} {ended : Bool} : phase = .running ∨ phase = .stopped →
      Life phase true ended (failures n ++ [.connected])
  | terminated (n : Nat) {ended : Bool} : Life .disconnected false ended (failures n ++ [.connected, .terminated])
  | disconnected {phase : Phase} {connected : Bool} {passed : List Milestone} : Life phase connected false passed →
      Life .disconnected false true (passed ++ [.disconnected])

section

variable {host : Host ω} {phase : Phase} {connected ended : Bool} {passed : List Milestone}

theorem Life.connected_iff (life : Life phase connected ended passed) :
    connected = true ↔ phase = .running ∨ phase = .stopped := by
  cases life with
  | connected _ going => exact iff_of_true rfl going
  | idle | terminated | disconnected => simp

theorem Life.of_idle (life : Life .idle connected ended passed) : connected = false ∧ ∃ n, passed = failures n := by
  cases life with
  | idle n => exact ⟨rfl, n, rfl⟩
  | connected _ going => rcases going with going | going <;> cases going

theorem Life.of_connected (life : Life phase true ended passed) : ∃ n, passed = failures n ++ [.connected] := by
  cases life with
  | connected n _ => exact ⟨n, rfl⟩

theorem Life.left (life : Life phase connected false passed) : Life phase connected true passed := by
  cases life with
  | idle n => exact .idle n
  | connected n going => exact .connected n going
  | terminated n => exact .terminated n

/-- What moves the execution comes from a connected engine, or finds the connection there. -/
theorem opened_of_reason {s : State} {occasion : Occasion}
    (reason : (s.connected = true ∧ s.phase = .stopped) ∨ ∃ item, occasion = .item item ∧ item.isReport = true)
    (linked : ∀ item, occasion = .item item → item.isOfEngine = true → s.connected = true) : s.connected = true := by
  rcases reason with ⟨opened, -⟩ | ⟨item, same, report⟩
  · exact opened
  · exact linked item same (Item.ofEngine_report report)

theorem Course.life {s s' : State} {occasion : Occasion} {new : List Milestone}
    (course : Course host s s' ended occasion new) (starts : host.StartsReaders)
    (life : Life s.phase s.connected false passed)
    (pending : s.pendingLaunch ≠ none → s.phase = .idle)
    (linked : ∀ item, occasion = .item item → item.isOfEngine = true → s.connected = true) :
    Life s'.phase s'.connected ended (passed ++ new) := by
  cases course with
  | kept ending phase connected _ =>
    rw [ending, phase, connected, List.append_nil]
    exact life
  | moved ending reason going same _ =>
    -- what moves the execution comes from the engine, so that there is a connection
    have opened := opened_of_reason reason linked
    rw [opened] at same life
    obtain ⟨n, rfl⟩ := life.of_connected
    rw [ending, same, List.append_nil]
    exact .connected n going
  | connected ending free running opened _ =>
    rw [free.elim pending id] at life
    obtain ⟨-, n, rfl⟩ := life.of_idle
    rw [ending, running, opened]
    exact .connected n (.inl rfl)
  | failed ending free idle same _ =>
    rw [free.elim pending id] at life
    obtain ⟨closed, n, rfl⟩ := life.of_idle
    rw [ending, idle, same starts, closed, failures, ← List.replicate_succ']
    exact .idle (n + 1)
  | parted ending farewell gone closed _ =>
    -- a farewell comes from the engine as well, and a session with a connection is not disconnected
    have opened := linked _ rfl (Item.ofEngine_farewell farewell)
    have present : s.phase ≠ .disconnected := by
      intro absent
      have going := life.connected_iff.mp opened
      rw [absent] at going
      rcases going with going | going <;> cases going
    rw [opened] at life
    obtain ⟨n, rfl⟩ := life.of_connected
    rw [ending, gone, closed, if_neg present, List.append_assoc]
    exact .terminated n
  | disconnected ending gone closed =>
    rw [ending, gone, closed]
    exact .disconnected life
  | left ending phase connected =>
    rw [ending, phase, connected, List.append_nil]
    exact life.left

theorem Course.idle {s s' : State} {occasion : Occasion} {new : List Milestone}
    (course : Course host s s' ended occasion new) (pending : s.pendingLaunch ≠ none → s.phase = .idle)
    (idle : s'.phase = .idle) : s.phase = .idle := by
  cases course with
  | kept _ phase | left _ phase => exact phase ▸ idle
  | moved _ _ going =>
    rw [idle] at going
    rcases going with going | going <;> cases going
  | connected _ free | failed _ free => exact free.elim pending id
  | parted _ _ phase | disconnected _ phase =>
    rw [phase] at idle
    cases idle

/-- A launch that waits is an idle session's. -/
theorem Course.pending {s s' : State} {occasion : Occasion} {new : List Milestone}
    (course : Course host s s' ended occasion new) (going : ended = false)
    (pending : s.pendingLaunch ≠ none → s.phase = .idle)
    (unheard : s.phase = .idle → ∀ item, occasion = .item item → item.isOfEngine ≠ true) :
    s'.pendingLaunch ≠ none → s'.phase = .idle := by
  intro waiting
  cases course with
  | kept _ phase _ free =>
    rw [phase]
    exact free.elim (fun same => pending (same ▸ waiting)) id
  | moved _ reason _ _ same =>
    have idle := pending (same ▸ waiting)
    rcases reason with ⟨-, stopped⟩ | ⟨item, occasion, report⟩
    · cases idle.symm.trans stopped
    · exact absurd (Item.ofEngine_report report) (unheard idle item occasion)
  | connected _ _ _ _ taken | failed _ _ _ _ taken => exact absurd taken waiting
  | parted _ farewell _ _ same =>
    exact absurd (Item.ofEngine_farewell farewell) (unheard (pending (same ▸ waiting)) _ rfl)
  | disconnected ending | left ending =>
    rw [ending] at going
    cases going

end

/-- Before it has an engine a session hears nothing of one, and only then a launch waits. -/
structure Unheard (m : Machine ω) : Prop where
  pending : m.ended = false → m.state.pendingLaunch ≠ none → m.state.phase = .idle
  unread : m.state.phase = .idle → Unread m

structure Sound (m : Machine ω) : Prop extends Unheard m where
  life : Life m.state.phase m.state.connected m.ended (milestones m.emitted)
  linked : m.ended = false → Linked m

section

variable {host : Host ω} {world : ω} {m m' : Machine ω} {turn : Turn ω}

theorem Unheard.quietly {may : Engine.Command → Prop} (unheard : Unheard m) (background : Background may m m') :
    Unheard m' where
  pending := by
    rw [background.phase, background.pendingLaunch, background.ended]
    exact unheard.pending
  unread := by
    rw [background.phase]
    exact fun idle => background.unread (unheard.unread idle)

theorem Unheard.posted {item : Item} (unheard : Unheard m) (other : item.isOfEngine = false) :
    Unheard (m.post item) where
  pending := unheard.pending
  unread idle := ⟨(unheard.unread idle).reader, (fromEngine_post_other m other).trans (unheard.unread idle).fromEngine⟩

theorem Took.unread (took : Took host m turn) (unread : Unread m) :
    Unread turn.before ∧ ∀ item, turn.occasion = .item item → item.isOfEngine ≠ true := by
  obtain ⟨first, rest, inbox, occasion, before⟩ | ⟨waited, -, occasion, before⟩ := took.first
  · have items := unread.fromEngine
    rw [fromEngine, inbox] at items
    obtain ⟨other, others⟩ := List.forall_mem_cons.mp (List.filter_eq_nil_iff.mp items)
    refine ⟨before ▸ ⟨unread.reader, List.filter_eq_nil_iff.mpr others⟩, ?_⟩
    rintro item same
    cases occasion.symm.trans same
    exact other
  · refine ⟨before ▸ unread, ?_⟩
    rintro item same
    cases occasion.symm.trans same

theorem Took.course (took : Took host m turn)
    (launches : ∀ request, m.pendingRequest = some request → verb? request = some .launch) :
    Course host m.state turn.after.state turn.after.ended turn.occasion (milestones turn.messages) := by
  obtain ⟨messages, told, course⟩ := took.handled.course took.ended (took.pendingRequest ▸ launches)
  rw [Turn.messages, told.emitted, List.drop_left, ← took.state]
  exact course

theorem Unheard.next (unheard : Unheard m) (took : Took host m turn)
    (launches : ∀ request, m.pendingRequest = some request → verb? request = some .launch) : Unheard turn.after where
  pending going := (took.course launches).pending going (unheard.pending took.going) fun idle =>
    (took.unread (unheard.unread idle)).2
  unread idle := by
    have earlier := (took.course launches).idle (unheard.pending took.going) idle
    exact took.handled.unread idle (took.unread (unheard.unread earlier)).1

theorem History.unheard {received : List Request} {turns : List (Turn ω)}
    (history : History host world received turns m) : Unheard m := by
  induction history with
  | start => exact ⟨fun _ waiting => absurd rfl waiting, fun _ => ⟨rfl, rfl⟩⟩
  | step history step ih =>
    cases step with
    | took took => exact ih.next took history.ledger.verb
    | asked _ => exact ih.posted rfl
    | closed quiet => exact (ih.quietly quiet).posted rfl
    | listened quiet => exact ih.quietly quiet

theorem Sound.quietly {may : Engine.Command → Prop} (sound : Sound m) (background : Background may m m') :
    Sound m' where
  toUnheard := sound.toUnheard.quietly background
  life := by
    rw [background.phase, background.connected, background.ended, background.emitted]
    exact sound.life
  linked := by
    rw [background.ended]
    exact fun going => background.linked (sound.linked going)

theorem Sound.posted {item : Item} (sound : Sound m) (other : item.isOfEngine = false) : Sound (m.post item) where
  toUnheard := sound.toUnheard.posted other
  life := sound.life
  linked going := (sound.linked going).same rfl rfl (fromEngine_post_other m other)

/-- Only a connected engine is heard. -/
theorem Took.heard (took : Took host m turn) (sound : Sound m) (item : Item) (occasion : turn.occasion = .item item)
    (ofEngine : item.isOfEngine = true) : turn.before.state.connected = true := by
  rw [took.state]
  obtain ⟨first, rest, inbox, same, -⟩ | ⟨waited, -, other, -⟩ := took.first
  · cases same.symm.trans occasion
    have taken := (sound.linked took.going).taken inbox
    split at taken
    · exact taken.1
    · next lasting =>
      rw [Item.isOfEngine, Bool.or_eq_true] at ofEngine
      exact taken.2 (ofEngine.resolve_right lasting)
  · cases other.symm.trans occasion

theorem Sound.unconnected (sound : Sound m) (idle : m.state.phase = .idle) : m.state.connected = false := by
  have life := sound.life
  rw [idle] at life
  exact life.of_idle.1

theorem Took.linked (took : Took host m turn) (starts : host.StartsReaders) (sound : Sound m)
    (going : turn.after.ended = false) : Linked turn.after := by
  have unlaunched : turn.before.state.pendingLaunch ≠ none ∨ turn.before.state.phase = .idle →
      turn.before.state.connected = false := by
    rw [took.state]
    exact fun free => sound.unconnected (free.elim (sound.pending took.going) id)
  have handled := took.handled
  obtain ⟨item, rest, inbox, occasion, before⟩ | ⟨waited, inbox, occasion, before⟩ := took.first
  · have taken := (sound.linked took.going).taken inbox
    rw [← before] at taken
    rw [occasion] at handled
    split at taken
    · next farewell => exact handled.parted_linked farewell taken.2
    · next lasting =>
      refine handled.linked starts taken.1 ?_ going unlaunched
      rintro other ⟨⟩
      exact Bool.not_eq_true _ ▸ lasting
  · refine handled.linked starts (before ▸ sound.linked took.going) ?_ going unlaunched
    rintro item same
    cases occasion.symm.trans same

theorem Sound.next (sound : Sound m) (starts : host.StartsReaders) (took : Took host m turn)
    (launches : ∀ request, m.pendingRequest = some request → verb? request = some .launch) : Sound turn.after := by
  have course := took.course launches
  have heard := took.state ▸ took.heard sound
  have life := sound.life
  rw [took.going] at life
  refine ⟨sound.toUnheard.next took launches, ?_, took.linked starts sound⟩
  rw [took.told.1.emitted, took.emitted, milestones, List.filterMap_append]
  exact course.life starts life (sound.pending took.going) heard

theorem History.sound {received : List Request} {turns : List (Turn ω)}
    (history : History host world received turns m) (starts : host.StartsReaders) : Sound m := by
  induction history with
  | start => exact ⟨History.unheard .start, .idle 0, fun _ => .unconnected rfl rfl rfl⟩
  | step history step ih =>
    cases step with
    | took took => exact ih.next starts took history.ledger.verb
    | asked _ => exact ih.posted rfl
    | closed quiet => exact (ih.quietly quiet).posted rfl
    | listened quiet => exact ih.quietly quiet

/-! ## What is gone stays gone -/

theorem Course.gone {s s' : State} {ended : Bool} {occasion : Occasion} {new : List Milestone}
    (course : Course host s s' ended occasion new) (gone : s.phase = .disconnected) (closed : s.connected = false)
    (pending : s.pendingLaunch ≠ none → s.phase = .idle)
    (linked : ∀ item, occasion = .item item → item.isOfEngine = true → s.connected = true) :
    s'.phase = .disconnected := by
  cases course with
  | kept _ phase | left _ phase => exact phase.trans gone
  | moved _ reason =>
    rw [opened_of_reason reason linked] at closed
    cases closed
  | connected _ free | failed _ free =>
    have idle := free.elim pending id
    rw [gone] at idle
    cases idle
  | parted _ _ phase | disconnected _ phase => exact phase

theorem Sound.closed (sound : Sound m) (gone : m.state.phase = .disconnected) : m.state.connected = false := by
  have going := sound.life.connected_iff
  rw [gone] at going
  exact Bool.eq_false_iff.mpr fun opened => by rcases going.mp opened with going | going <;> cases going

theorem Step.gone {more : List Request} {new : List (Turn ω)} (step : Step host m more new m') (sound : Sound m)
    (launches : ∀ request, m.pendingRequest = some request → verb? request = some .launch)
    (gone : m.state.phase = .disconnected) : m'.state.phase = .disconnected := by
  cases step with
  | took took =>
    exact (took.course launches).gone gone (sound.closed gone) (sound.pending took.going)
      (took.state ▸ took.heard sound)
  | asked _ => exact gone
  | closed quiet | listened quiet => exact quiet.phase.trans gone

theorem History.gone {received : List Request} {turns : List (Turn ω)}
    (history : History host world received turns m) (starts : host.StartsReaders)
    (gone : m.state.phase = .disconnected) (more : List Action) :
    (m.run host more).state.phase = .disconnected := by
  induction more generalizing received turns m with
  | nil => exact gone
  | cons action rest ih =>
    have step := act_step host m action
    exact ih (.step history step) (step.gone (history.sound starts) history.ledger.verb gone)

/-! ## Milestones in their order -/

section

variable {phase : Phase} {connected ended : Bool} {passed : List Milestone}

theorem Life.once (life : Life phase connected ended passed) :
    passed.count .connected ≤ 1 ∧ passed.count .terminated ≤ 1 := by
  induction life with
  | idle n | connected n | terminated n => simp [failures, List.count_replicate]
  | disconnected _ ih => simpa using ih

theorem mem_failures {n : Nat} {milestone : Milestone} (member : milestone ∈ failures n) : milestone = .failed :=
  List.eq_of_mem_replicate member

theorem unterminated {n : Nat} {before after : List Milestone}
    (split : failures n ++ [.connected] = before ++ .terminated :: after) : False := by
  have member : Milestone.terminated ∈ failures n ++ [.connected] := by
    rw [split]
    exact List.mem_append_right _ List.mem_cons_self
  rcases List.mem_append.mp member with member | member
  · cases mem_failures member
  · cases List.mem_singleton.mp member

/-- The engine's end comes after a launch and before a disconnect. -/
theorem Life.ordered (life : Life phase connected ended passed) {before after : List Milestone}
    (split : passed = before ++ .terminated :: after) : .connected ∈ before ∧ .disconnected ∉ before := by
  induction life generalizing after with
  | idle n =>
    have member : Milestone.terminated ∈ failures n := by
      rw [split]
      exact List.mem_append_right _ List.mem_cons_self
    cases mem_failures member
  | connected n => exact (unterminated split).elim
  | terminated n =>
    rw [List.append_cons] at split
    rcases List.eq_nil_or_concat after with rfl | ⟨between, last, rfl⟩
    · obtain ⟨rfl, -⟩ := List.append_inj' split rfl
      refine ⟨List.mem_append_right _ List.mem_cons_self, ?_⟩
      intro member
      rcases List.mem_append.mp member with member | member
      · cases mem_failures member
      · cases List.mem_singleton.mp member
    · rw [List.concat_eq_append, ← List.cons_append, ← List.append_assoc] at split
      exact (unterminated (List.append_inj' split rfl).1).elim
  | disconnected _ ih =>
    rcases List.eq_nil_or_concat after with rfl | ⟨between, last, rfl⟩
    · obtain ⟨-, same⟩ := List.append_inj' split rfl
      cases same
    · rw [List.concat_eq_append, ← List.cons_append, ← List.append_assoc] at split
      exact ih (List.append_inj' split rfl).1

/-- Until it is over, a session is idle as long as no launch has succeeded. -/
theorem Life.idle_iff (life : Life phase connected false passed) : phase = .idle ↔ .connected ∉ passed := by
  cases life with
  | idle n => exact iff_of_true rfl fun member => nomatch mem_failures member
  | connected n going =>
    refine iff_of_false ?_ fun absent => absent (List.mem_append_right _ List.mem_cons_self)
    rintro rfl
    rcases going with going | going <;> cases going
  | terminated n => exact iff_of_false nofun fun absent => absent (List.mem_append_right _ List.mem_cons_self)

end

/-! ## Launches -/

theorem Told.messages {messages : List Message} (told : Told turn.before turn.after messages) :
    turn.messages = messages := by
  rw [Turn.messages, told.emitted, List.drop_left]

structure TurnedDown (turn : Turn ω) (request : Request) : Prop where
  transcript : turn.after.transcript = turn.before.transcript ++
    [.emitted (.response turn.before.nextSeq request (.failure (.alreadyStarted request.command)))]
  state : turn.after.state = turn.before.state
  reader : turn.after.reader = turn.before.reader
  world : turn.after.world = turn.before.world
  ended : turn.after.ended = turn.before.ended
  inbox : ∃ records : List String, turn.after.inbox = turn.before.inbox ++ records.map .logLine

theorem Took.turnedDown {request : Request} (took : Took host m turn) (asked : turn.request? = some request)
    (verb : verb? request = some .launch)
    (started : turn.before.state.phase ≠ .idle ∨ turn.before.state.pendingLaunch.isSome = true) :
    TurnedDown turn request := by
  have after : turn.after = (turn.before.log .debug "dap" ("request #" ++ Text.Decimal.showInt64 request.seq ++
      " " ++ request.command)).refuse request (.alreadyStarted request.command) := by
    rw [took.met, occasion_of_request asked]
    simp only [meet, handleItem, handleRequest, show Verb.ofCommand? request.command = _ from verb, launch]
    exact if_pos started
  constructor <;> rw [after]
  · rfl
  · rfl
  · rfl
  · rfl
  · rfl
  · exact ⟨_, rfl⟩

/-- A launch was taken on: it waits for the end of the configuration, or it has been tried. -/
def TakenOn (turn : Turn ω) (request : Request) (arguments : LaunchArguments) : Prop :=
  (turn.messages = [] ∧ turn.before.state.configured = false ∧
    turn.after.state.pendingLaunch = some ⟨request, arguments⟩) ∨
  turn.before.state.configured = true ∧ ∃ seq,
    (turn.messages = [.response seq request (.success .nothing)] ∧ turn.after.state.connected = true) ∨
    ∃ fault, turn.messages = [.response seq request (.failure (.notConnected fault))]

theorem Took.takenOn {request : Request} {arguments : LaunchArguments} (took : Took host m turn)
    (asked : turn.request? = some request) (verb : verb? request = some .launch)
    (readable : request.argumentsAs LaunchArguments.schema LaunchArguments.ofConformed = .ok arguments)
    {folder : String} (found : turn.before.workspace host arguments = .ok folder)
    (idle : turn.before.state.phase = .idle) (free : turn.before.state.pendingLaunch = none) :
    TakenOn turn request arguments := by
  have handled := took.handled
  rw [occasion_of_request asked] at handled
  generalize after : turn.after = m' at handled
  cases handled with
  -- of all that can come of a launch request, an idle session without a pending launch leaves two: it waits, or
  -- it is tried
  | replied start plain => exact absurd verb (plain_other plain rfl)
  | introduced other | breakpointsSet _ _ other | configured other | disconnected other =>
    rw [verb] at other
    cases other
  | resumed _ _ named resumption | notResumed named resumption | notWritten _ named resumption =>
    exact absurd verb (resumption_other named resumption rfl)
  | repeated _ started =>
    rw [free] at started
    exact absurd started (by simp [idle])
  | unreadable _ _ _ _ unreadable =>
    rw [readable] at unreadable
    cases unreadable
  | homeless read _ _ _ _ readable' homeless =>
    cases readable.symm.trans readable'
    rw [found] at homeless
    cases homeless
  | putOff read _ _ _ _ _ unconfigured readable' quiet ready =>
    cases readable.symm.trans readable'
    have told : Told turn.before turn.after [] := after ▸ quiet.told.silently ready rfl rfl
    exact .inl ⟨told.messages, unconfigured, after ▸ ready.pendingLaunch⟩
  | started read _ _ _ _ _ configured readable' quiet ready launched =>
    cases readable.symm.trans readable'
    obtain ⟨messages, told, attempted⟩ := launched.attempted
    have told : Told turn.before turn.after messages := after ▸ (quiet.told.silently ready rfl rfl).trans told
    rw [TakenOn, told.messages, after]
    refine .inr ⟨configured, ?_⟩
    cases attempted with
    | nothing none =>
      rw [ready.pendingLaunch] at none
      cases none
    | succeeded seq pending _ _ _ _ connected =>
      cases ready.pendingLaunch.symm.trans pending
      exact ⟨seq, .inl ⟨rfl, connected⟩⟩
    | failed seq fault pending =>
      cases ready.pendingLaunch.symm.trans pending
      exact ⟨seq, .inr ⟨fault, rfl⟩⟩
  | announced _ _ _ _ _ unasked => exact absurd rfl (unasked request)
  | parted farewell => cases farewell

theorem Took.failed {message : Message} (took : Took host m turn)
    (launches : ∀ request, m.pendingRequest = some request → verb? request = some .launch)
    (told : message ∈ turn.messages) (failed : message.milestone? = some .failed) :
    turn.after.state.phase = .idle ∧ turn.after.state.pendingLaunch = none := by
  have course := took.course launches
  have member : Milestone.failed ∈ milestones turn.messages := List.mem_filterMap.mpr ⟨message, told, failed⟩
  generalize milestones turn.messages = passed, turn.occasion = occasion at course member
  cases course with
  | failed _ _ idle _ taken => exact ⟨idle, taken⟩
  | parted =>
    split at member
    · cases member
    · cases List.mem_singleton.mp member
  | connected | disconnected => cases List.mem_singleton.mp member
  | _ => cases member

/-! ## Letting the engine go on -/

theorem resumption_unplain {verb : Verb} {command : Engine.Command} (resumption : verb.resumption? = some command) :
    verb.isPlain = false := by
  cases verb <;> first | rfl | cases resumption

/-- With a connection one command is handed over, and the request succeeds if it could be written. Without, it is
refused. -/
def GoesOn (turn : Turn ω) (request : Request) (command : Engine.Command) : Prop :=
  if turn.before.state.connected then
    turn.commands = [command] ∧
      ((∃ answer, turn.messages = [.response turn.before.nextSeq request (.success answer)]) ∧ turn.unwritten = [] ∨
        (∃ reason, turn.messages =
          [.response turn.before.nextSeq request (.failure (.notResumed command (.notWritten reason)))]) ∧
            turn.unwritten = [command])
  else
    turn.messages = [.response turn.before.nextSeq request (.failure (.notResumed command .notConnected))] ∧
      turn.commands = []

theorem goesOn_handOver {request : Request} {outcome : Outcome} {command : Engine.Command} {written : Bool}
    {before sent answering : Machine ω} (quiet : Quiet turn.before before)
    (sending : Quiet (before.handOver command written) sent) (after : turn.after = answering.respond request outcome)
    (told : Told sent answering []) (same : answering.transcript = sent.transcript) :
    turn.messages = [.response turn.before.nextSeq request outcome] ∧ turn.commands = [command] ∧
      turn.unwritten = if written then [] else [command] := by
  have all : Told turn.before turn.after ([] ++ [] ++ [.response answering.nextSeq request outcome]) := by
    rw [after]
    exact ((quiet.told.silently sending (emitted_handOver _ _ _) rfl).trans told).respond request outcome
  have line : turn.after.sent = turn.before.sent ++ [command] := by
    have still : answering.sent = sent.sent := congrArg (List.filterMap Happening.sent?) same
    rw [after, sent_respond, still, sending.sent, sent_handOver, quiet.sent]
  have unwritten : turn.after.unwritten = turn.before.unwritten ++ if written then [] else [command] := by
    have still : answering.unwritten = sent.unwritten := congrArg (List.filterMap Happening.unwritten?) same
    rw [after, unwritten_respond, still, sending.unwritten, unwritten_handOver, quiet.unwritten]
  have seq : answering.nextSeq = turn.before.nextSeq := told.nextSeq.trans (sending.nextSeq.trans quiet.nextSeq)
  rw [all.messages, commands_of line, Turn.unwritten, unwritten, List.drop_left, ← seq]
  exact ⟨rfl, rfl, rfl⟩

theorem Took.goesOn {request : Request} {verb : Verb} {command : Engine.Command} (took : Took host m turn)
    (asked : turn.request? = some request) (named : verb? request = some verb)
    (resumption : verb.resumption? = some command) : GoesOn turn request command := by
  have handled := took.handled
  rw [occasion_of_request asked] at handled
  unfold GoesOn
  generalize after : turn.after = m' at handled
  cases handled with
  | @resumed _ other command' before sent answer pausing named' resumption' connected quiet sending =>
    cases named.symm.trans named'
    cases resumption.symm.trans resumption'
    obtain ⟨messages, commands, unwritten⟩ := goesOn_handOver quiet sending after ((told_nothing sent).kept rfl rfl) rfl
    rw [if_pos connected]
    exact ⟨commands, .inl ⟨⟨answer, messages⟩, unwritten⟩⟩
  | @notWritten _ other command' before sent reason named' resumption' connected quiet sending =>
    cases named.symm.trans named'
    cases resumption.symm.trans resumption'
    obtain ⟨messages, commands, unwritten⟩ := goesOn_handOver quiet sending after (told_nothing sent) rfl
    rw [if_pos connected]
    exact ⟨commands, .inr ⟨⟨reason, messages⟩, unwritten⟩⟩
  | @notResumed _ _ _ before named' resumption' unconnected quiet =>
    cases named.symm.trans named'
    cases resumption.symm.trans resumption'
    have told : Told turn.before turn.after _ :=
      after ▸ quiet.told.respond request (.failure (.notResumed command .notConnected))
    have line : turn.after.sent = turn.before.sent ++ [] := by rw [after, sent_respond, quiet.sent, List.append_nil]
    rw [if_neg (by simp [unconnected]), told.messages, commands_of line, quiet.nextSeq]
    exact ⟨rfl, rfl⟩
  | replied start plain => exact absurd named (plain_other plain (resumption_unplain resumption))
  | introduced other | breakpointsSet _ _ other | configured other | disconnected other | repeated other
  | unreadable _ other | homeless _ _ other | putOff _ _ _ other | started _ _ _ other =>
    exact absurd other (resumption_other named resumption rfl)
  | announced _ _ _ _ _ unasked => exact absurd rfl (unasked request)
  | parted farewell => cases farewell

/-! ## The life of a run -/

/-- The life of a run. Of its launches one at most succeeds; after that every other is turned down, and before
that a failure leaves room for the next. What lets the engine go on succeeds with a connection only. -/
structure Lifecycle (host : Host ω) (turns : List (Turn ω)) (m : Machine ω) : Prop where
  connected : m.state.connected = true ↔ m.state.phase = .running ∨ m.state.phase = .stopped
  gone : m.state.phase = .disconnected → ∀ more : List Action, (m.run host more).state.phase = .disconnected
  once : (milestones m.emitted).count .connected ≤ 1
  idle : m.ended = false → (m.state.phase = .idle ↔ .connected ∉ milestones m.emitted)
  turnedDown {past later : List (Turn ω)} {turn : Turn ω} {request : Request} : turns = past ++ turn :: later →
    turn.request? = some request → verb? request = some .launch →
    .connected ∈ milestones (past.flatMap Turn.messages) → TurnedDown turn request
  failed {past later : List (Turn ω)} {turn : Turn ω} {message : Message} : turns = past ++ turn :: later →
    message ∈ turn.messages → message.milestone? = some .failed →
    turn.after.state.phase = .idle ∧ turn.after.state.pendingLaunch = none
  takenOn {past later : List (Turn ω)} {turn : Turn ω} {request : Request} {arguments : LaunchArguments}
    {folder : String} : turns = past ++ turn :: later → turn.request? = some request →
    verb? request = some .launch →
    request.argumentsAs LaunchArguments.schema LaunchArguments.ofConformed = .ok arguments →
    turn.before.workspace host arguments = .ok folder → turn.before.state.phase = .idle →
    turn.before.state.pendingLaunch = none → TakenOn turn request arguments
  terminatedOnce : (milestones m.emitted).count .terminated ≤ 1
  terminated {before after : List Message} {message : Message} : m.emitted = before ++ message :: after →
    message.milestone? = some .terminated → .connected ∈ milestones before ∧ .disconnected ∉ milestones before
  goesOn {past later : List (Turn ω)} {turn : Turn ω} {request : Request} {verb : Verb} {command : Engine.Command} :
    turns = past ++ turn :: later → turn.request? = some request → verb? request = some verb →
    verb.resumption? = some command → GoesOn turn request command

end

theorem lifecycle_run {host : Host ω} (starts : host.StartsReaders) (world : ω) (actions : List Action) :
    Lifecycle host ((initial host world).turns host actions) ((initial host world).run host actions) := by
  have history := run_history host world actions
  generalize (initial host world).turns host actions = turns, (initial host world).run host actions = m at history ⊢
  have sound := history.sound starts
  constructor
  case connected => exact sound.life.connected_iff
  case gone => exact history.gone starts
  case once => exact sound.life.once.1
  case idle =>
    intro going
    have life := sound.life
    rw [going] at life
    exact life.idle_iff
  case turnedDown =>
    intro past later turn request all asked verb launched
    obtain ⟨earlier, before, history, took⟩ := (all ▸ history).split
    apply took.turnedDown asked verb
    apply Or.inl
    intro idle
    -- before the turn the session was idle only if no launch had succeeded
    have life := (history.sound starts).life
    rw [took.going, history.told.emitted] at life
    exact life.idle_iff.mp (took.state ▸ idle) launched
  case failed =>
    intro past later turn message all told failed
    obtain ⟨earlier, before, history, took⟩ := (all ▸ history).split
    exact took.failed history.ledger.verb told failed
  case takenOn =>
    intro past later turn request arguments folder all asked verb readable found idle free
    obtain ⟨earlier, before, history, took⟩ := (all ▸ history).split
    exact took.takenOn asked verb readable found idle free
  case terminatedOnce => exact sound.life.once.2
  case terminated =>
    intro before after message all terminated
    have split : milestones m.emitted = milestones before ++ .terminated :: milestones after := by
      rw [all, milestones, List.filterMap_append, List.filterMap_cons_some terminated]
      rfl
    exact sound.life.ordered split
  case goesOn =>
    intro past later turn request verb command all asked named resumption
    obtain ⟨earlier, before, history, took⟩ := (all ▸ history).split
    exact took.goesOn asked named resumption

/-- Nobody listens where the first launch goes. The second one succeeds, and then the engine hangs up. -/
theorem lifecycle_run_through :
    let host := Surroundings.host "/" 1000
    let m := initial host openWorld
    let actions := askAll [requestFor "configurationDone" .null,
      requestFor "launch" (.object [("port", .integer 2001)]), launchIn "/ws" ""] ++
      [.engine ⟨[], .closed⟩, .handle] ++ askAll [requestFor "disconnect" .null]
    host.StartsReaders ∧ Lifecycle host (m.turns host actions) (m.run host actions) ∧
      milestones (m.run host actions).emitted = [.failed, .connected, .terminated, .disconnected] := by
  intro host m actions
  have starts : host.StartsReaders := fun _ => rfl
  exact ⟨starts, lifecycle_run starts openWorld actions, by decide +kernel⟩

end Machine

end DebugBridge.Session
