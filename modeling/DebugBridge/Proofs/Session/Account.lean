import DebugBridge.Proofs.Session.Conversation

/-! What a turn says of stops and of breakpoints, and what becomes of the state that this comes from. -/

set_option autoImplicit false

namespace DebugBridge.Session

open Protocol

variable {ω : Type}

def Notice.bears : Notice → Bool
  | .stopped _ | .breakpoint _ _ _ => true
  | _ => false

def Message.bears : Message → Bool
  | .response _ _ outcome => !outcome.installed.isEmpty
  | .event _ notice => notice.bears

/-- What stops and breakpoints are told from. -/
structure Outlook where
  breakpoints : Breakpoint.Table
  stack : List Engine.Frame
  pausePending : Bool

def State.outlook (s : State) : Outlook := ⟨s.breakpoints, s.stack, s.pausePending⟩

namespace Machine

/-- What is told in one go of stops and breakpoints, and what they are told from afterwards. -/
inductive Account (s s' : State) : Occasion → List Message → Prop where
  | reported {item : Item} (seq : Nat) : item.isReport = true →
      s'.outlook = ⟨item.follow s.breakpoints, item.frames?.getD s.stack, false⟩ → s'.phase = item.phaseAfter s →
      Account s s' (.item item) (events seq (item.notices s))
  | breakpointsSet {request : Request} {path : String} {wanted : List Breakpoint.Wanted} (seq : Nat) :
      verb? request = some .setBreakpoints → wanted? request = some (path, wanted) →
      s'.outlook = { s.outlook with
        breakpoints := (s.breakpoints.replace (s.resolver.toEngine path) wanted).2 } →
      Account s s' (.item (.request request)) [.response seq request
        (.success (.breakpoints (s.breakpoints.replace (s.resolver.toEngine path) wanted).1.installed))]
  | paused {request : Request} (seq : Nat) (answer : Answer) : verb? request = some .pause →
      (Outcome.success answer).installed = [] → s'.outlook = { s.outlook with pausePending := true } →
      Account s s' (.item (.request request)) [.response seq request (.success answer)]
  | other {occasion : Occasion} {messages : List Message} :
      (∀ item, occasion = .item item → item.isReport = false) →
      (∀ request, occasion = .item (.request request) → verb? request = some .setBreakpoints →
        wanted? request = none) →
      (∀ message ∈ messages, message.bears = false) → s'.outlook = s.outlook → Account s s' occasion messages

section

variable {host : Host ω} {m m' n : Machine ω}

theorem Background.outlook {may : Engine.Command → Prop} (background : Background may m m') :
    m'.state.outlook = m.state.outlook := by
  rw [background.state]
  rfl

theorem Launched.account (launched : Launched host m m') :
    m'.state.outlook = m.state.outlook ∧
      ∃ messages, Told m m' messages ∧ ∀ message ∈ messages, message.bears = false := by
  obtain ⟨messages, told, attempted⟩ := launched.attempted
  constructor
  · cases launched with
    | nothing => rfl
    | connected _ _ _ quiet informed _ last => exact last.outlook.trans (informed.outlook.trans quiet.outlook)
    | failed _ _ _ _ quiet => exact quiet.outlook
  · refine ⟨messages, told, fun message member => ?_⟩
    cases attempted with
    | nothing => cases member
    | succeeded | failed => cases List.mem_singleton.mp member; rfl

theorem Account.plain {s s' : State} {request : Request} {messages : List Message}
    (unset : verb? request = some .setBreakpoints → wanted? request = none)
    (unbearing : ∀ message ∈ messages, message.bears = false) (still : s'.outlook = s.outlook) :
    Account s s' (.item (.request request)) messages := by
  refine .other ?_ ?_ unbearing still
  · rintro _ ⟨⟩
    rfl
  · rintro _ ⟨⟩
    exact unset

theorem respond_account (request : Request) (outcome : Outcome)
    (unset : verb? request = some .setBreakpoints → wanted? request = none) (told : Told m n [])
    (still : n.state.outlook = m.state.outlook) (uninstalled : outcome.installed = []) :
    ∃ messages, Told m (n.respond request outcome) messages ∧
      Account m.state (n.respond request outcome).state (.item (.request request)) messages := by
  refine ⟨_, told.respond request outcome, .plain unset ?_ still⟩
  intro message member
  cases List.mem_singleton.mp member
  rw [Message.bears, uninstalled]
  rfl

theorem unset_of_verb {request : Request} {verb : Verb} (named : verb? request = some verb)
    (other : verb ≠ .setBreakpoints) : verb? request = some .setBreakpoints → wanted? request = none :=
  fun set => absurd (Option.some.inj (named.symm.trans set)) other

theorem logLine_of_unreported {item : Item} (unasked : ∀ request, item ≠ .request request)
    (going : item ≠ .clientClosed) (farewell : item.isFarewell = false) (report : item.isReport = false) :
    ∃ text, item = .logLine text := by
  cases item with
  | request request => exact absurd rfl (unasked request)
  | clientClosed => exact absurd rfl going
  | engineEvent | lineConsumed => cases report
  | engineClosed | engineFailed => cases farewell
  | logLine text => exact ⟨text, rfl⟩

theorem Handled.account {occasion : Occasion} (handled : Handled host m occasion m') :
    ∃ messages, Told m m' messages ∧ Account m.state m'.state occasion messages := by
  cases handled with
  | replied start plain quiet asked uninstalled unset =>
    exact respond_account _ _ unset (quiet.told.silently asked rfl rfl) (asked.outlook.trans quiet.outlook) uninstalled
  | @introduced request before verb quiet =>
    have first := quiet.told.respond request (.success .capabilities)
    refine ⟨_, first.trans (told_announce _ .initialized),
      .plain (unset_of_verb verb Verb.noConfusion) ?_ quiet.outlook⟩
    intro message member
    rcases List.mem_cons.mp member with rfl | member
    · rfl
    · cases List.mem_singleton.mp member
      rfl
  | breakpointsSet file wanted verb quiet informed _ asked =>
    obtain ⟨path, asked, rfl⟩ := asked
    refine ⟨_, (quiet.told.silently informed rfl rfl).respond _ _, .breakpointsSet _ verb asked ?_⟩
    rw [← quiet.outlook]
    exact informed.outlook
  | @resumed request verb command before after answer pausing named resumption _ quiet sent paused uninstalled =>
    have told : Told m { after with state := { after.state with
        phase := if m.state.phase = Phase.stopped then .running else m.state.phase
        pausePending := pausing } } [] := (quiet.told.silently sent (emitted_handOver _ _ _) rfl).kept rfl rfl
    have outlook : after.state.outlook = m.state.outlook := sent.outlook.trans quiet.outlook
    have paused : ({ after.state with pausePending := pausing } : State).outlook =
        { m.state.outlook with pausePending := verb = .pause || m.state.pausePending } := by
      rw [← outlook, ← paused]
      rfl
    -- the answer to a pause is told of pauses; any other verb leaves the wish for one as it was
    by_cases pause : verb = .pause
    · subst pause
      exact ⟨_, told.respond request _, .paused _ answer named uninstalled paused⟩
    · rw [decide_eq_false pause, Bool.false_or] at paused
      refine respond_account _ _ (unset_of_verb named ?_) told paused uninstalled
      rintro rfl
      cases resumption
  | notResumed named resumption _ quiet =>
    refine respond_account _ _ (unset_of_verb named ?_) quiet.told quiet.outlook rfl
    rintro rfl
    cases resumption
  | notWritten _ named resumption _ quiet failed =>
    refine respond_account _ _ (unset_of_verb named ?_) (quiet.told.silently failed (emitted_handOver _ _ _) rfl)
      (failed.outlook.trans quiet.outlook) rfl
    rintro rfl
    cases resumption
  | repeated verb _ quiet | unreadable _ verb _ _ _ quiet | homeless _ _ verb _ _ _ _ quiet =>
    exact respond_account _ _ (unset_of_verb verb Verb.noConfusion) quiet.told quiet.outlook rfl
  | putOff _ _ _ verb _ _ _ _ quiet ready =>
    exact ⟨_, quiet.told.silently ready rfl rfl,
      .plain (unset_of_verb verb Verb.noConfusion) nofun (ready.outlook.trans quiet.outlook)⟩
  | started _ _ _ verb _ _ _ _ quiet ready launched =>
    obtain ⟨still, messages, told, unbearing⟩ := launched.account
    exact ⟨_, (quiet.told.silently ready rfl rfl).trans told,
      .plain (unset_of_verb verb Verb.noConfusion) unbearing (still.trans (ready.outlook.trans quiet.outlook))⟩
  | @configured request before _ verb quiet launched =>
    obtain ⟨still, messages, told, unbearing⟩ := launched.account
    have first : Told m { before with state := { before.state with configured := true } } [] :=
      quiet.told.kept rfl rfl
    refine ⟨_, (first.respond request (.success .nothing)).trans told,
      .plain (unset_of_verb verb Verb.noConfusion) ?_ (still.trans quiet.outlook)⟩
    intro message member
    rcases List.mem_cons.mp member with rfl | member
    · rfl
    · exact unbearing message member
  | @disconnected request before verb quiet =>
    have first : Told m { before with
        state := { before.state with phase := .disconnected, connected := false }, reader := none } [] :=
      quiet.told.kept rfl rfl
    obtain ⟨messages, told, account⟩ := respond_account request (.success .nothing)
      (unset_of_verb verb Verb.noConfusion) first quiet.outlook rfl
    exact ⟨messages, told.kept rfl rfl, account⟩
  | left quiet =>
    refine ⟨_, quiet.told.kept rfl rfl, .other ?_ nofun nofun quiet.outlook⟩
    rintro _ ⟨⟩
    rfl
  | @announced item before stack phase pausing notices unasked going farewell quiet _ _ sameStack samePhase samePause
      sameNotices =>
    have told : Told m { before with state := { before.state with
        stack := stack, phase := phase, pausePending := pausing
        breakpoints := item.follow m.state.breakpoints } } [] := quiet.told.kept rfl rfl
    refine ⟨_, told.trans (told_announceAll _ notices), ?_⟩
    rw [state_announceAll]
    subst sameStack samePhase samePause sameNotices
    -- of all that is announced only a log line comes from elsewhere than the engine
    cases report : item.isReport with
    | true =>
      refine .reported _ report ?_ rfl
      rw [Bool.not_true, Bool.and_false]
      rfl
    | false =>
      obtain ⟨text, rfl⟩ := logLine_of_unreported unasked going farewell report
      rw [Bool.not_false, Bool.and_true]
      refine .other ?_ nofun ?_ rfl
      · rintro _ ⟨⟩
        rfl
      · intro message member
        cases List.mem_singleton.mp member
        rfl
  | @parted item before farewell quiet =>
    have told : Told m { before with state := { before.state with
        connected := false, phase := .disconnected } } [] := quiet.told.kept rfl rfl
    -- a farewell is no report and no stop, and all that can be told of it is that the session is over
    refine ⟨_, told.trans (told_announceAll _ _), .other ?_ ?_ ?_ ?_⟩
    · rintro _ ⟨⟩
      cases item <;> first | rfl | cases farewell
    · rintro _ ⟨⟩
      cases farewell
    · intro message member
      obtain ⟨seq, notice, among, rfl⟩ := mem_events member
      split at among
      · cases among
      · cases List.mem_singleton.mp among
        rfl
    · rw [state_announceAll]
      exact quiet.outlook
  | @overdue waited before after quiet launched =>
    obtain ⟨still, messages, told, unbearing⟩ := launched.account
    exact ⟨_, quiet.told.trans told, .other nofun nofun unbearing (still.trans quiet.outlook)⟩

end

variable {host : Host ω} {world : ω} {m : Machine ω} {turn : Turn ω}

theorem Took.account (took : Took host m turn) : Told turn.before turn.after turn.messages ∧
    Account turn.before.state turn.after.state turn.occasion turn.messages := by
  obtain ⟨messages, told, account⟩ := took.handled.account
  have same : turn.messages = messages := by rw [Turn.messages, told.emitted, List.drop_left]
  rw [same]
  exact ⟨told, account⟩

end Machine

end DebugBridge.Session
