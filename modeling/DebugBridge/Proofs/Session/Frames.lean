import DebugBridge.Proofs.Session.Account
import DebugBridge.Proofs.Session.Reference
import DebugBridge.Proofs.Session.Upshot

/-! Frames as a client counts them, and as the engine does.

A client sees a window of the stack and counts from its first frame. The engine counts from the innermost frame.
Where the window begins is known from the request that it was shown for, until it is shown another one. -/

set_option autoImplicit false

namespace DebugBridge.Session

open Protocol

variable {ω : Type}

structure Lists (s : State) (start levels : Nat) (shown : List FrameView) : Prop where
  length : shown.length = min levels (s.stack.length - start)
  frames : ∀ i view, shown[i]? = some view → ∃ frame, s.stack[start + i]? = some frame ∧
    view = ⟨i, frame.function, s.sourceView frame.file, frame.line⟩

structure RefersTo (reference : Int64) (scope : ScopeReference) : Prop where
  decodes : ScopeReference.decode reference = .ok scope
  unshared : ∀ other, other ≠ scope → ScopeReference.encode other ≠ .ok reference

namespace Turn

/-- Commands to the engine, as far as it is connected, and a response. -/
def Answers (turn : Turn ω) (request : Request) (commands : List Engine.Command) (outcome : Outcome) : Prop :=
  turn.deeds = turn.before.attempts commands ++ [.emitted (.response turn.before.nextSeq request outcome)]

/-- The frames are counted anew: another window is shown, or there is another stack. -/
def Recounts (turn : Turn ω) : Prop :=
  (∃ start levels, turn.occasion.inspection? = some (.stack start levels)) ∨
    ∃ frames, turn.occasion = .item (.engineEvent (.stopped frames))

/-- Whatever is asked about a frame under its number in the window is answered about that frame. The engine is asked
under its own number. -/
structure Addresses (host : Host ω) (turn : Turn ω) (request : Request) (number engineFrame : Nat)
    (frame : Engine.Frame) : Prop where
  scopes : inspection? request = some (.scopes number) → ∃ locals globals,
    turn.Answers request [] (.success (.scopes (some (turn.before.state.sourceView frame.file)) locals globals)) ∧
      RefersTo locals ⟨number, .locals⟩ ∧ RefersTo globals ⟨number, .globals⟩
  listing : ∀ kind, inspection? request = some (.scopeVariables ⟨number, kind⟩) → ∃ answers,
    let names := turn.before.state.names (host.read turn.before.world) frame kind
    turn.Answers request (Engine.inquiries turn.before.state.correlator.nextTag engineFrame names)
      (.success (.variableList (Machine.shownVariables names answers)))
  assignment : ∀ kind name value, inspection? request = some (.assignment ⟨number, kind⟩ name value) → ∃ answer,
    turn.Answers request
      (Engine.inquiries turn.before.state.correlator.nextTag engineFrame [name ++ "=" ++ value, name])
      (.success (.variableValue answer))
  expression : ∀ text context, inspection? request = some (.expression number text context) → ∃ outcome,
    turn.Answers request (Engine.inquiries turn.before.state.correlator.nextTag engineFrame [text]) outcome

end Turn

/-! ## Windows -/

theorem window_lists (s : State) (start levels : Nat) : Lists s start levels (s.window start levels) where
  length := by simp [State.window]
  frames i view shown := by
    rw [State.window, List.getElem?_mapIdx] at shown
    obtain ⟨frame, found, rfl⟩ := Option.map_eq_some_iff.mp shown
    refine ⟨frame, ?_, rfl⟩
    have inside : i < levels := by
      have := (List.getElem?_eq_some_iff.mp found).1
      rw [List.length_take] at this
      omega
    rwa [List.getElem?_take_of_lt inside, List.getElem?_drop] at found

/-- As many frames as a stack may have for each of its frames to have references. -/
def addressable : Nat := Nat.pow 2 59

theorem number_fits {s : State} {frame : Engine.Frame} {start i : Nat} (small : s.stack.length < addressable)
    (found : s.stack[start + i]? = some frame) (kind : ScopeKind) :
    (⟨i, kind⟩ : ScopeReference).number ≤ 0x7FFFFFFFFFFFFFFF := by
  have inside := (List.getElem?_eq_some_iff.mp found).1
  have digit := (ScopeReference.digit_bounds kind).2
  have bound : addressable = 576460752303423488 := rfl
  unfold ScopeReference.number
  dsimp only
  omega

theorem refersTo_of_encode {scope : ScopeReference} {reference : Int64} (encodes : scope.encode = .ok reference) :
    RefersTo reference scope :=
  ⟨ScopeReference.decode_encode encodes, fun _ other same => other (ScopeReference.encode_injective encodes same)⟩

theorem engineFrame_of_found {s : State} {frame : Engine.Frame} {i : Nat} (small : s.stack.length < addressable)
    (found : s.stack[s.windowStart + i]? = some frame) :
    s.engineFrame i = s.windowStart + i ∧ s.viewFrame? i = some frame := by
  have inside := (List.getElem?_eq_some_iff.mp found).1
  have bound : addressable = 576460752303423488 := rfl
  have greatest : State.greatestFrame = 18446744073709551615 := rfl
  have same : s.engineFrame i = s.windowStart + i := by
    unfold State.engineFrame
    omega
  exact ⟨same, by rw [State.viewFrame?, same, found]⟩

theorem windowStart_unshown {occasion : Occasion}
    (unshown : ∀ first levels, occasion.inspection? ≠ some (.stack first levels)) (start : Nat) :
    occasion.windowStart start = start := by
  unfold Occasion.windowStart
  split
  · next first levels shown => exact absurd shown (unshown first levels)
  · rfl

theorem Turn.Answers.same {turn : Turn ω} {request : Request} {outcome other : Outcome}
    (first : turn.Answers request [] outcome) (second : turn.Answers request [] other) : outcome = other := by
  have same := List.append_cancel_left (first.symm.trans second)
  cases same
  rfl

namespace Machine

section

variable {host : Host ω} {m : Machine ω} {turn : Turn ω} {request : Request}

/-- Only a stop brings another stack. -/
theorem Took.stack (took : Took host m turn)
    (unstopped : ∀ frames, turn.occasion ≠ .item (.engineEvent (.stopped frames))) :
    turn.after.state.stack = turn.before.state.stack := by
  have account := took.account.2
  generalize happened : turn.occasion = occasion, turn.messages = messages at account
  cases account with
  | @reported item _ report outlook =>
    have other : item.frames? = none := by
      unfold Item.frames?
      split
      · next frames _ => exact absurd happened (unstopped _)
      · rfl
    refine (congrArg Outlook.stack outlook).trans ?_
    rw [other]
    rfl
  | breakpointsSet _ _ _ outlook | paused _ _ _ _ outlook | other _ _ _ outlook =>
    exact congrArg Outlook.stack outlook

theorem Upshot.inspection {inspection : Inspection}
    (upshot : Upshot host turn.before turn.occasion turn.after) (asked : turn.occasion = .item (.request request))
    (asks : inspection? request = some inspection) : ∃ s commands outcome,
      Inspected turn.before.state (host.read turn.before.world) inspection s commands outcome ∧
        turn.Answers request commands outcome := by
  rw [asked] at upshot
  generalize became : turn.after = m' at upshot
  cases upshot with
  | inspected other inspected state deeds =>
    cases asks.symm.trans other
    exact ⟨_, _, _, inspected, deeds_of (became ▸ deeds)⟩
  | refused other | unwritten other | granted other | attempted other => cases asks.symm.trans other

theorem Upshot.addresses {number : Nat} {frame : Engine.Frame}
    (upshot : Upshot host turn.before turn.occasion turn.after) (asked : turn.occasion = .item (.request request))
    (small : turn.before.state.stack.length < addressable)
    (found : turn.before.state.stack[turn.before.state.windowStart + number]? = some frame) :
    turn.Addresses host request number (turn.before.state.windowStart + number) frame := by
  -- the window shows the frame, so the number that the engine is asked under is the one on its stack
  obtain ⟨engineFrame, view⟩ := engineFrame_of_found small found
  have fits := number_fits small found
  constructor
  case scopes =>
    intro asks
    obtain ⟨_, _, _, inspected, answers⟩ := upshot.inspection asked asks
    cases inspected with
    | scopes locals globals =>
      rw [view] at answers
      exact ⟨_, _, answers, refersTo_of_encode locals, refersTo_of_encode globals⟩
    -- within such a stack every frame has its references
    | @unnumbered _ kind _ fault => cases (ScopeReference.encode_of_fits (fits kind)).symm.trans fault
  case listing =>
    intro kind asks
    obtain ⟨_, _, _, inspected, answers⟩ := upshot.inspection asked asks
    cases inspected with
    | unframed unknown => cases view.symm.trans unknown
    | fetched _ heard known =>
      cases view.symm.trans known
      rw [engineFrame] at answers
      exact ⟨heard, answers⟩
  case assignment =>
    intro kind name value asks
    obtain ⟨_, _, _, inspected, answers⟩ := upshot.inspection asked asks
    cases inspected with
    | assigned answer =>
      rw [engineFrame] at answers
      exact ⟨answer, answers⟩
  case expression =>
    intro text context asks
    obtain ⟨_, _, outcome, inspected, answers⟩ := upshot.inspection asked asks
    cases inspected with
    | evaluated | unanswered =>
      rw [engineFrame] at answers
      exact ⟨_, answers⟩

end

/-! ## Runs -/

/-- Where the window begins that was shown last. A stop is nothing to it. -/
def shownFrom (turns : List (Turn ω)) : Nat := turns.foldl (fun start turn => turn.occasion.windowStart start) 0

theorem shownFrom_append (turns : List (Turn ω)) {more : List (Turn ω)}
    (unshown : ∀ next ∈ more, ∀ first levels, next.occasion.inspection? ≠ some (.stack first levels)) :
    shownFrom (turns ++ more) = shownFrom turns := by
  unfold shownFrom
  rw [List.foldl_append]
  generalize turns.foldl (fun start turn => turn.occasion.windowStart start) 0 = start
  induction more with
  | nil => rfl
  | cons next rest ih =>
    rw [List.foldl_cons, windowStart_unshown (unshown next List.mem_cons_self)]
    exact ih fun other member => unshown other (List.mem_cons_of_mem _ member)

theorem shownFrom_shown {past between : List (Turn ω)} {showing : Turn ω} {start levels : Nat}
    (shown : showing.occasion.inspection? = some (.stack start levels))
    (unshown : ∀ next ∈ between, ∀ first levels, next.occasion.inspection? ≠ some (.stack first levels)) :
    shownFrom (past ++ showing :: between) = start := by
  rw [List.append_cons, shownFrom_append _ unshown, shownFrom, List.foldl_append, List.foldl_cons, List.foldl_nil,
    Occasion.windowStart, shown]

theorem act_windowStart (host : Host ω) {m : Machine ω} (action : Action) (clear : m.state.correlator.tags = []) :
    (m.act host action).state.windowStart = (m.turn? host action).toList.foldl
      (fun start turn => turn.occasion.windowStart start) m.state.windowStart := by
  have step := act_step host m action
  generalize action.request?.toList = received, (m.turn? host action).toList = taken, m.act host action = m' at step
  cases step with
  | took took =>
    rw [(took.upshot clear).1.windowStart, took.state]
    rfl
  | asked => rfl
  | closed quiet | listened quiet => exact (Background.windowStart quiet :)

theorem run_windowStart (host : Host ω) (world : ω) (actions : List Action) :
    ((initial host world).run host actions).state.windowStart =
      shownFrom ((initial host world).turns host actions) := by
  -- from any state with nothing outstanding, as a run goes on from where its first action leads
  suffices ∀ m : Machine ω, m.state.correlator.tags = [] → (m.run host actions).state.windowStart =
      (m.turns host actions).foldl (fun start turn => turn.occasion.windowStart start) m.state.windowStart from
    this _ rfl
  induction actions with
  | nil => exact fun _ _ => rfl
  | cons action rest ih =>
    intro m clear
    rw [turns, List.foldl_append, ← act_windowStart host action clear]
    exact ih _ (act_clear host action clear)

theorem windowStart_before {host : Host ω} {world : ω} {actions : List Action} {past later : List (Turn ω)}
    {turn : Turn ω} (all : (initial host world).turns host actions = past ++ turn :: later) :
    turn.before.state.windowStart = shownFrom past := by
  obtain ⟨earlier, before, took⟩ := turns_split host all
  rw [took.state, run_windowStart, before]

/-- Until the next stop the stack is that of the last one. -/
theorem History.stack {host : Host ω} {world : ω} {received : List Request} {m : Machine ω}
    {past between : List (Turn ω)} {first : Turn ω} (history : History host world received (past ++ first :: between) m)
    (unstopped : ∀ next ∈ first :: between, ∀ frames, next.occasion ≠ .item (.engineEvent (.stopped frames))) :
    m.state.stack = first.before.state.stack := by
  obtain ⟨_, _, _, took⟩ := history.split
  refine history.along (P := fun s => s.stack = first.before.state.stack) (fun _ _ _ same => same)
    (took.stack (unstopped first List.mem_cons_self)) fun next member _ taken same => ?_
  exact (taken.stack (unstopped next (List.mem_cons_of_mem _ member))).trans same

/-- How the stack is shown, and what the numbers in an answer stand for until the frames are counted anew. -/
structure FrameAddressing (host : Host ω) (turns : List (Turn ω)) : Prop where
  listed : ∀ turn ∈ turns, ∀ request start levels, turn.occasion = .item (.request request) →
    inspection? request = some (.stack start levels) → ∃ shown,
      turn.Answers request [] (.success (.stack shown)) ∧ Lists turn.before.state start levels shown
  addressed : ∀ past showing between turn later request other start levels shown view,
    turns = past ++ showing :: (between ++ turn :: later) →
    showing.occasion = .item (.request request) → inspection? request = some (.stack start levels) →
    showing.Answers request [] (.success (.stack shown)) → view ∈ shown →
    showing.before.state.stack.length < addressable → (∀ next ∈ between, ¬ next.Recounts) →
    turn.occasion = .item (.request other) → ∃ frame,
      showing.before.state.stack[start + view.id]? = some frame ∧
        turn.Addresses host other view.id (start + view.id) frame

theorem FrameAddressing.next {host : Host ω} {turns past later : List (Turn ω)} {showing turn : Turn ω}
    {look inquiry : Request} {start levels number : Nat} {frame : Engine.Frame}
    (addressing : FrameAddressing host turns) (all : turns = past ++ showing :: turn :: later)
    (asked : showing.occasion = .item (.request look)) (asks : inspection? look = some (.stack start levels))
    (small : showing.before.state.stack.length < addressable) (few : number < levels)
    (found : showing.before.state.stack[start + number]? = some frame)
    (inquires : turn.occasion = .item (.request inquiry)) :
    turn.Addresses host inquiry number (start + number) frame := by
  have first : showing ∈ turns := all ▸ List.mem_append_cons_self
  obtain ⟨shown, answers, lists⟩ := addressing.listed showing first look start levels asked asks
  have inside : number < shown.length := by
    have there := (List.getElem?_eq_some_iff.mp found).1
    rw [lists.length]
    exact Nat.lt_min.mpr ⟨few, Nat.lt_sub_of_add_lt (Nat.add_comm start number ▸ there)⟩
  obtain ⟨other, there, view⟩ := lists.frames number _ (List.getElem?_eq_getElem inside)
  obtain ⟨same, here, addresses⟩ := addressing.addressed past showing [] turn later look inquiry start levels shown
    shown[number] all asked asks answers (List.getElem_mem inside) small (List.forall_mem_nil _) inquires
  rw [view] at here addresses
  cases found.symm.trans here
  exact addresses

theorem frames_addressed (host : Host ω) (world : ω) (actions : List Action) :
    FrameAddressing host ((initial host world).turns host actions) := by
  have listed : ∀ turn ∈ (initial host world).turns host actions, ∀ request start levels,
      turn.occasion = .item (.request request) → inspection? request = some (.stack start levels) →
      turn.Answers request [] (.success (.stack (turn.before.state.window start levels))) := by
    intro turn member request start levels asked asks
    obtain ⟨_, _, _, inspected, answers⟩ := (turn_upshot member).1.inspection asked asks
    cases inspected with
    | stack => exact answers
  constructor
  case listed =>
    intro turn member request start levels asked asks
    exact ⟨_, listed turn member request start levels asked asks, window_lists _ _ _⟩
  case addressed =>
    intro past showing between turn later request other start levels shown view all asked asks answers member small
      still inquires
    have first : showing ∈ (initial host world).turns host actions := all ▸ List.mem_append_cons_self
    cases (listed showing first request start levels asked asks).same answers
    obtain ⟨i, place⟩ := List.getElem?_of_mem member
    obtain ⟨frame, found, rfl⟩ := (window_lists showing.before.state start levels).frames i view place
    refine ⟨frame, found, ?_⟩
    -- the window begins where it did, in the same stack
    rw [← List.cons_append, ← List.append_assoc] at all
    have last : turn ∈ (initial host world).turns host actions := all ▸ List.mem_append_cons_self
    have windowStart : turn.before.state.windowStart = start := by
      have shown : showing.occasion.inspection? = some (.stack start levels) := by
        rw [asked, Occasion.inspection?, asks]
      exact (windowStart_before all).trans
        (shownFrom_shown shown fun next here first levels again => still next here (.inl ⟨first, levels, again⟩))
    have stack : turn.before.state.stack = showing.before.state.stack := by
      have history := run_history host world actions
      rw [all] at history
      obtain ⟨_, _, earlier, took⟩ := history.split
      refine (congrArg State.stack took.state).trans (earlier.stack ?_)
      intro next here frames stopped
      rcases List.mem_cons.mp here with rfl | here
      · cases asked.symm.trans stopped
      · exact still next here (.inr ⟨frames, stopped⟩)
    rw [← stack] at small found
    rw [← windowStart] at found ⊢
    exact (turn_upshot last).1.addresses inquires small found

/-- The outer one of two frames is shown, and an expression is asked for in it. -/
theorem frames_addressed_outer :
    let host := Surroundings.host "/ws" 1000
    let look : Request := ⟨1, "request", "stackTrace", .object [("levels", .integer 0), ("startFrame", .integer 1)]⟩
    let inquiry : Request := ⟨1, "request", "evaluate", .object [("context", .string "hover"),
      ("expression", .string "%x"), ("frameId", .integer 0)]⟩
    let actions := (askAll [launchIn "/ws" "", requestFor "configurationDone" .null] ++
        stopAt "BREAK a.cs 3 inner a.cs 9 main\r\n") ++
      (askAll [requestFor "stackTrace" look.arguments] ++ askAll [requestFor "evaluate" inquiry.arguments])
    (∃ turn ∈ (initial host openWorld).turns host actions, turn.occasion = .item (.request inquiry) ∧
      turn.Addresses host inquiry 0 1 ⟨"a.cs", 9, "main"⟩) ∧
      ((initial host openWorld).run host actions).sent.map Engine.Command.line = ["CONTINUE", "EVAL 0 1 %x"] := by
  intro host look inquiry actions
  refine ⟨?_, by decide +kernel⟩
  let stopped := (initial host openWorld).run host (askAll [launchIn "/ws" "", requestFor "configurationDone" .null] ++
    stopAt "BREAK a.cs 3 inner a.cs 9 main\r\n")
  let showing : Turn Surroundings := ⟨.item (.request look), stopped, stopped.handleRequest host look⟩
  let turn : Turn Surroundings := ⟨.item (.request inquiry), stopped.handleRequest host look,
    (stopped.handleRequest host look).handleRequest host inquiry⟩
  -- the run is cut at the stop: from there on one message is one turn
  have rest : stopped.inbox = [] := List.isEmpty_iff.mp (by decide +kernel)
  have rest' : (stopped.handleRequest host look).inbox = [] := List.isEmpty_iff.mp (by decide +kernel)
  have shows : stopped.turns host (askAll [requestFor "stackTrace" look.arguments]) = [showing] :=
    turns_asking host (by decide +kernel) rest rfl rfl
  have shown : stopped.run host (askAll [requestFor "stackTrace" look.arguments]) = stopped.handleRequest host look :=
    run_asking host (by decide +kernel) rest rfl rfl
  have asks : (stopped.handleRequest host look).turns host (askAll [requestFor "evaluate" inquiry.arguments]) =
      [turn] :=
    turns_asking host (by decide +kernel) rest' rfl rfl
  have last : stopped.turns host
      (askAll [requestFor "stackTrace" look.arguments] ++ askAll [requestFor "evaluate" inquiry.arguments]) =
      [showing, turn] := by
    rw [turns_append, shows, shown, asks]
    rfl
  have all : (initial host openWorld).turns host actions = _ ++ [showing, turn] :=
    (turns_append host (initial host openWorld) _ _).trans (congrArg _ last)
  have stack : showing.before.state.stack = [⟨"a.cs", 3, "inner"⟩, ⟨"a.cs", 9, "main"⟩] := by decide +kernel
  have lists : inspection? look = some (.stack 1 1000) := rfl
  have found : showing.before.state.stack[1 + 0]? = some ⟨"a.cs", 9, "main"⟩ := by
    rw [stack]
    rfl
  have addresses := (frames_addressed host openWorld actions).next all rfl lists (by rw [stack]; decide) (by decide)
    found rfl
  exact ⟨turn, all ▸ List.mem_append_right _ (List.mem_cons_of_mem _ (List.mem_singleton_self _)), rfl, addresses⟩

/-! ## The window after a stop -/

/-- The frame that an expression is asked for in that comes without one, after a stop and before the stack is looked at
again: the one where the last window began. So it is the innermost frame of the new stack just if that window began at
the innermost frame of its own. -/
structure WindowOutlives (turns : List (Turn ω)) : Prop where
  asked : ∀ past stop between turn later request frames text context,
    turns = past ++ stop :: (between ++ turn :: later) → stop.occasion = .item (.engineEvent (.stopped frames)) →
    (∀ next ∈ between, ∀ first levels, next.occasion.inspection? ≠ some (.stack first levels)) →
    turn.occasion = .item (.request request) → inspection? request = some (.expression 0 text context) →
    ∃ frame outcome, turn.Answers request [.evaluate turn.before.state.correlator.nextTag frame text] outcome ∧
      frame = min (shownFrom past) State.greatestFrame ∧ (frame = 0 ↔ shownFrom past = 0)

theorem window_outlives_stop (host : Host ω) (world : ω) (actions : List Action) :
    WindowOutlives ((initial host world).turns host actions) where
  asked past stop between turn later request frames text context all stopped unshown asked asks := by
    rw [← List.cons_append, ← List.append_assoc] at all
    have member : turn ∈ (initial host world).turns host actions := all ▸ List.mem_append_cons_self
    have still : ∀ next ∈ stop :: between, ∀ first levels, next.occasion.inspection? ≠ some (.stack first levels) := by
      intro next here
      rcases List.mem_cons.mp here with rfl | here
      · rw [stopped]
        exact nofun
      · exact unshown next here
    have start : turn.before.state.windowStart = shownFrom past := by
      rw [windowStart_before all, shownFrom_append past still]
    have engineFrame : turn.before.state.engineFrame 0 = min (shownFrom past) State.greatestFrame := by
      rw [State.engineFrame, start, Nat.add_zero]
    have innermost : min (shownFrom past) State.greatestFrame = 0 ↔ shownFrom past = 0 := by
      have greatest : State.greatestFrame = 18446744073709551615 := rfl
      omega
    obtain ⟨_, _, outcome, inspected, answers⟩ := (turn_upshot member).1.inspection asked asks
    cases inspected with
    | evaluated | unanswered =>
      rw [engineFrame] at answers
      exact ⟨_, _, answers, rfl, innermost⟩

/-- A stop in two frames, of which the outer one is shown, and then a stop in one frame. A watch expression without a
frame is asked for in the second frame of that stack, which has none. -/
theorem stop_keeps_window :
    let host := Surroundings.host "/ws" 1000
    let played := (initial host openWorld).run host
      (askAll [launchIn "/ws" "", requestFor "configurationDone" .null] ++
        stopAt "BREAK a.cs 3 inner a.cs 9 main\r\n" ++
        askAll [requestFor "stackTrace" (.object [("levels", .integer 1), ("startFrame", .integer 1)])] ++
        stopAt "BREAK a.cs 10 main\r\n" ++
        askAll [requestFor "evaluate" (.object [("context", .string "watch"), ("expression", .string "%x")])])
    played.state.stack.map Engine.Frame.function = ["main"] ∧
      played.sent.map Engine.Command.line = ["CONTINUE", "EVAL 0 1 %x"] := by
  decide +kernel

end Machine

end DebugBridge.Session
