import DebugBridge.Proofs.Session.Account
import DebugBridge.Proofs.Session.Upshot

/-! Requests that fail, and what they leave as it was. -/

set_option autoImplicit false

namespace DebugBridge.Session

open Protocol

variable {ω : Type}

/-- A request is turned down, and nothing comes of it. A command for it may have been handed over in vain. An
expression that gets no answer has used up a tag, and has been asked for if there is a connection. -/
inductive Turn.TurnsDown (turn : Turn ω) (seq : Nat) (request : Request) (cause : Refusal) : Prop where
  | refused : turn.after.state = turn.before.state →
      turn.deeds = [.emitted (.response seq request (.failure cause))] → TurnsDown turn seq request cause
  | unwritten {command : Engine.Command} : turn.after.state = turn.before.state → turn.unwritten = [command] →
      turn.deeds = [.sent command, .emitted (.response seq request (.failure cause))] →
      TurnsDown turn seq request cause
  | unanswered {frame : Nat} {text : String} {context : EvaluateContext} :
      inspection? request = some (.expression frame text context) →
      turn.after.state = { turn.before.state with correlator :=
        { turn.before.state.correlator with nextTag := turn.before.state.correlator.nextTag + 1 } } →
      turn.deeds = turn.before.attempts [.evaluate turn.before.state.correlator.nextTag
          (turn.before.state.engineFrame frame) text] ++
        [.emitted (.response seq request (.failure cause))] → TurnsDown turn seq request cause

structure Harmless (host : Host ω) (turns : List (Turn ω)) : Prop where
  /-- A request that fails, other than for want of a connection to the engine, changes nothing. -/
  turnsDown : ∀ turn ∈ turns, ∀ seq request cause,
    .emitted (.response seq request (.failure cause)) ∈ turn.deeds → (∀ fault, cause ≠ .notConnected fault) →
    turn.occasion = .item (.request request) ∧ turn.TurnsDown seq request cause
  /-- A launch without a connection leaves room for another one, and all else is as it was. Only one that nobody
  could be made to read stays open. -/
  unreached : ∀ turn ∈ turns, ∀ seq request fault,
    .emitted (.response seq request (.failure (.notConnected fault))) ∈ turn.deeds →
    verb? request = some .launch ∧
      turn.after.state = { turn.before.state with
        phase := .idle, pendingLaunch := none, tracing := false, connected := turn.after.state.connected
        configured := turn.after.state.configured, resolver := turn.after.state.resolver } ∧
      (host.StartsReaders → turn.after.state.connected = turn.before.state.connected)
  /-- Nor does a launch bear on the stop and on the breakpoints in the turn that takes it on. -/
  launching : ∀ turn ∈ turns, ∀ request, turn.occasion = .item (.request request) → verb? request = some .launch →
    turn.after.state.outlook = turn.before.state.outlook ∧
      turn.after.state.windowStart = turn.before.state.windowStart ∧
      turn.after.state.correlator.slots = turn.before.state.correlator.slots

namespace Machine

theorem response_last {m : Machine ω} {commands : List Engine.Command} {message response : Message}
    (member : .emitted response ∈ m.attempts commands ++ [Happening.emitted message]) : message = response := by
  rcases List.mem_append.mp member with sent | last
  · unfold attempts at sent
    split at sent
    · obtain ⟨command, -, other⟩ := List.mem_map.mp sent
      cases other
    · cases sent
  · cases List.mem_singleton.mp last
    rfl

section

variable {host : Host ω} {m m' : Machine ω} {turn : Turn ω} {seq : Nat} {request : Request} {cause : Refusal}

theorem Granted.untold (granted : Granted turn.before turn.after) :
    .emitted (.response seq request (.failure cause)) ∉ turn.deeds := by
  obtain ⟨said, deeds, fine⟩ := granted.said
  rw [deeds_of deeds]
  intro member
  cases fine _ member

/-- The failure that a turn tells of is either of a request turned down, or of a launch without a connection. -/
theorem Upshot.failure (upshot : Upshot host turn.before turn.occasion turn.after)
    (clear : turn.before.state.correlator.tags = [])
    (told : .emitted (.response seq request (.failure cause)) ∈ turn.deeds) :
    ((∀ fault, cause ≠ .notConnected fault) ∧ turn.occasion = .item (.request request) ∧
        turn.TurnsDown seq request cause) ∨
      ∃ fault launch, cause = .notConnected fault ∧ request = launch.request ∧
        (turn.before.state.pendingLaunch = some launch ∨ verb? launch.request = some .launch) ∧
        turn.after.state = { turn.before.state with
          phase := .idle, pendingLaunch := none, tracing := false, connected := turn.after.state.connected
          configured := turn.after.state.configured, resolver := turn.after.state.resolver } ∧
        (host.StartsReaders → turn.after.state.connected = turn.before.state.connected) := by
  generalize happened : turn.occasion = occasion, became : turn.after = m' at upshot
  cases upshot with
  | inspected asks inspected state deeds =>
    have said := deeds_of (became ▸ deeds)
    rw [said] at told
    cases response_last told
    refine .inl ?_
    -- only a number that makes no reference and an expression without an answer are failures here
    cases inspected with
    | unnumbered =>
      rw [attempts_nil, List.nil_append] at said
      exact ⟨nofun, rfl, .refused (became ▸ state) said⟩
    | unanswered =>
      refine ⟨?_, rfl, .unanswered asks ?_ said⟩
      · intro fault
        split <;> exact Refusal.noConfusion
      · have slots : turn.before.state.correlator.slots = [] := List.map_eq_nil_iff.mp clear
        rw [became, state, State.spent, ← slots]
        rfl
  | refused other reached state deeds =>
    have said := deeds_of (became ▸ deeds)
    rw [said] at told
    cases List.mem_singleton.mp told
    exact .inl ⟨reached, rfl, .refused (became ▸ state) said⟩
  | unwritten other reached state transcript =>
    rw [← became] at transcript state
    have said := deeds_of ((congrArg (List.filter Happening.isDeed) transcript).trans (List.filter_append _ _))
    have unwritten : turn.after.unwritten = turn.before.unwritten ++ [_] :=
      (congrArg (List.filterMap Happening.unwritten?) transcript).trans List.filterMap_append
    have unwritten := (congrArg (List.drop turn.before.unwritten.length) unwritten).trans List.drop_left
    rw [said] at told
    rcases List.mem_cons.mp told with other | member
    · cases other
    · cases List.mem_singleton.mp member
      exact .inl ⟨reached, rfl, .unwritten state unwritten said⟩
  | granted other granted => exact absurd told (became ▸ granted).untold
  | attempted other granted state asked tried =>
    cases tried with
    | nothing => exact absurd told (became ▸ granted).untold
    | connected more => exact absurd told (became ▸ granted.trans more).untold
    | failed greeting fault pending state' unread deeds greeted =>
      obtain ⟨said, early, fine⟩ := granted.said
      rw [early, List.append_assoc] at deeds
      rw [deeds_of (became ▸ deeds)] at told
      -- what was said before, the password, and the answer to the launch
      rcases List.mem_append.mp told with member | member
      · cases fine _ member
      · rcases List.mem_append.mp member with member | member
        · rcases greeted with rfl | rfl
          · cases member
          · cases List.mem_singleton.mp member
        · cases List.mem_singleton.mp member
          refine .inr ⟨fault, _, rfl, rfl, asked _ pending, ?_, fun starts => ?_⟩
          · rw [state', state]
          · rw [unread starts, state]

theorem Took.launching (took : Took host m turn) (asked : turn.occasion = .item (.request request))
    (verb : verb? request = some .launch) : turn.after.state.outlook = turn.before.state.outlook := by
  have account := took.account.2
  rw [asked] at account
  generalize turn.messages = messages at account
  cases account with
  | reported _ report => cases report
  | breakpointsSet _ other | paused _ _ other =>
    rw [verb] at other
    cases other
  | other _ _ _ outlook => exact outlook

end

/-- A request that fails changes nothing, and nothing is sent for it but a question that gets no answer. A launch
without a connection leaves the session as idle as it was before, without the launch and its log. -/
theorem failed_requests_change_nothing (host : Host ω) (world : ω) (actions : List Action) :
    Harmless host ((initial host world).turns host actions) := by
  have history := run_history host world actions
  constructor
  case turnsDown =>
    intro turn member seq request cause told reached
    obtain ⟨upshot, clear⟩ := turn_upshot member
    rcases upshot.failure clear told with ⟨-, asked, down⟩ | ⟨fault, -, unreached, -⟩
    · exact ⟨asked, down⟩
    · exact absurd unreached (reached fault)
  case unreached =>
    intro turn member seq request fault told
    obtain ⟨upshot, clear⟩ := turn_upshot member
    obtain ⟨_, _, before, earlier, took⟩ := history.taken member
    rcases upshot.failure clear told with ⟨reached, -⟩ | ⟨_, launch, -, rfl, pending, state⟩
    · exact absurd rfl (reached fault)
    · refine ⟨?_, state⟩
      -- a launch that has waited was taken on as one in an earlier turn
      rcases pending with pending | verb
      · refine earlier.ledger.verb launch.request ?_
        rw [pendingRequest, ← took.state, pending]
        rfl
      · exact verb
  case launching =>
    intro turn member request asked verb
    obtain ⟨upshot, clear⟩ := turn_upshot member
    obtain ⟨_, _, before, earlier, took⟩ := history.taken member
    refine ⟨took.launching asked verb, ?_, ?_⟩
    · rw [upshot.windowStart, asked, Occasion.windowStart, Occasion.inspection?]
      simp only [inspection?, verb]
    · rw [List.map_eq_nil_iff.mp clear, List.map_eq_nil_iff.mp (upshot.clear clear)]

end Machine

end DebugBridge.Session
