import DebugBridge.Proofs.Session.Handling
import DebugBridge.Session.Surroundings

/-! Runs as the turns that were taken in them.

A turn is one thing dealt with. Between two turns a session only listens: what arrives joins its inbox, and
nothing is told or sent. -/

set_option autoImplicit false

namespace DebugBridge.Session

open Protocol

variable {ω : Type}

structure Turn (ω : Type) where
  occasion : Occasion
  before : Machine ω
  after : Machine ω

namespace Turn

def messages (turn : Turn ω) : List Message := turn.after.emitted.drop turn.before.emitted.length

def commands (turn : Turn ω) : List Engine.Command := turn.after.sent.drop turn.before.sent.length

def unwritten (turn : Turn ω) : List Engine.Command := turn.after.unwritten.drop turn.before.unwritten.length

def request? (turn : Turn ω) : Option Request :=
  match turn.occasion with
  | .item item => item.request?
  | .overdue _ => none

end Turn

def Action.request? : Action → Option Request
  | .message json =>
    match Request.ofJson json with
    | .ok request => if request.kind = "request" then some request else none
    | .error _ => none
  | _ => none

namespace Machine

def turn? (host : Host ω) (m : Machine ω) : Action → Option (Turn ω)
  | .handle =>
    match m.ended, m.inbox with
    | false, item :: rest =>
      some ⟨.item item, { m with inbox := rest }, { m with inbox := rest }.meet host (.item item)⟩
    | _, _ => none
  | .overdue waited =>
    if m.awaitsConfiguration then some ⟨.overdue waited, m, m.meet host (.overdue waited)⟩ else none
  | _ => none

def turns (host : Host ω) (m : Machine ω) : List Action → List (Turn ω)
  | [] => []
  | action :: rest => (m.turn? host action).toList ++ turns host (m.act host action) rest

/-- A turn is taken by a session that is not over, over what comes first in its inbox or, with nothing there,
over a launch that waits. -/
structure Took (host : Host ω) (m : Machine ω) (turn : Turn ω) : Prop where
  going : m.ended = false
  first : (∃ item rest, m.inbox = item :: rest ∧ turn.occasion = .item item ∧
      turn.before = { m with inbox := rest }) ∨
    ∃ waited, m.inbox = [] ∧ turn.occasion = .overdue waited ∧ turn.before = m
  met : turn.after = turn.before.meet host turn.occasion

inductive Step (host : Host ω) (m : Machine ω) : List Request → List (Turn ω) → Machine ω → Prop where
  | took {turn : Turn ω} : Took host m turn → Step host m [] [turn] turn.after
  | asked {request : Request} : request.kind = "request" → Step host m [request] [] (m.post (.request request))
  | closed {heard : Machine ω} : Quiet m heard → Step host m [] [] (heard.post .clientClosed)
  | listened {heard : Machine ω} : Quiet m heard → Step host m [] [] heard

/-- A run from the beginning, with the requests that were received and the turns that were taken. -/
inductive History (host : Host ω) (world : ω) : List Request → List (Turn ω) → Machine ω → Prop where
  | start : History host world [] [] (initial host world)
  | step {received more : List Request} {turns new : List (Turn ω)} {m m' : Machine ω} :
      History host world received turns m → Step host m more new m' →
      History host world (received ++ more) (turns ++ new) m'

variable {host : Host ω} {world : ω}

theorem took_item (host : Host ω) {m : Machine ω} {item : Item} {rest : List Item} (going : m.ended = false)
    (first : m.inbox = item :: rest) : Took host m
      ⟨.item item, { m with inbox := rest }, { m with inbox := rest }.meet host (.item item)⟩ :=
  ⟨going, .inl ⟨item, rest, first, rfl, rfl⟩, rfl⟩

theorem handle_taken (host : Host ω) {m : Machine ω} {item : Item} {rest : List Item} (going : m.ended = false)
    (first : m.inbox = item :: rest) : m.act host .handle = { m with inbox := rest }.handleItem host item ∧
      m.turn? host .handle = some
        ⟨.item item, { m with inbox := rest }, { m with inbox := rest }.meet host (.item item)⟩ := by
  cases m
  cases going
  cases first
  exact ⟨rfl, rfl⟩

theorem took_overdue (host : Host ω) {m : Machine ω} (awaits : m.awaitsConfiguration = true) (waited : Nat) :
    Took host m ⟨.overdue waited, m, m.meet host (.overdue waited)⟩ := by
  simp only [awaitsConfiguration, Bool.and_eq_true, Bool.not_eq_true', List.isEmpty_iff] at awaits
  exact ⟨awaits.1.1, .inr ⟨waited, awaits.1.2, rfl, rfl⟩, rfl⟩

theorem act_step (host : Host ω) (m : Machine ω) (action : Action) :
    Step host m action.request?.toList (m.turn? host action).toList (m.act host action) := by
  cases action with
  | handle =>
    cases going : m.ended with
    | true =>
      simp only [act, handleNext, turn?, going]
      exact .listened .refl
    | false =>
      cases first : m.inbox with
      | nil =>
        simp only [act, handleNext, turn?, going, first]
        exact .listened .refl
      | cons item rest =>
        have took := took_item host going first
        simp only [act, handleNext, turn?, going, first] at took ⊢
        exact .took took
  | overdue waited =>
    by_cases awaits : m.awaitsConfiguration = true
    · simp only [act, turn?, if_pos awaits]
      exact .took (took_overdue host awaits waited)
    · simp only [act, turn?, if_neg awaits]
      exact .listened .refl
  | message json =>
    cases read : Request.ofJson json with
    | error fault =>
      simp only [act, receiveMessage, Action.request?, read]
      exact .listened (log_background _ _ _ _)
    | ok request =>
      by_cases kind : request.kind = "request"
      · simp only [act, receiveMessage, Action.request?, read, if_pos kind]
        exact .asked kind
      · simp only [act, receiveMessage, Action.request?, read, if_neg kind]
        exact .listened .refl
  | clientEnd fault =>
    cases fault with
    | none => exact .closed .refl
    | some reason => exact .closed (log_background _ _ _ _)
  | engine incoming => exact .listened (receive_background _ _)
  | logLine text => exact .listened (.single (.logged text))

theorem run_history (host : Host ω) (world : ω) (actions : List Action) :
    History host world (actions.filterMap Action.request?) ((initial host world).turns host actions)
      ((initial host world).run host actions) := by
  suffices ∀ (received : List Request) (turns : List (Turn ω)) (m : Machine ω), History host world received turns m →
      History host world (received ++ actions.filterMap Action.request?) (turns ++ m.turns host actions)
        (m.run host actions) from this [] [] _ .start
  induction actions with
  | nil =>
    intro received taken m history
    simpa [run, turns] using history
  | cons action rest ih =>
    intro received taken m history
    have later := ih _ _ _ (.step history (act_step host m action))
    have asked : (action :: rest).filterMap Action.request? =
        action.request?.toList ++ rest.filterMap Action.request? := by
      cases asked : action.request? <;> simp [asked]
    rw [asked, turns, ← List.append_assoc, ← List.append_assoc]
    exact later

theorem History.split {received : List Request} {past later : List (Turn ω)} {turn : Turn ω} {m : Machine ω}
    (history : History host world received (past ++ turn :: later) m) :
    ∃ earlier before, History host world earlier past before ∧ Took host before turn := by
  generalize all : past ++ turn :: later = turns at history
  induction history generalizing later with
  | start => cases past <;> cases all
  | @step received _ turns new m _ history step ih =>
    cases step with
    | @took last took =>
      rcases List.eq_nil_or_concat later with rfl | ⟨between, final, rfl⟩
      · obtain ⟨rfl, same⟩ := List.append_inj' all rfl
        cases same
        exact ⟨received, m, history, took⟩
      · rw [List.concat_eq_append, ← List.cons_append, ← List.append_assoc] at all
        exact ih (List.append_inj' all rfl).1
    | asked _ | closed _ | listened _ => exact ih (all.trans (List.append_nil _))

theorem History.taken {received : List Request} {turns : List (Turn ω)} {turn : Turn ω} {m : Machine ω}
    (history : History host world received turns m) (member : turn ∈ turns) :
    ∃ earlier past before, History host world earlier past before ∧ Took host before turn := by
  obtain ⟨past, later, rfl⟩ := List.append_of_mem member
  obtain ⟨earlier, before, history, took⟩ := history.split
  exact ⟨earlier, past, before, history, took⟩

/-! ## A turn among its surroundings -/

section

variable {m : Machine ω} {turn : Turn ω}

theorem commands_of {commands : List Engine.Command} (sent : turn.after.sent = turn.before.sent ++ commands) :
    turn.commands = commands := by
  rw [Turn.commands, sent, List.drop_left]

theorem occasion_of_request {request : Request} (asked : turn.request? = some request) :
    turn.occasion = .item (.request request) := by
  obtain ⟨occasion, before, after⟩ := turn
  cases occasion with
  | overdue => cases asked
  | item item =>
    cases item with
    | request other => cases asked; rfl
    | _ => cases asked

theorem Took.handled (took : Took host m turn) : Handled host turn.before turn.occasion turn.after :=
  took.met ▸ meet_handled host turn.before turn.occasion

theorem Took.state (took : Took host m turn) : turn.before.state = m.state := by
  obtain ⟨item, rest, -, -, same⟩ | ⟨waited, -, -, same⟩ := took.first <;> rw [same]

theorem Took.ended (took : Took host m turn) : turn.before.ended = false := by
  obtain ⟨item, rest, -, -, same⟩ | ⟨waited, -, -, same⟩ := took.first <;> rw [same] <;> exact took.going

theorem Took.emitted (took : Took host m turn) : turn.before.emitted = m.emitted := by
  obtain ⟨item, rest, -, -, same⟩ | ⟨waited, -, -, same⟩ := took.first <;> rw [same]; rfl

theorem Took.sent (took : Took host m turn) : turn.before.sent = m.sent := by
  obtain ⟨item, rest, -, -, same⟩ | ⟨waited, -, -, same⟩ := took.first <;> rw [same]; rfl

theorem Took.nextSeq (took : Took host m turn) : turn.before.nextSeq = m.nextSeq := by
  obtain ⟨item, rest, -, -, same⟩ | ⟨waited, -, -, same⟩ := took.first <;> rw [same]

theorem Took.waiting (took : Took host m turn) : m.waiting = turn.request?.toList ++ turn.before.waiting := by
  obtain ⟨item, rest, inbox, occasion, same⟩ | ⟨waited, inbox, occasion, same⟩ := took.first
  · rw [same, Turn.request?, occasion]
    cases asked : item.request? <;> simp [Machine.waiting, inbox, asked]
  · rw [same, Turn.request?, occasion]
    rfl

end

/-- What holds after a turn, and is kept by the turns after it, holds at the end. It must not be about the
evaluations or the files, which change between turns as well. -/
theorem History.onward {received : List Request} {past later : List (Turn ω)} {turn : Turn ω} {m : Machine ω}
    {P : State → Prop} (history : History host world received (past ++ turn :: later) m)
    (unheard : ∀ s correlator scopes, P s → P { s with correlator := correlator, scopes := scopes })
    (first : P turn.after.state)
    (kept : ∀ next ∈ later, ∀ received turns before, History host world received turns before →
      Took host before next → P next.before.state → P next.after.state) :
    P m.state := by
  generalize all : past ++ turn :: later = turns at history
  induction history generalizing later with
  | start => cases past <;> cases all
  | step history step ih =>
    cases step with
    | @took last took =>
      rcases List.eq_nil_or_concat later with rfl | ⟨between, final, rfl⟩
      · obtain ⟨-, same⟩ := List.append_inj' all rfl
        cases same
        exact first
      · rw [List.concat_eq_append, ← List.cons_append, ← List.append_assoc] at all
        rw [List.concat_eq_append] at kept
        obtain ⟨earlier, same⟩ := List.append_inj' all rfl
        cases same
        have before := ih (fun next member => kept next (List.mem_append_left _ member)) earlier
        rw [← took.state] at before
        exact kept last List.mem_append_cons_self _ _ _ history took before
    | asked _ => exact ih kept (all.trans (List.append_nil _))
    | closed quiet | listened quiet =>
      have before := ih kept (all.trans (List.append_nil _))
      have same := Background.state quiet
      exact same ▸ unheard _ _ _ before

theorem History.along {received : List Request} {past later : List (Turn ω)} {turn : Turn ω} {m : Machine ω}
    {P : State → Prop} (history : History host world received (past ++ turn :: later) m)
    (unheard : ∀ s correlator scopes, P s → P { s with correlator := correlator, scopes := scopes })
    (first : P turn.after.state)
    (kept : ∀ next ∈ later, ∀ before, Took host before next → P next.before.state → P next.after.state) :
    P m.state :=
  history.onward unheard first fun next member _ _ before _ took => kept next member before took

end Machine

/-! ## Messages one after another -/

def askAll (messages : List Json) : List Action := messages.flatMap fun message => [.message message, .handle]

theorem askAll_append (first second : List Json) : askAll (first ++ second) = askAll first ++ askAll second :=
  List.flatMap_append

def requestFor (command : String) (arguments : Json) : Json :=
  .object [("seq", .integer 1), ("type", .string "request"), ("command", .string command), ("arguments", arguments)]

def launchIn (folder root : String) : Json :=
  requestFor "launch" (.object [("port", .integer 2000), ("cwd", .string folder), ("rootDir", .string root)])

def breakpointIn (path : String) : Json :=
  requestFor "setBreakpoints" (.object [("source", .object [("path", .string path)]),
    ("breakpoints", .array [.object [("line", .integer 3)]])])

def stopAt (line : String) : List Action := [.engine ⟨[Text.Utf8.encode line], .silent⟩, .handle]

def openWorld : Surroundings := ⟨⟨[], [], []⟩, some (.new 2000 [] false 0 [Engine.Simulated.welcome])⟩

namespace Machine

theorem run_append (host : Host ω) (m : Machine ω) (first second : List Action) :
    m.run host (first ++ second) = (m.run host first).run host second :=
  List.foldl_append

theorem run_asking (host : Host ω) {m : Machine ω} {message : Json} {request : Request} (going : m.ended = false)
    (rest : m.inbox = []) (read : Request.ofJson message = .ok request) (kind : request.kind = "request") :
    m.run host (askAll [message]) = m.handleRequest host request := by
  have received : m.receiveMessage message = m.post (.request request) := by
    rw [receiveMessage, read]
    exact if_pos kind
  show (m.receiveMessage message).handleNext host = _
  obtain ⟨state, nextSeq, reader, inbox, transcript, world, ended⟩ := m
  rw [received]
  subst going rest
  rfl

theorem turns_append (host : Host ω) (m : Machine ω) (first second : List Action) :
    m.turns host (first ++ second) = m.turns host first ++ (m.run host first).turns host second := by
  induction first generalizing m with
  | nil => rfl
  | cons action rest ih =>
    rw [List.cons_append, turns, turns, ih, List.append_assoc]
    rfl

theorem turns_asking (host : Host ω) {m : Machine ω} {message : Json} {request : Request} (going : m.ended = false)
    (rest : m.inbox = []) (read : Request.ofJson message = .ok request) (kind : request.kind = "request") :
    m.turns host (askAll [message]) = [⟨.item (.request request), m, m.handleRequest host request⟩] := by
  have received : m.receiveMessage message = m.post (.request request) := by
    rw [receiveMessage, read]
    exact if_pos kind
  show ((m.receiveMessage message).turn? host .handle).toList ++ [] = _
  obtain ⟨state, nextSeq, reader, inbox, transcript, world, ended⟩ := m
  rw [received]
  subst going rest
  rfl

end Machine

end DebugBridge.Session
