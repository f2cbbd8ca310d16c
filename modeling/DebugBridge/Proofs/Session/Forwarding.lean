import DebugBridge.Proofs.Session.Conversation
import DebugBridge.Proofs.Session.Dispatch
import DebugBridge.Proofs.Session.Likeness
import DebugBridge.Proofs.Session.Upshot

/-! Log lines that are forwarded, compared between runs.

Two runs may differ in the log lines that reach the inbox and in when these are dealt with. In all else that is done
they agree, and so they agree in all that comes of it. -/

set_option autoImplicit false

namespace DebugBridge.Session

open Protocol

variable {ω : Type}

def Happening.written? : Happening → Option String
  | .greeted password => some (password ++ "\n")
  | .sent command => some command.encode
  | _ => none

/-- What a turn comes to, whatever its messages are numbered; nothing of one that deals with a log line. -/
def Turn.essence? (turn : Turn ω) : Option (Occasion × List Message × List Engine.Command) :=
  match turn.occasion with
  | .item (.logLine _) => none
  | occasion => some (occasion, turn.messages.filterMap Message.unnumbered?, turn.commands)

def Action.isLogLine : Action → Bool
  | .logLine _ => true
  | _ => false

theorem Action.isLogLine_iff {action : Action} : action.isLogLine = true ↔ ∃ text, action = .logLine text := by
  cases action <;> simp [Action.isLogLine]

def Action.isTurn : Action → Bool
  | .handle | .overdue _ => true
  | _ => false

namespace Machine

def written (m : Machine ω) : List String := m.transcript.filterMap Happening.written?

def isEssential (m : Machine ω) : Action → Bool
  | .handle => ! m.ended && m.inbox.head?.any (! ·.isForwarded)
  | .overdue _ => m.awaitsConfiguration
  | .logLine _ => false
  | .message _ | .clientEnd _ | .engine _ => true

/-- The actions of a run, less those that do nothing but bring log lines or deal with them. -/
def essential (host : Host ω) (m : Machine ω) : List Action → List Action
  | [] => []
  | action :: rest =>
    if m.isEssential action then action :: essential host (m.act host action) rest
    else essential host (m.act host action) rest

/-- What comes before an action so that no log line stands in its way. -/
def clearing (m : Machine ω) (action : Action) : List Action :=
  if action.isTurn then .replicate (m.inbox.takeWhile Item.isForwarded).length .handle else []

/-- A run that makes up for the log lines that have been put among its actions. -/
def dealing (host : Host ω) (m : Machine ω) : List Action → List Action
  | [] => []
  | action :: rest =>
    m.clearing action ++ action :: dealing host ((m.run host (m.clearing action)).act host action) rest

def runDealing (host : Host ω) (m : Machine ω) (actions : List Action) : Machine ω :=
  m.run host (m.dealing host actions)

end Machine

structure Turn.Forwards (turn : Turn ω) (text : String) : Prop where
  told : turn.messages = [.event turn.before.nextSeq (.output .console text)]
  unwritten : turn.after.written = turn.before.written
  inbox : turn.after.inbox = turn.before.inbox
  state : turn.after.state = turn.before.state
  world : turn.after.world = turn.before.world

/-- How little two runs differ: the client is told the same but for log lines, with other numbers, and the engine is
told the same, over all and turn by turn, and in the end all is the same but for log lines that wait. -/
structure Undisturbed (turns turns' : List (Turn ω)) (m m' : Machine ω) : Prop where
  messages : m'.emitted.filterMap Message.unnumbered? = m.emitted.filterMap Message.unnumbered?
  written : m'.written = m.written
  turns : turns'.filterMap Turn.essence? = turns.filterMap Turn.essence?
  state : m'.state = m.state
  reader : m'.reader = m.reader
  world : m'.world = m.world
  ended : m'.ended = m.ended
  inbox : m'.inbox.filter (! ·.isForwarded) = m.inbox.filter (! ·.isForwarded)

namespace Machine

section

variable {m m' : Machine ω}

/-! ## What is alike of the past -/

theorem Alike.draw (alike : Alike m m') {β : Type} {f : Happening → Option β}
    (blind : ∀ h, f h = h.unnumbered?.bind f) :
    m'.transcript.filterMap f = m.transcript.filterMap f := by
  have drawn (happened : List Happening) :
      happened.filterMap f = (happened.filterMap Happening.unnumbered?).filterMap f := by
    rw [List.filterMap_filterMap]
    exact List.filterMap_congr fun h _ => blind h
  rw [drawn, alike.transcript, ← drawn]

theorem silent_blind {β : Type} {f : Happening → Option β} (silent : ∀ message, f (.emitted message) = none)
    (h : Happening) : f h = h.unnumbered?.bind f := by
  cases h with
  | emitted message =>
    rw [silent, Happening.unnumbered?]
    cases message.unnumbered? with
    | none => rfl
    | some told => exact (silent told).symm
  | _ => rfl

theorem Alike.sent (alike : Alike m m') : m'.sent = m.sent := alike.draw (silent_blind fun _ => rfl)

theorem Alike.written (alike : Alike m m') : m'.written = m.written := alike.draw (silent_blind fun _ => rfl)

theorem Alike.emitted (alike : Alike m m') :
    m'.emitted.filterMap Message.unnumbered? = m.emitted.filterMap Message.unnumbered? := by
  rw [Machine.emitted, Machine.emitted, List.filterMap_filterMap, List.filterMap_filterMap]
  apply alike.draw
  intro h
  cases h with
  | emitted message =>
    cases message with
    | response => rfl
    | event seq notice =>
      cases notice with
      | output category text => cases category <;> rfl
      | _ => rfl
  | _ => rfl

/-! ## One turn -/

variable {host : Host ω} {turn turn' : Turn ω}

theorem essence?_alike (took : Took host m turn) (took' : Took host m' turn')
    (same : turn'.occasion = turn.occasion) (before : Alike turn.before turn'.before)
    (after : Alike turn.after turn'.after) : turn'.essence? = turn.essence? := by
  have commands : turn'.commands = turn.commands := by
    have sent := after.sent
    rw [took.dispatch.1, took'.dispatch.1, before.sent] at sent
    exact List.append_cancel_left sent
  have messages : turn'.messages.filterMap Message.unnumbered? = turn.messages.filterMap Message.unnumbered? := by
    have emitted := after.emitted
    rw [took.told.1.emitted, took'.told.1.emitted, List.filterMap_append, List.filterMap_append,
      before.emitted] at emitted
    exact List.append_cancel_left emitted
  rw [Turn.essence?, Turn.essence?, same, messages, commands]

theorem forwards (took : Took host m turn) {text : String}
    (forwarded : turn.occasion = .item (.logLine text)) : turn.Forwards text := by
  have met : turn.after = turn.before.announce (.output .console text) := by
    rw [took.met, forwarded]
    rfl
  have messages : turn.messages = [.event turn.before.nextSeq (.output .console text)] := by
    have told := told_announce turn.before (.output .console text)
    rw [Turn.messages, met, told.emitted, List.drop_left]
  constructor
  case told => exact messages
  case unwritten =>
    rw [met, written, announce, emit, record, List.filterMap_append]
    exact List.append_nil _
  all_goals rw [met]; rfl

/-- What does nothing but bring log lines or deal with them leaves the session as it was. -/
theorem act_inessential (host : Host ω) {action : Action} (inessential : m.isEssential action = false) :
    Alike m (m.act host action) ∧ (m.turn? host action).toList.filterMap Turn.essence? = [] := by
  cases action with
  | handle =>
    cases ended : m.ended with
    | true =>
      simp only [act, handleNext, turn?, ended]
      exact ⟨alike_refl m, rfl⟩
    | false =>
      cases first : m.inbox with
      | nil =>
        simp only [act, handleNext, turn?, ended, first]
        exact ⟨alike_refl m, rfl⟩
      | cons item rest =>
        rw [isEssential, ended, first] at inessential
        cases item with
        | logLine text =>
          have taken : Alike m { m with inbox := rest } := by
            refine ⟨rfl, rfl, rfl, rfl, ?_, rfl⟩
            rw [first]
            rfl
          obtain ⟨after, turn⟩ := handle_taken host ended first
          rw [after, turn]
          exact ⟨taken.trans (announce_forwarded _ text), rfl⟩
        | _ => cases inessential
  | overdue waited =>
    have settled : ¬ m.awaitsConfiguration = true := by
      rw [isEssential] at inessential
      rw [inessential]
      exact Bool.false_ne_true
    simp only [act, turn?, if_neg settled]
    exact ⟨alike_refl m, rfl⟩
  | logLine text => exact ⟨post_forwarded m text, rfl⟩
  | message | clientEnd | engine => cases inessential

theorem isEssential_handle : m.isEssential .handle = true ↔
    ∃ item rest, m.ended = false ∧ m.inbox = item :: rest ∧ item.isForwarded = false := by
  rw [isEssential]
  cases m.ended <;> cases m.inbox <;> simp

theorem act_essential (host : Host ω) {action : Action} (alike : Alike m m')
    (essential : m.isEssential action = true) (essential' : m'.isEssential action = true) :
    Alike (m.act host action) (m'.act host action) ∧
      (m'.turn? host action).toList.filterMap Turn.essence? = (m.turn? host action).toList.filterMap Turn.essence? := by
  cases action with
  | handle =>
    obtain ⟨item, rest, going, first, plain⟩ := isEssential_handle.mp essential
    obtain ⟨item', rest', going', first', plain'⟩ := isEssential_handle.mp essential'
    have inbox := alike.inbox
    simp only [first, first', List.filter_cons, plain, plain', Bool.not_false, if_true] at inbox
    obtain ⟨rfl, waiting⟩ := List.cons.inj inbox
    have before : Alike { m with inbox := rest } { m' with inbox := rest' } :=
      ⟨alike.state, alike.reader, alike.world, alike.ended, waiting, alike.transcript⟩
    have after := before.handleItem host item'
    have turned := essence?_alike (took_item host going first) (took_item host going' first') rfl before after
    obtain ⟨acted, took⟩ := handle_taken host going first
    obtain ⟨acted', took'⟩ := handle_taken host going' first'
    rw [acted, acted', took, took']
    exact ⟨after, by simp only [Option.toList_some, List.filterMap_cons, turned]⟩
  | overdue waited =>
    have after := alike.startOverdue host waited
    have turned := essence?_alike (took_overdue host essential waited) (took_overdue host essential' waited) rfl alike
      after
    have awaits : m.awaitsConfiguration = true := essential
    have awaits' : m'.awaitsConfiguration = true := essential'
    simp only [act, turn?, if_pos awaits, if_pos awaits', Option.toList_some]
    exact ⟨after, by simp only [List.filterMap_cons, turned]⟩
  | message json =>
    refine ⟨?_, rfl⟩
    simp only [act, receiveMessage]
    cases Request.ofJson json with
    | error fault => exact alike.log _ _ _
    | ok request =>
      dsimp only
      split
      · exact alike.post _
      · exact alike
  | clientEnd fault =>
    refine ⟨?_, rfl⟩
    cases fault with
    | none => exact alike.post .clientClosed
    | some reason => exact (alike.log _ _ _).post .clientClosed
  | engine incoming => exact ⟨alike.receive incoming, rfl⟩
  | logLine text => cases essential

/-! ## Runs -/

theorem run_inessential (host : Host ω) {actions : List Action} (inessential : m.essential host actions = []) :
    Alike m (m.run host actions) ∧ (m.turns host actions).filterMap Turn.essence? = [] := by
  induction actions generalizing m with
  | nil => exact ⟨alike_refl m, rfl⟩
  | cons action rest ih =>
    rw [Machine.essential] at inessential
    cases first : m.isEssential action with
    | true =>
      rw [first] at inessential
      cases inessential
    | false =>
      rw [first] at inessential
      obtain ⟨alike, nothing⟩ := act_inessential host first
      obtain ⟨later, none⟩ := ih inessential
      refine ⟨alike.trans later, ?_⟩
      rw [turns, List.filterMap_append, nothing, none]
      rfl

/-- Up to the next action that does more, a session stays as it was. -/
theorem run_essential (host : Host ω) {action : Action} {actions rest : List Action}
    (next : m.essential host actions = action :: rest) : ∃ (n : Machine ω) (later : List Action), Alike m n ∧
      n.isEssential action = true ∧ (n.act host action).essential host later = rest ∧
      m.run host actions = (n.act host action).run host later ∧
      (m.turns host actions).filterMap Turn.essence? = (n.turn? host action).toList.filterMap Turn.essence? ++
        ((n.act host action).turns host later).filterMap Turn.essence? := by
  induction actions generalizing m with
  | nil => cases next
  | cons first later ih =>
    rw [Machine.essential] at next
    cases essential : m.isEssential first with
    | true =>
      rw [essential] at next
      obtain ⟨rfl, remaining⟩ := List.cons.inj next
      refine ⟨m, later, alike_refl m, essential, remaining, rfl, ?_⟩
      rw [turns, List.filterMap_append]
    | false =>
      rw [essential] at next
      obtain ⟨alike, nothing⟩ := act_inessential host essential
      obtain ⟨n, remaining, still, more, rest, run, turned⟩ := ih next
      refine ⟨n, remaining, alike.trans still, more, rest, run, ?_⟩
      rw [turns, List.filterMap_append, nothing, turned]
      rfl

theorem run_alike (host : Host ω) {essentials actions actions' : List Action} (alike : Alike m m')
    (first : m.essential host actions = essentials) (second : m'.essential host actions' = essentials) :
    Alike (m.run host actions) (m'.run host actions') ∧
      (m'.turns host actions').filterMap Turn.essence? = (m.turns host actions).filterMap Turn.essence? := by
  induction essentials generalizing m m' actions actions' with
  | nil =>
    obtain ⟨still, nothing⟩ := run_inessential host first
    obtain ⟨still', nothing'⟩ := run_inessential host second
    exact ⟨(still.symm.trans alike).trans still', nothing'.trans nothing.symm⟩
  | cons action rest ih =>
    obtain ⟨n, later, still, essential, remaining, run, turns⟩ := run_essential host first
    obtain ⟨n', later', still', essential', remaining', run', turns'⟩ := run_essential host second
    obtain ⟨acted, turn⟩ := act_essential host ((still.symm.trans alike).trans still') essential essential'
    obtain ⟨after, onward⟩ := ih acted remaining remaining'
    rw [run, run', turns, turns', turn, onward]
    exact ⟨after, rfl⟩

/-! ## Log lines that are put among the actions -/

theorem run_forwarded (host : Host ω) {front rest : List Item} (going : m.ended = false)
    (inbox : m.inbox = front ++ rest) (forwarded : ∀ item ∈ front, item.isForwarded = true) (more : List Action) :
    let n := m.run host (.replicate front.length .handle)
    Alike m n ∧ n.inbox = rest ∧
      m.essential host (.replicate front.length .handle ++ more) = n.essential host more := by
  induction front generalizing m with
  | nil => exact ⟨alike_refl m, inbox, rfl⟩
  | cons item front ih =>
    rw [List.forall_mem_cons] at forwarded
    cases item with
    | logLine text =>
      have passed : m.isEssential .handle = false := by simp [isEssential, inbox, forwarded.1]
      obtain ⟨alike, -⟩ := act_inessential host passed
      obtain ⟨after, -⟩ := handle_taken host going inbox
      have inbox' : (m.act host .handle).inbox = front ++ rest := by
        rw [after]
        rfl
      obtain ⟨later, left, same⟩ := ih (alike.ended.trans going) inbox' forwarded.2
      refine ⟨alike.trans later, left, ?_⟩
      rw [List.length_cons, List.replicate_succ, List.cons_append, Machine.essential, passed]
      exact same
    | _ => cases forwarded.1

/-- With no log line at the front, what does more in the one session does more in the other. -/
theorem isEssential_alike {action : Action} (alike : Alike m m') (essential : m.isEssential action = true)
    (front : ∀ item ∈ m'.inbox.head?, item.isForwarded = false) : m'.isEssential action = true := by
  have inbox := alike.inbox
  cases action with
  | handle =>
    obtain ⟨item, rest, going, first, plain⟩ := isEssential_handle.mp essential
    cases first' : m'.inbox with
    | nil => simp [first, first', plain] at inbox
    | cons item' rest' =>
      rw [first'] at front
      exact isEssential_handle.mpr ⟨item', rest', alike.ended.trans going, first', front item' rfl⟩
  | overdue waited =>
    simp only [isEssential, awaitsConfiguration, Bool.and_eq_true, Bool.not_eq_true', List.isEmpty_iff] at essential ⊢
    obtain ⟨⟨going, nothing⟩, waiting⟩ := essential
    refine ⟨⟨alike.ended.trans going, ?_⟩, alike.state ▸ waiting⟩
    cases first' : m'.inbox with
    | nil => rfl
    | cons item' rest' =>
      rw [first'] at front
      simp [nothing, first', front item' rfl] at inbox
  | message | clientEnd | engine => rfl
  | logLine => exact essential

theorem going_of_essential {action : Action} (essential : m.isEssential action = true) (turn : action.isTurn = true) :
    m.ended = false := by
  cases action with
  | handle =>
    obtain ⟨_, _, going, -⟩ := isEssential_handle.mp essential
    exact going
  | overdue waited =>
    simp only [isEssential, awaitsConfiguration, Bool.and_eq_true, Bool.not_eq_true'] at essential
    exact essential.1.1
  | _ => cases turn

/-- What stands in the way of a turn are log lines, and once they are dealt with there is none at the front. -/
theorem run_clearing (host : Host ω) {action : Action} (turn : action.isTurn = true) (going : m.ended = false) :
    let n := m.run host (m.clearing action)
    Alike m n ∧ (∀ item ∈ n.inbox.head?, item.isForwarded = false) ∧
      ∀ more, m.essential host (m.clearing action ++ more) = n.essential host more := by
  have cleared := run_forwarded host going List.takeWhile_append_dropWhile.symm
    fun item member => List.all_eq_true.mp List.all_takeWhile item member
  rw [clearing, if_pos turn]
  obtain ⟨passed, inbox, -⟩ := cleared []
  refine ⟨passed, ?_, fun more => (cleared more).2.2⟩
  intro item first
  rw [inbox] at first
  have front := List.head?_dropWhile_not Item.isForwarded m.inbox
  rw [Option.mem_def.mp first] at front
  exact front

theorem run_ended (host : Host ω) (ended : m.ended = true) (n : Nat) : m.run host (.replicate n .handle) = m := by
  induction n with
  | zero => rfl
  | succ n ih =>
    have still : m.act host .handle = m := by simp only [act, handleNext, ended]
    rw [List.replicate_succ, run, List.foldl_cons, still]
    exact ih

theorem clearing_ready (host : Host ω) {action : Action} (alike : Alike m m')
    (essential : m.isEssential action = true) :
    let n := m'.run host (m'.clearing action)
    Alike m n ∧ n.isEssential action = true ∧
      ∀ more, m'.essential host (m'.clearing action ++ more) = n.essential host more := by
  cases turn : action.isTurn with
  | false =>
    have anyhow : m'.isEssential action = true := by
      cases action with
      | handle | overdue => cases turn
      | message | clientEnd | engine => rfl
      | logLine => exact essential
    rw [clearing, turn]
    exact ⟨alike, anyhow, fun _ => rfl⟩
  | true =>
    have going := alike.ended.trans (going_of_essential essential turn)
    obtain ⟨passed, front, onward⟩ := run_clearing host turn going
    exact ⟨alike.trans passed, isEssential_alike (alike.trans passed) essential front, onward⟩

theorem sublist_dealing (host : Host ω) (inserted : List Action) : inserted.Sublist (m.dealing host inserted) := by
  induction inserted generalizing m with
  | nil => exact .slnil
  | cons action rest ih => exact (ih.cons_cons action).trans (List.sublist_append_right _ _)

/-- Wherever log lines are put, all else can be done as before. -/
theorem essential_dealing (host : Host ω) (alike : Alike m m') {inserted actions : List Action}
    (same : inserted.filter (! ·.isLogLine) = m.essential host actions) :
    m'.essential host (m'.dealing host inserted) = m.essential host actions := by
  induction inserted generalizing m m' actions with
  | nil => exact same
  | cons action rest ih =>
    rw [dealing]
    cases line : action.isLogLine with
    | true =>
      obtain ⟨text, rfl⟩ := Action.isLogLine_iff.mp line
      have nothing : m'.clearing (.logLine text) = [] := rfl
      have inessential : m'.isEssential (.logLine text) = false := rfl
      rw [nothing, List.nil_append, Machine.essential, inessential]
      exact ih (alike.trans (act_inessential host inessential).1) same
    | false =>
      rw [List.filter_cons_of_pos (by simp [line])] at same
      obtain ⟨n, later, still, essential, remaining, -⟩ := run_essential host same.symm
      obtain ⟨ready, essential', onward⟩ := clearing_ready host (still.symm.trans alike) essential
      have acted := (act_essential host ready essential essential').1
      rw [onward, Machine.essential, if_pos essential', ih acted remaining.symm, remaining, same]

theorem act_clearing (host : Host ω) (alike : Alike m m') (action : Action) :
    Alike ((m.run host (m.clearing action)).act host action) ((m'.run host (m'.clearing action)).act host action) := by
  cases turn : action.isTurn with
  | false =>
    simp only [clearing, turn]
    cases action with
    | handle | overdue => cases turn
    | message | clientEnd | engine => exact (act_essential host alike rfl rfl).1
    | logLine text => exact alike.post _
  | true =>
    cases ended : m.ended with
    | true =>
      have idle (n : Machine ω) (ended : n.ended = true) : Alike n (n.act host action) := by
        refine (act_inessential host ?_).1
        cases action with
        | handle | overdue => simp [isEssential, awaitsConfiguration, ended]
        | _ => cases turn
      simp only [clearing, turn, if_true, run_ended host ended, run_ended host (alike.ended.trans ended)]
      exact ((idle m ended).symm.trans alike).trans (idle m' (alike.ended.trans ended))
    | false =>
      obtain ⟨passed, front, -⟩ := run_clearing host turn ended
      obtain ⟨passed', front', -⟩ := run_clearing host turn (alike.ended.trans ended)
      have between := (passed.symm.trans alike).trans passed'
      generalize m.run host (m.clearing action) = n, m'.run host (m'.clearing action) = n' at *
      cases essential : n.isEssential action with
      | true => exact (act_essential host between essential (isEssential_alike between essential front')).1
      | false =>
        have inessential : n'.isEssential action = false := by
          refine Bool.eq_false_iff.mpr fun more => ?_
          rw [isEssential_alike between.symm more front] at essential
          cases essential
        exact ((act_inessential host essential).1.symm.trans between).trans (act_inessential host inessential).1

/-- Sessions that are alike stay so when the same is done in both and each deals with its own log lines. -/
theorem runDealing_alike (host : Host ω) (alike : Alike m m') (actions : List Action) :
    Alike (m.runDealing host actions) (m'.runDealing host actions) := by
  induction actions generalizing m m' with
  | nil => exact alike
  | cons action rest ih =>
    simp only [runDealing, dealing, run_append]
    exact ih (act_clearing host alike action)

theorem runDealing_append (host : Host ω) (m : Machine ω) (first second : List Action) :
    m.runDealing host (first ++ second) = (m.runDealing host first).runDealing host second := by
  induction first generalizing m with
  | nil => rfl
  | cons action rest ih =>
    simp only [runDealing, List.cons_append, dealing, run_append] at ih ⊢
    exact ih _

theorem runDealing_asking (host : Host ω) {message : Json} {request : Request} (going : m.ended = false)
    (rest : m.inbox = []) (read : Request.ofJson message = .ok request) (kind : request.kind = "request") :
    m.runDealing host (askAll [message]) = m.handleRequest host request := by
  have received : m.receiveMessage message = m.post (.request request) := by
    rw [receiveMessage, read]
    exact if_pos kind
  have nothing : (m.receiveMessage message).clearing .handle = [] := by
    rw [received]
    simp [clearing, post, rest, Action.isTurn, Item.isForwarded]
  rw [← run_asking host going rest read kind]
  show m.run host (.message message :: ((m.receiveMessage message).clearing .handle ++ [.handle])) = _
  rw [nothing]
  rfl

end

/-- Log lines may be brought at any time and dealt with at any time, in the one run and in the other. Wherever they are
put among the actions of a run, there is a run that brings them there and does all else in its order. -/
theorem log_lines_undisturbing (host : Host ω) (m : Machine ω) (actions : List Action) :
    (∀ actions', m.essential host actions' = m.essential host actions →
      Undisturbed (m.turns host actions) (m.turns host actions') (m.run host actions) (m.run host actions')) ∧
    (∀ inserted, inserted.filter (! ·.isLogLine) = m.essential host actions →
      inserted.Sublist (m.dealing host inserted) ∧
        m.essential host (m.dealing host inserted) = m.essential host actions) ∧
    ∀ turn ∈ m.turns host actions, ∀ text, turn.occasion = .item (.logLine text) → turn.Forwards text := by
  refine ⟨?_, ?_, ?_⟩
  · intro actions' same
    obtain ⟨alike, turns⟩ := run_alike host (alike_refl m) rfl same
    exact ⟨alike.emitted, alike.written, turns, alike.state, alike.reader, alike.world, alike.ended, alike.inbox⟩
  · intro inserted same
    exact ⟨sublist_dealing host inserted, essential_dealing host (alike_refl m) same⟩
  · intro turn member text forwarded
    obtain ⟨past, later, all⟩ := List.append_of_mem member
    obtain ⟨earlier, -, took⟩ := turns_split host all
    exact forwards took forwarded

/-- One line is dealt with before the first request, and one between it and the second. -/
theorem log_lines_undisturbing_between :
    let host := Surroundings.host "/" 1000
    let m := initial host ⟨⟨[], [], []⟩, none⟩
    let first : Action := .message (requestFor "initialize" .null)
    let second : Action := .message (requestFor "threads" .null)
    let actions := [first, second, .handle, .handle]
    let actions' := [.logLine "early", first, .logLine "late", second, .handle, .handle, .handle, .handle]
    Undisturbed (m.turns host actions) (m.turns host actions') (m.run host actions) (m.run host actions') ∧
      ((m.run host actions).emitted.map fun message => message.envelope.seq) = [1, 2, 3] ∧
      ((m.run host actions').emitted.map fun message => message.envelope.seq) = [1, 2, 3, 4, 5] := by
  intro host m first second actions actions'
  have put : actions' = m.dealing host [.logLine "early", first, .logLine "late", second, .handle, .handle] := rfl
  have same : m.essential host actions' = m.essential host actions := by
    rw [put]
    exact ((log_lines_undisturbing host m actions).2.1 _ rfl).2
  exact ⟨(log_lines_undisturbing host m actions).1 actions' same, by decide +kernel, by decide +kernel⟩

end Machine

end DebugBridge.Session
