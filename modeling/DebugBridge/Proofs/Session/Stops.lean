import DebugBridge.Proofs.Breakpoint.Identity
import DebugBridge.Proofs.Session.Account

/-! Stops, as they are told to a client.

A stop is told when the engine reports one. A pause that was asked for is told with the next line, whatever that
says; if it is a stop, the stop is the pause. -/

set_option autoImplicit false

namespace DebugBridge.Session

open Protocol
open Breakpoint (Location Table)
open Engine (Event Frame)

variable {ω : Type}

def Notice.stop? : Notice → Option StopReason
  | .stopped reason => some reason
  | _ => none

def Message.stop? : Message → Option StopReason
  | .response _ _ _ => none
  | .event _ notice => notice.stop?

def Message.grantsPause : Message → Bool
  | .response _ request (.success _) => verb? request = some .pause
  | _ => false

def Turn.stops (turn : Turn ω) : List StopReason := turn.messages.filterMap Message.stop?

/-- What a stop is put down to, a requested pause apart: the first breakpoint at the place of the innermost
frame. -/
inductive FoundAt (table : Table) : List Frame → StopReason → Prop where
  | breakpoint {top : Frame} {outer : List Frame} {location : Location} (before after : List Location) :
      table.locations top.file = before ++ location :: after → location.line = top.line →
      (∀ other ∈ before, other.line ≠ top.line) → FoundAt table (top :: outer) (.breakpoint location.id)
  | elsewhere {top : Frame} {outer : List Frame} : (∀ location ∈ table.locations top.file, location.line ≠ top.line) →
      FoundAt table (top :: outer) .step
  | nowhere : FoundAt table [] .step

def IsBreak (line : String) : Prop := ∃ frames, Event.decode line = .ok (.stopped frames)

structure DealsWith (turn : Turn ω) (line : String) : Prop where
  paused : turn.before.state.pausePending = true → turn.stops = [.pause]
  stopped : ∀ frames, Event.decode line = .ok (.stopped frames) → turn.before.state.pausePending = false →
    ∃ reason, turn.stops = [reason] ∧ FoundAt turn.before.state.breakpoints frames reason
  silent : ¬ IsBreak line → turn.before.state.pausePending = false → turn.stops = []
  unpaused : turn.after.state.pausePending = false
  stack : ∀ frames, Event.decode line = .ok (.stopped frames) → turn.after.state.stack = frames
  sameStack : ¬ IsBreak line → turn.after.state.stack = turn.before.state.stack
  halted : turn.stops ≠ [] → turn.after.state.phase = .stopped
  running : turn.stops = [] → Event.decode line = .ok .running → turn.after.state.phase = .running
  samePhase : turn.stops = [] → Event.decode line ≠ .ok .running → turn.after.state.phase = turn.before.state.phase

structure PassesBy (turn : Turn ω) : Prop where
  silent : turn.stops = []
  stack : turn.after.state.stack = turn.before.state.stack
  pausing : turn.after.state.pausePending = turn.before.state.pausePending ∨
    turn.after.state.pausePending = true ∧ ∃ request seq answer, turn.request? = some request ∧
      verb? request = some .pause ∧ turn.messages = [.response seq request (.success answer)]

/-! ## What a line is reported as -/

theorem frames?_report (line : String) (frames : List Frame) :
    (Item.report line).frames? = some frames ↔ Event.decode line = .ok (.stopped frames) := by
  unfold Item.report
  split
  · next decoded => rw [decoded]; simp [Item.frames?]
  · next decoded => rw [decoded]; simp [Item.frames?]
  · next event _ decoded =>
    rw [decoded]
    cases event <;> simp [Item.frames?]

theorem unbroken_report {line : String} (unbroken : ¬ IsBreak line) : (Item.report line).frames? = none := by
  apply Option.eq_none_iff_forall_ne_some.mpr
  intro frames broke
  exact unbroken ⟨frames, (frames?_report line frames).mp broke⟩

theorem going_report (s : State) {line : String} (running : Event.decode line = .ok .running) :
    (Item.report line).going s = .running := by
  rw [Item.report, running]
  rfl

theorem going_report_other (s : State) {line : String} (other : Event.decode line ≠ .ok .running) :
    (Item.report line).going s = s.phase := by
  unfold Item.report
  split
  · rfl
  · rfl
  · next event _ decoded =>
    cases event <;> first | rfl | exact absurd decoded other

/-! ## What is told of a stop -/

theorem stops_events (seq : Nat) (notices : List Notice) :
    (events seq notices).filterMap Message.stop? = notices.filterMap Notice.stop? := by
  induction notices generalizing seq with
  | nil => rfl
  | cons notice rest ih => rw [events, List.filterMap_cons, List.filterMap_cons, ih]; rfl

theorem stops_news (s : State) (item : Item) : (item.news s).filterMap Notice.stop? = [] := by
  apply List.filterMap_eq_nil_iff.mpr
  intro notice member
  unfold Item.news at member
  split at member
  · rw [List.mem_singleton.mp member]; rfl
  · rw [List.mem_singleton.mp member]; rfl
  · obtain ⟨_, _, rfl⟩ := List.mem_map.mp member; rfl
  · obtain ⟨_, _, rfl⟩ := List.mem_map.mp member; rfl
  · rw [List.mem_singleton.mp member]; rfl
  · cases member

theorem stops_notices (s : State) (item : Item) (seq : Nat) :
    (events seq (item.notices s)).filterMap Message.stop? = (item.stop? s).toList := by
  rw [stops_events, Item.notices, List.filterMap_append, stops_news, List.nil_append]
  cases item.stop? s <;> rfl

theorem stop?_paused {s : State} {item : Item} (report : item.isReport = true) (paused : s.pausePending = true) :
    item.stop? s = some .pause := by
  rw [Item.stop?, report, paused]
  rfl

theorem stop?_unpaused {s : State} (item : Item) (unpaused : s.pausePending = false) :
    item.stop? s = item.frames?.map (State.stopReason s.breakpoints) := by
  rw [Item.stop?, unpaused, Bool.and_false]
  rfl

theorem foundAt_stopReason (table : Table) (frames : List Frame) :
    FoundAt table frames (State.stopReason table frames) := by
  cases frames with
  | nil => exact .nowhere
  | cons top outer =>
    unfold State.stopReason
    rw [List.head?_cons, Option.bind_some]
    cases found : table.find? top.file top.line with
    | none => exact .elsewhere (Table.elsewhere_of_find? found)
    | some location =>
      obtain ⟨here, before, after, divided, first⟩ := Table.find?_divides found
      exact .breakpoint before after divided here first

theorem stopReason_unpaused (table : Table) (frames : List Frame) : State.stopReason table frames ≠ .pause := by
  unfold State.stopReason
  split <;> exact StopReason.noConfusion

theorem stops_unbearing {messages : List Message} (unbearing : ∀ message ∈ messages, message.bears = false) :
    messages.filterMap Message.stop? = [] := by
  apply List.filterMap_eq_nil_iff.mpr
  intro message member
  have plain := unbearing message member
  cases message with
  | response => rfl
  | event _ notice => cases notice <;> first | rfl | cases plain

namespace Machine

/-! ## Turns -/

section

variable {s s' : State} {occasion : Occasion} {messages : List Message} {turn : Turn ω}

theorem reported_dealsWith {line : String} (table : Table)
    (stops : turn.stops = ((Item.report line).stop? turn.before.state).toList)
    (outlook : turn.after.state.outlook =
      ⟨table, (Item.report line).frames?.getD turn.before.state.stack, false⟩)
    (phase : turn.after.state.phase = (Item.report line).phaseAfter turn.before.state) : DealsWith turn line := by
  have stack : turn.after.state.stack = (Item.report line).frames?.getD turn.before.state.stack :=
    congrArg Outlook.stack outlook
  have unstopped (silent : turn.stops = []) : (Item.report line).stop? turn.before.state = none := by
    rw [stops] at silent
    exact Option.toList_eq_nil_iff.mp silent
  constructor
  case paused =>
    intro paused
    rw [stops, stop?_paused (Item.isReport_report line) paused]
    rfl
  case stopped =>
    intro frames broke unpaused
    refine ⟨State.stopReason turn.before.state.breakpoints frames, ?_, foundAt_stopReason _ _⟩
    rw [stops, stop?_unpaused _ unpaused, (frames?_report line frames).mpr broke]
    rfl
  case silent =>
    intro unbroken unpaused
    rw [stops, stop?_unpaused _ unpaused, unbroken_report unbroken]
    rfl
  case unpaused => exact congrArg Outlook.pausePending outlook
  case stack =>
    intro frames broke
    rw [stack, (frames?_report line frames).mpr broke]
    rfl
  case sameStack =>
    intro unbroken
    rw [stack, unbroken_report unbroken]
    rfl
  case halted =>
    intro told
    have stop : (Item.report line).stop? turn.before.state ≠ none := by
      intro none
      rw [stops, none] at told
      exact told rfl
    rw [phase, Item.phaseAfter, if_pos (Option.isSome_iff_ne_none.mpr stop)]
  case running =>
    intro silent running
    rw [phase, Item.phaseAfter, unstopped silent, going_report _ running]
    rfl
  case samePhase =>
    intro silent other
    rw [phase, Item.phaseAfter, unstopped silent, going_report_other _ other]
    rfl

theorem Account.dealsWith {line : String} (occasion : turn.occasion = .item (.report line))
    (account : Account turn.before.state turn.after.state turn.occasion turn.messages) : DealsWith turn line := by
  have report := Item.isReport_report line
  have stops : turn.stops = turn.messages.filterMap Message.stop? := rfl
  rw [occasion] at account
  generalize turn.messages = messages at account stops
  generalize same : Item.report line = item at account report
  cases account with
  | reported seq _ outlook phase =>
    subst same
    exact reported_dealsWith _ (stops.trans (stops_notices _ _ _)) outlook phase
  | breakpointsSet | paused => cases report
  | other unreported => cases (unreported item rfl).symm.trans report

theorem Account.passesBy (unheard : ∀ item, turn.occasion = .item item → item.isReport = false)
    (account : Account turn.before.state turn.after.state turn.occasion turn.messages) : PassesBy turn := by
  have stops : turn.stops = turn.messages.filterMap Message.stop? := rfl
  generalize happened : turn.occasion = occasion, told : turn.messages = messages at account stops unheard
  cases account with
  | @reported item _ report => cases (unheard item rfl).symm.trans report
  | breakpointsSet _ _ _ outlook =>
    exact ⟨stops, congrArg Outlook.stack outlook, .inl (congrArg Outlook.pausePending outlook)⟩
  | @paused request seq answer verb _ outlook =>
    have asked : turn.request? = some request := by rw [Turn.request?, happened]; rfl
    exact ⟨stops, congrArg Outlook.stack outlook,
      .inr ⟨congrArg Outlook.pausePending outlook, request, seq, answer, asked, verb, told⟩⟩
  | other _ _ unbearing outlook =>
    exact ⟨stops.trans (stops_unbearing unbearing), congrArg Outlook.stack outlook,
      .inl (congrArg Outlook.pausePending outlook)⟩

/-- A stop that is a pause takes back what a pause that succeeded has given. -/
theorem Account.balance (account : Account s s' occasion messages) :
    (messages.filterMap Message.stop?).count .pause + s'.pausePending.toNat ≤
      messages.countP Message.grantsPause + s.pausePending.toNat := by
  cases account with
  | @reported item seq report outlook _ =>
    rw [stops_notices, show s'.pausePending = false from congrArg Outlook.pausePending outlook]
    cases paused : s.pausePending with
    | true =>
      rw [stop?_paused report paused]
      exact Nat.le_add_left _ _
    | false =>
      have none : ((item.stop? s).toList).count .pause = 0 := by
        rw [stop?_unpaused item paused]
        cases item.frames? with
        | none => rfl
        | some frames => exact List.count_eq_zero.mpr (by simpa using (stopReason_unpaused s.breakpoints frames).symm)
      rw [none]
      exact Nat.zero_le _
  | breakpointsSet _ _ _ outlook =>
    rw [show s'.pausePending = s.pausePending from congrArg Outlook.pausePending outlook]
    exact Nat.add_le_add_right (Nat.zero_le _) _
  | @paused request seq answer verb _ outlook =>
    rw [show s'.pausePending = true from congrArg Outlook.pausePending outlook,
      show List.countP Message.grantsPause _ = 1 by simp [Message.grantsPause, verb]]
    exact Nat.le_add_right 1 _
  | other _ _ unbearing outlook =>
    rw [show s'.pausePending = s.pausePending from congrArg Outlook.pausePending outlook, stops_unbearing unbearing]
    exact Nat.add_le_add_right (Nat.zero_le _) _

end

/-! ## Runs -/

def Sourced (items : List Item) : Prop := ∀ item ∈ items, item.isReport = true → ∃ line, item = .report line

theorem Sourced.snoc {items : List Item} {item : Item} (sourced : Sourced items)
    (source : item.isReport = true → ∃ line, item = .report line) : Sourced (items ++ [item]) := by
  intro other member report
  rcases List.mem_append.mp member with member | member
  · exact sourced other member report
  · cases List.mem_singleton.mp member
    exact source report

section

variable {host : Host ω} {m m' : Machine ω}

theorem Background.sourced {may : Engine.Command → Prop} (background : Background may m m')
    (sourced : Sourced m.inbox) : Sourced m'.inbox := by
  induction background with
  | refl => exact sourced
  | tail _ aside ih =>
    cases aside with
    | logged text => exact ih.snoc nofun
    | @reported _ line _ => exact ih.snoc fun _ => ⟨line, rfl⟩
    | @parted _ item _ farewell =>
      refine ih.snoc fun report => ?_
      cases item with
      | engineClosed | engineFailed => cases report
      | _ => cases farewell
    | _ => exact ih

theorem Launched.sourced (launched : Launched host m m') (sourced : Sourced m.inbox) : Sourced m'.inbox := by
  cases launched with
  | nothing => exact sourced
  | connected _ _ _ quiet informed _ last =>
    exact (last.sourced (informed.sourced (quiet.sourced sourced :) :) :)
  | failed _ _ _ _ quiet => exact (quiet.sourced sourced :)

theorem inbox_announceAll (m : Machine ω) (notices : List Notice) : (m.announceAll notices).inbox = m.inbox := by
  induction notices generalizing m with
  | nil => rfl
  | cons notice rest ih => exact ih (m.announce notice)

theorem Handled.sourced {occasion : Occasion} (handled : Handled host m occasion m') (sourced : Sourced m.inbox) :
    Sourced m'.inbox := by
  cases handled with
  | replied _ _ quiet asked => exact (asked.sourced (quiet.sourced sourced :) :)
  | introduced _ quiet | disconnected _ quiet | left quiet => exact (quiet.sourced sourced :)
  | notResumed _ _ _ quiet | repeated _ _ quiet | unreadable _ _ _ _ _ quiet
  | homeless _ _ _ _ _ _ _ quiet => exact (quiet.sourced sourced :)
  | notWritten _ _ _ _ quiet failed => exact (failed.sourced (quiet.sourced sourced :) :)
  | breakpointsSet _ _ _ quiet informed => exact (informed.sourced (quiet.sourced sourced :) :)
  | resumed _ _ _ _ _ quiet sent => exact (sent.sourced (quiet.sourced sourced :) :)
  | putOff _ _ _ _ _ _ _ _ quiet ready => exact (ready.sourced (quiet.sourced sourced :) :)
  | started _ _ _ _ _ _ _ _ quiet ready launched =>
    exact launched.sourced (ready.sourced (quiet.sourced sourced :) :)
  | configured _ quiet launched => exact launched.sourced (quiet.sourced sourced :)
  | announced before _ _ _ _ _ _ _ quiet =>
    rw [inbox_announceAll]
    exact (quiet.sourced sourced :)
  | parted _ quiet =>
    rw [inbox_announceAll]
    exact (quiet.sourced sourced :)
  | overdue quiet launched => exact launched.sourced (quiet.sourced sourced :)

end

section

variable {host : Host ω} {world : ω} {m : Machine ω} {received : List Request} {turns : List (Turn ω)}

theorem Took.sourced {turn : Turn ω} (took : Took host m turn) (sourced : Sourced m.inbox) :
    Sourced turn.before.inbox ∧
      ∀ item, turn.occasion = .item item → item.isReport = true → ∃ line, item = .report line := by
  obtain ⟨item, rest, inbox, occasion, same⟩ | ⟨waited, inbox, occasion, same⟩ := took.first
  · rw [inbox] at sourced
    rw [same, occasion]
    refine ⟨fun other member => sourced other (List.mem_cons_of_mem _ member), ?_⟩
    rintro _ ⟨⟩
    exact sourced item List.mem_cons_self
  · rw [same, occasion]
    exact ⟨sourced, nofun⟩

theorem History.sourced (history : History host world received turns m) : Sourced m.inbox := by
  induction history with
  | start => exact nofun
  | step _ step ih =>
    cases step with
    | took took => exact took.handled.sourced (took.sourced ih).1
    | asked _ => exact ih.snoc nofun
    | closed quiet => exact (Background.sourced quiet ih).snoc nofun
    | listened quiet => exact Background.sourced quiet ih

theorem History.balance_stops (history : History host world received turns m) :
    (m.emitted.filterMap Message.stop?).count .pause + m.state.pausePending.toNat ≤
      m.emitted.countP Message.grantsPause := by
  induction history with
  | start => exact Nat.le_refl 0
  | step _ step ih =>
    cases step with
    | took took =>
      obtain ⟨told, account⟩ := took.account
      have balance := account.balance
      rw [took.state] at balance
      rw [told.emitted, took.emitted, List.filterMap_append, List.count_append, List.countP_append]
      omega
    | asked _ => exact ih
    | closed quiet | listened quiet =>
      rw [← Background.emitted quiet, ← Background.pausePending quiet] at ih
      exact ih

/-- Between two turns nothing changes that stops are told from. -/
theorem History.last {past : List (Turn ω)} {turn : Turn ω} (history : History host world received (past ++ [turn]) m) :
    m.state.outlook = turn.after.state.outlook ∧ m.state.phase = turn.after.state.phase := by
  generalize all : past ++ [turn] = turns at history
  induction history with
  | start => cases past <;> cases all
  | step _ step ih =>
    cases step with
    | took took =>
      cases (List.append_inj' all rfl).2
      exact ⟨rfl, rfl⟩
    | asked _ => exact ih (all.trans (List.append_nil _))
    | closed quiet | listened quiet =>
      obtain ⟨outlook, phase⟩ := ih (all.trans (List.append_nil _))
      exact ⟨(Background.outlook quiet).trans outlook, (Background.phase quiet).trans phase⟩

theorem History.unbegun (history : History host world received [] m) : m.state.pausePending = false := by
  generalize none : ([] : List (Turn ω)) = turns at history
  induction history with
  | start => rfl
  | step _ step ih =>
    cases step with
    | took took => cases (List.append_eq_nil_iff.mp none.symm).2
    | asked _ => exact ih (none.trans (List.append_nil _))
    | closed quiet | listened quiet =>
      exact (Background.pausePending quiet).trans (ih (none.trans (List.append_nil _)))

structure StopsTold (turns : List (Turn ω)) (m : Machine ω) : Prop where
  messages : m.emitted = turns.flatMap Turn.messages
  each : ∀ turn ∈ turns, (∃ line, turn.occasion = .item (.report line) ∧ DealsWith turn line) ∨
    (∀ line, turn.occasion ≠ .item (.report line)) ∧ PassesBy turn
  first : ∀ turn later, turns = turn :: later → turn.before.state.pausePending = false
  next : ∀ past turn follower later, turns = past ++ turn :: follower :: later →
    follower.before.state.pausePending = turn.after.state.pausePending ∧
      follower.before.state.stack = turn.after.state.stack ∧ follower.before.state.phase = turn.after.state.phase
  bounded : (m.emitted.filterMap Message.stop?).count .pause ≤ m.emitted.countP Message.grantsPause

/-- Every line and every request of a run keeps to the rules of stops: there is one stop for each line that is
one or that a pause waits for, for the reason that this gives, and otherwise none. -/
theorem stops_told (host : Host ω) (world : ω) (actions : List Action) :
    StopsTold ((initial host world).turns host actions) ((initial host world).run host actions) := by
  have history := run_history host world actions
  generalize (initial host world).turns host actions = turns, (initial host world).run host actions = m at *
  constructor
  case messages => exact history.told.emitted
  case each =>
    intro turn member
    obtain ⟨past, later, rfl⟩ := List.append_of_mem member
    obtain ⟨_, _, earlier, took⟩ := history.split
    by_cases heard : ∃ item, turn.occasion = .item item ∧ item.isReport = true
    · obtain ⟨item, occasion, report⟩ := heard
      obtain ⟨line, rfl⟩ := (took.sourced earlier.sourced).2 item occasion report
      exact .inl ⟨line, occasion, took.account.2.dealsWith occasion⟩
    -- what is no report of a line stops nothing
    · have unheard (item : Item) (occasion : turn.occasion = .item item) : item.isReport = false :=
        Bool.eq_false_iff.mpr fun report => heard ⟨item, occasion, report⟩
      refine .inr ⟨fun line occasion => ?_, took.account.2.passesBy unheard⟩
      exact Bool.false_ne_true ((unheard _ occasion).symm.trans (Item.isReport_report line))
  case first =>
    rintro turn later rfl
    rw [← List.nil_append (turn :: later)] at history
    obtain ⟨_, _, earlier, took⟩ := history.split
    rw [took.state]
    exact earlier.unbegun
  case next =>
    rintro past turn follower later rfl
    rw [List.append_cons] at history
    obtain ⟨_, _, earlier, took⟩ := history.split
    obtain ⟨outlook, phase⟩ := earlier.last
    rw [took.state]
    exact ⟨congrArg Outlook.pausePending outlook, congrArg Outlook.stack outlook, phase⟩
  case bounded => exact Nat.le_of_add_right_le history.balance_stops

end

end Machine

end DebugBridge.Session
