import DebugBridge.Proofs.Breakpoint.Identity
import DebugBridge.Proofs.Session.Account

/-! The ids of breakpoints in what a client is told.

An id first reaches the client in an answer to a request for breakpoints, and only then in events. When its
breakpoint is removed or replaced the client has seen the last of it. -/

set_option autoImplicit false

namespace DebugBridge.Session

open Protocol
open Breakpoint (Change Location Table)

variable {ω : Type}

def Outcome.ids (outcome : Outcome) : List Nat := outcome.installed.map Location.id

def Message.returned : Message → List Nat
  | .response _ request outcome => if verb? request = some .setBreakpoints then outcome.ids else []
  | .event _ _ => []

def Notice.cited : Notice → List Nat
  | .stopped (.breakpoint id) => [id]
  | .breakpoint _ location _ => [location.id]
  | _ => []

def Message.cited : Message → List Nat
  | .response _ _ _ => []
  | .event _ notice => notice.cited

def Message.ids : Message → List Nat
  | .response _ _ outcome => outcome.ids
  | .event _ notice => notice.cited

def Turn.Sets (turn : Turn ω) (file : String) : Prop :=
  ∃ request path wanted, turn.request? = some request ∧ verb? request = some .setBreakpoints ∧
    wanted? request = some (path, wanted) ∧ turn.before.state.resolver.toEngine path = file

/-! ## What is cited at a report -/

section

variable {s : State} {item : Item} {id : Nat}

theorem follow_changes (table : Table) (item : Item) :
    ∃ changes, item.follow table = table.changes changes ∧ table.installed changes = [] := by
  unfold Item.follow
  split
  · next file line =>
    split
    · next location cleared found => exact ⟨[.clear file line], (congrArg Prod.snd found).symm, rfl⟩
    · exact ⟨[], rfl, rfl⟩
  · next file line newLine =>
    split
    · next location moved found => exact ⟨[.move file line newLine], (congrArg Prod.snd found).symm, rfl⟩
    · exact ⟨[], rfl, rfl⟩
  · exact ⟨[], rfl, rfl⟩

theorem cited_stopReason {table : Table} {frames : List Engine.Frame}
    (cited : id ∈ (Notice.stopped (State.stopReason table frames)).cited) : ∃ file, id ∈ table.ids file := by
  unfold State.stopReason at cited
  split at cited
  · next location found =>
    rw [List.mem_singleton.mp cited]
    obtain ⟨top, -, found⟩ := Option.bind_eq_some_iff.mp found
    exact ⟨top.file, Table.mem_ids_of_find? found⟩
  · cases cited

theorem cited_notices {notice : Notice} (member : notice ∈ item.notices s) (cited : id ∈ notice.cited) :
    ∃ file, id ∈ s.breakpoints.ids file := by
  rcases List.mem_append.mp member with member | member
  · unfold Item.news at member
    split at member
    · rw [List.mem_singleton.mp member] at cited
      cases cited
    · rw [List.mem_singleton.mp member] at cited
      cases cited
    · next file line member =>
      obtain ⟨location, found, rfl⟩ := List.mem_map.mp member
      rw [List.mem_singleton.mp cited]
      exact ⟨file, Table.mem_ids_of_find? (Option.mem_toList.mp found)⟩
    · next file line newLine member =>
      obtain ⟨location, found, rfl⟩ := List.mem_map.mp member
      rw [List.mem_singleton.mp cited]
      obtain ⟨old, there, rfl⟩ := Option.map_eq_some_iff.mp (Option.mem_toList.mp found)
      have held : old.id ∈ s.breakpoints.ids file := Table.mem_ids_of_find? there
      exact ⟨file, held⟩
    · rw [List.mem_singleton.mp member] at cited
      cases cited
    · cases member
  · obtain ⟨reason, stop, rfl⟩ := List.mem_map.mp member
    have stop := Option.mem_toList.mp stop
    unfold Item.stop? at stop
    split at stop
    · cases stop
      cases cited
    · obtain ⟨frames, -, rfl⟩ := Option.map_eq_some_iff.mp stop
      exact cited_stopReason cited

/-- The engine drops the first breakpoint at a line, and nothing else is cited along with it. -/
theorem removed_notices {location : Location} {source : SourceView}
    (member : .breakpoint .removed location source ∈ item.notices s) :
    ∃ file line rest, s.breakpoints.find? file line = some location ∧
      item.follow s.breakpoints = (s.breakpoints.clearLine file line).2 ∧
      item.notices s = .breakpoint .removed location source :: rest ∧ ∀ notice ∈ rest, notice.cited = [] := by
  rcases List.mem_append.mp member with member | member
  · unfold Item.news at member
    split at member
    · cases List.mem_singleton.mp member
    · cases List.mem_singleton.mp member
    · next file line member =>
      obtain ⟨other, found, ⟨⟩⟩ := List.mem_map.mp member
      have found : s.breakpoints.find? file line = some location := Option.mem_toList.mp found
      refine ⟨file, line, ((Item.engineEvent (.breakpointCleared file line)).stop? s).toList.map .stopped, found,
        ?_, ?_, ?_⟩
      · rw [Item.follow, show s.breakpoints.clearLine file line = (_, _) from rfl, found]
      · rw [Item.notices, Item.news, show (s.breakpoints.clearLine file line).1 = _ from found]
        rfl
      · intro notice among
        obtain ⟨reason, stop, rfl⟩ := List.mem_map.mp among
        have stop := Option.mem_toList.mp stop
        unfold Item.stop? at stop
        split at stop
        · cases stop
          rfl
        · cases stop
    · obtain ⟨_, _, ⟨⟩⟩ := List.mem_map.mp member
    · cases List.mem_singleton.mp member
    · cases member
  · obtain ⟨_, _, ⟨⟩⟩ := List.mem_map.mp member

end

namespace Machine

/-! ## Turns -/

section

variable {s s' : State} {occasion : Occasion} {messages : List Message}

theorem ids_unbearing {message : Message} (unbearing : message.bears = false) : message.ids = [] := by
  cases message with
  | response _ _ outcome =>
    have none : outcome.installed = [] := by simpa [Message.bears] using unbearing
    rw [Message.ids, Outcome.ids, none]
    rfl
  | event _ notice => cases notice <;> first | rfl | cases unbearing

theorem returned_sublist (message : Message) : message.returned.Sublist message.ids := by
  cases message with
  | response _ request outcome =>
    rw [Message.returned]
    split
    · exact .refl _
    · exact List.nil_sublist _
  | event => exact List.nil_sublist _

theorem returned_unbearing (unbearing : ∀ message ∈ messages, message.bears = false) :
    messages.flatMap Message.returned = [] := by
  apply List.flatMap_eq_nil_iff.mpr
  intro message member
  exact List.sublist_nil.mp (ids_unbearing (unbearing message member) ▸ returned_sublist message)

theorem returned_events (seq : Nat) (notices : List Notice) : (events seq notices).flatMap Message.returned = [] := by
  induction notices generalizing seq with
  | nil => rfl
  | cons notice rest ih => exact ih (seq + 1)

/-- The table changes, and the ids of what is installed are returned at once. -/
theorem Account.changes (account : Account s s' occasion messages) :
    ∃ changes, s'.breakpoints = s.breakpoints.changes changes ∧
      messages.flatMap Message.returned = (s.breakpoints.installed changes).map Location.id := by
  cases account with
  | @reported item seq _ outlook _ =>
    obtain ⟨changes, same, none⟩ := follow_changes s.breakpoints item
    refine ⟨changes, (congrArg Outlook.breakpoints outlook).trans same, ?_⟩
    rw [returned_events, none]
    rfl
  | @breakpointsSet request path wanted seq verb asked outlook =>
    refine ⟨[.replace (s.resolver.toEngine path) wanted], congrArg Outlook.breakpoints outlook, ?_⟩
    rw [List.flatMap_singleton, Message.returned, if_pos verb]
    exact congrArg _ (List.append_nil _).symm
  | @paused request seq answer verb uninstalled outlook =>
    refine ⟨[], congrArg Outlook.breakpoints outlook, ?_⟩
    rw [List.flatMap_singleton, Message.returned, verb]
    rfl
  | other _ _ unbearing outlook =>
    refine ⟨[], congrArg Outlook.breakpoints outlook, ?_⟩
    rw [returned_unbearing unbearing]
    rfl

theorem Account.cited (account : Account s s' occasion messages) {message : Message} (member : message ∈ messages)
    {id : Nat} (cited : id ∈ message.cited) : ∃ file, id ∈ s.breakpoints.ids file := by
  cases account with
  | reported seq =>
    obtain ⟨_, notice, among, rfl⟩ := mem_events member
    exact cited_notices among cited
  | breakpointsSet | paused =>
    rw [List.mem_singleton.mp member] at cited
    cases cited
  | other _ _ unbearing =>
    have none := ids_unbearing (unbearing message member)
    cases message with
    | response => cases cited
    | event _ notice =>
      rw [show Message.ids (.event _ notice) = notice.cited from rfl] at none
      rw [Message.cited, none] at cited
      cases cited

theorem Account.ids (account : Account s s' occasion messages) {message : Message} (member : message ∈ messages)
    {id : Nat} (among : id ∈ message.ids) : (∃ file, id ∈ s.breakpoints.ids file) ∨ s.breakpoints.nextId ≤ id := by
  cases message with
  | event seq notice => exact .inl (account.cited member among)
  | response seq request outcome =>
    cases account with
    | reported =>
      obtain ⟨_, _, _, ⟨⟩⟩ := mem_events member
    | @breakpointsSet _ _ wanted =>
      cases List.mem_singleton.mp member
      have given : id ∈ (Table.number s.breakpoints.nextId wanted).map Location.id := among
      rw [Table.ids_number] at given
      exact .inr (List.mem_range'_1.mp given).1
    | paused _ _ _ uninstalled =>
      cases List.mem_singleton.mp member
      rw [Message.ids, Outcome.ids, uninstalled] at among
      cases among
    | other _ _ unbearing =>
      rw [ids_unbearing (unbearing _ member)] at among
      cases among

theorem Account.onlyIn (account : Account s s' occasion messages) {files : String → Prop} {id : Nat}
    (only : s.breakpoints.OnlyIn files id) : s'.breakpoints.OnlyIn files id := by
  obtain ⟨changes, same, -⟩ := account.changes
  rw [same]
  exact only.changes changes

theorem Account.numbered (account : Account s s' occasion messages) (numbered : s.breakpoints.Numbered) :
    s'.breakpoints.Numbered := by
  obtain ⟨changes, same, -⟩ := account.changes
  rw [same]
  exact numbered.changes changes

theorem Account.unmentioned (account : Account s s' occasion messages) {id : Nat} (gone : s.breakpoints.Gone id) :
    ∀ message ∈ messages, id ∉ message.ids := by
  intro message member among
  rcases account.ids member among with ⟨file, held⟩ | new
  · exact gone.2 file held
  · exact Nat.not_le.mpr gone.1 new

/-- Once a breakpoint is reported as removed it is gone, and nothing after that in the same turn cites it. -/
theorem Account.removed (account : Account s s' occasion messages) (numbered : s.breakpoints.Numbered)
    {before after : List Message} {seq : Nat} {location : Location} {source : SourceView}
    (told : messages = before ++ .event seq (.breakpoint .removed location source) :: after) :
    s'.breakpoints.Gone location.id ∧ ∀ message ∈ after, location.id ∉ message.ids := by
  have member : .event seq (.breakpoint .removed location source) ∈ messages := told ▸ List.mem_append_cons_self
  cases account with
  | @reported item first _ outlook =>
    obtain ⟨_, _, among, ⟨⟩⟩ := mem_events member
    obtain ⟨file, line, rest, found, follow, notices, uncited⟩ := removed_notices among
    have outside {message : Message} {seq : Nat} (among : message ∈ events seq rest) : message.ids = [] := by
      obtain ⟨_, notice, later, rfl⟩ := mem_events among
      exact uncited notice later
    constructor
    · rw [show s'.breakpoints = _ from congrArg Outlook.breakpoints outlook, follow]
      exact numbered.cleared found
    · rw [notices] at told
      cases before with
      | nil =>
        obtain ⟨-, rfl⟩ := List.cons.inj told
        intro message among
        rw [outside among]
        exact List.not_mem_nil
      | cons earlier before =>
        have later : .event seq (.breakpoint .removed location source) ∈ events (first + 1) rest :=
          (List.cons.inj told).2 ▸ List.mem_append_cons_self
        cases outside later
  | breakpointsSet | paused => cases List.mem_singleton.mp member
  | other _ _ unbearing => cases unbearing _ member

end

section

variable {host : Host ω} {m : Machine ω} {turn : Turn ω}

theorem Took.sets (took : Took host m turn) {file : String} (sets : turn.Sets file) :
    ∃ seq request wanted,
      turn.after.state.breakpoints = (turn.before.state.breakpoints.replace file wanted).2 ∧
      turn.messages = [.response seq request
        (.success (.breakpoints (turn.before.state.breakpoints.replace file wanted).1.installed))] := by
  obtain ⟨request, path, wanted, asked, verb, wants, rfl⟩ := sets
  obtain ⟨-, account⟩ := took.account
  have occasion := occasion_of_request asked
  generalize turn.messages = messages at *
  rw [occasion] at account
  cases account with
  | reported _ report => cases report
  | breakpointsSet seq _ wants' outlook =>
    cases wants.symm.trans wants'
    exact ⟨seq, request, wanted, congrArg Outlook.breakpoints outlook, rfl⟩
  | paused _ _ verb' => cases verb.symm.trans verb'
  | other _ unset => cases wants.symm.trans (unset request rfl verb)

end

/-! ## Runs -/

section

variable {host : Host ω} {world : ω} {m : Machine ω} {received : List Request} {turns : List (Turn ω)}

/-- The table of a session comes about by changes, and what they install is what was returned. -/
theorem History.changes (history : History host world received turns m) :
    ∃ changes, m.state.breakpoints = Table.empty.changes changes ∧
      m.emitted.flatMap Message.returned = (Table.empty.installed changes).map Location.id := by
  induction history with
  | start => exact ⟨[], rfl, rfl⟩
  | @step _ _ _ _ n n' _ step ih =>
    obtain ⟨changes, table, returned⟩ := ih
    cases step with
    | @took turn took =>
      obtain ⟨told, account⟩ := took.account
      obtain ⟨more, after, given⟩ := account.changes
      rw [took.state, table] at after given
      refine ⟨changes ++ more, ?_, ?_⟩
      · rw [after, Table.changes, Table.changes, Table.changes, List.foldl_append]
      · rw [told.emitted, took.emitted, List.flatMap_append, returned, given, Table.installed_append,
          List.map_append]
    | asked _ => exact ⟨changes, table, returned⟩
    | closed quiet | listened quiet =>
      exact ⟨changes, quiet.breakpoints.trans table, (congrArg _ quiet.emitted).trans returned⟩

theorem History.numbered (history : History host world received turns m) : m.state.breakpoints.Numbered := by
  obtain ⟨changes, same, -⟩ := history.changes
  rw [same]
  exact Table.numbered_empty.changes changes

/-- Whatever is tracked has been returned. -/
theorem History.origin (history : History host world received turns m) {file : String} {id : Nat}
    (held : id ∈ m.state.breakpoints.ids file) : ∃ message ∈ m.emitted, id ∈ message.returned := by
  obtain ⟨changes, same, returned⟩ := history.changes
  rw [same] at held
  apply List.mem_flatMap.mp
  rw [returned]
  exact (Table.identified changes).origin file id held

theorem History.onlyIn {past later : List (Turn ω)} {turn : Turn ω} {files : String → Prop} {id : Nat}
    (history : History host world received (past ++ turn :: later) m)
    (only : turn.after.state.breakpoints.OnlyIn files id) : m.state.breakpoints.OnlyIn files id :=
  history.along (P := fun s => s.breakpoints.OnlyIn files id) (fun _ _ _ before => before) only
    fun _ _ _ took before => took.account.2.onlyIn before

theorem History.unmentioned {past later : List (Turn ω)} {turn : Turn ω} {id : Nat}
    (history : History host world received (past ++ turn :: later) m) (gone : turn.after.state.breakpoints.Gone id) :
    ∀ next ∈ later, ∀ message ∈ next.messages, id ∉ message.ids := by
  intro next member
  obtain ⟨between, rest, rfl⟩ := List.append_of_mem member
  rw [← List.cons_append, ← List.append_assoc] at history
  obtain ⟨_, before, earlier, took⟩ := history.split
  have before := earlier.onlyIn gone
  rw [← took.state] at before
  exact took.account.2.unmentioned before

/-- Where a message of a run is told: in a turn, after the messages before it. -/
theorem divides_flatMap {α β : Type} {f : α → List β} {items : List α} {before after : List β} {x : β}
    (same : items.flatMap f = before ++ x :: after) :
    ∃ past item later first last, items = past ++ item :: later ∧ f item = first ++ x :: last ∧
      before = past.flatMap f ++ first ∧ after = last ++ later.flatMap f := by
  induction items generalizing before with
  | nil => cases before <;> cases same
  | cons item rest ih =>
    rw [List.flatMap_cons] at same
    rcases List.append_eq_append_iff.mp same with ⟨more, rfl, rest'⟩ | ⟨more, head, rest'⟩
    · obtain ⟨past, other, later, first, last, rfl, told, rfl, rfl⟩ := ih rest'
      exact ⟨item :: past, other, later, first, last, rfl, told, by simp, rfl⟩
    · cases more with
      | nil =>
        rw [List.append_nil] at head
        rw [← List.nil_append (x :: after)] at rest'
        obtain ⟨past, other, later, first, last, rfl, told, none, rfl⟩ := ih rest'.symm
        refine ⟨item :: past, other, later, first, last, rfl, told, ?_, rfl⟩
        rw [List.flatMap_cons, List.append_assoc, ← none, List.append_nil, head]
      | cons _ tail =>
        obtain ⟨rfl, rfl⟩ := List.cons.inj rest'
        exact ⟨[], item, rest, before, tail, rfl, head, rfl, rfl⟩

structure Cited (turns : List (Turn ω)) (m : Machine ω) : Prop where
  messages : m.emitted = turns.flatMap Turn.messages
  table : ∃ changes, m.state.breakpoints = Table.empty.changes changes ∧
    m.emitted.flatMap Message.returned = (Table.empty.installed changes).map Location.id
  returned : ∀ before message after id, m.emitted = before ++ message :: after → id ∈ message.cited →
    ∃ earlier ∈ before, id ∈ earlier.returned
  removed : ∀ before seq location source after,
    m.emitted = before ++ .event seq (.breakpoint .removed location source) :: after →
    ∀ message ∈ after, location.id ∉ message.ids
  replaced : ∀ past first between second later file id, turns = past ++ first :: (between ++ second :: later) →
    first.Sets file → second.Sets file → id ∈ first.messages.flatMap Message.returned →
    ∀ turn ∈ second :: later, ∀ message ∈ turn.messages, id ∉ message.ids

theorem History.cited (history : History host world received turns m) : Cited turns m where
  messages := history.told.emitted
  table := history.changes
  returned before message after id told cited := by
    obtain ⟨past, turn, later, first, last, rfl, within, rfl, rfl⟩ :=
      divides_flatMap (history.told.emitted.symm.trans told)
    obtain ⟨_, earlier, history, took⟩ := history.split
    have member : message ∈ turn.messages := within ▸ List.mem_append_cons_self
    obtain ⟨file, held⟩ := took.account.2.cited member cited
    rw [took.state] at held
    obtain ⟨other, among, returned⟩ := history.origin held
    rw [history.told.emitted] at among
    exact ⟨other, List.mem_append_left _ among, returned⟩
  removed before seq location source after told := by
    obtain ⟨past, turn, later, first, last, rfl, within, rfl, rfl⟩ :=
      divides_flatMap (history.told.emitted.symm.trans told)
    obtain ⟨_, earlier, before, took⟩ := history.split
    have numbered := before.numbered
    rw [← took.state] at numbered
    obtain ⟨gone, still⟩ := took.account.2.removed numbered within
    intro message member
    rcases List.mem_append.mp member with member | member
    · exact still message member
    · obtain ⟨next, among, member⟩ := List.mem_flatMap.mp member
      exact history.unmentioned gone next among message member
  replaced past first between second later file id same sets again given := by
    subst same
    obtain ⟨_, _, begun, took⟩ := history.split
    have numbered := begun.numbered
    rw [← took.state] at numbered
    obtain ⟨_, _, _, table, messages⟩ := took.sets sets
    rw [messages, List.flatMap_singleton] at given
    have only : first.after.state.breakpoints.OnlyIn (· = file) id :=
      table ▸ Table.installs_onlyIn _ numbered file _ ((returned_sublist _).subset given)
    have divided := history
    rw [← List.cons_append, ← List.append_assoc] at divided
    obtain ⟨_, _, middle, retook⟩ := divided.split
    have before := middle.onlyIn only
    rw [← retook.state] at before
    obtain ⟨_, _, wanted, table, messages⟩ := retook.sets again
    intro turn member message among
    rcases List.mem_cons.mp member with rfl | member
    · rw [messages] at among
      cases List.mem_singleton.mp among
      exact before.uninstalled file wanted
    · exact divided.unmentioned (table ▸ before.replaced wanted) turn member message among

/-- Ids are given in order and never again: not by the table, whatever happens to it, and not by a session in
what it tells its client. -/
theorem breakpoint_identity (host : Host ω) (world : ω) (actions : List Action) (changes : List Change) :
    Table.Identified changes ∧
      Cited ((initial host world).turns host actions) ((initial host world).run host actions) :=
  ⟨Table.identified changes, (run_history host world actions).cited⟩

end

end Machine

end DebugBridge.Session
