import DebugBridge.Engine.Correlator
import DebugBridge.Proofs.Entries

/-! The correlator used from several sides at once. Each tag goes through an automaton of its own, whatever
happens to other tags, so that every answer reaches the request it belongs to and nothing is left behind. What
an answer finds is settled when it takes the request, and what a wait ends with is settled before the handle is
given back: between these the two sides can miss each other. -/

set_option autoImplicit false

namespace DebugBridge.Engine.Correlator

/-! ## Slots -/

theorem keys_setSlot (tag : UInt64) (slot : Slot) (slots : List (UInt64 × Slot)) :
    (setSlot tag slot slots).map Prod.fst = slots.map Prod.fst := by
  rw [setSlot, List.map_map]
  apply List.map_congr_left
  intro entry _
  simp only [Function.comp_apply]
  split
  · next same => exact same.symm
  · rfl

theorem setSlot_setSlot (tag : UInt64) (first second : Slot) (slots : List (UInt64 × Slot)) :
    setSlot tag second (setSlot tag first slots) = setSlot tag second slots := by
  rw [setSlot, setSlot, List.map_map]
  apply List.map_congr_left
  intro entry _
  simp only [Function.comp_apply]
  split <;> simp_all

theorem advance_iff (c : Correlator) (tag : UInt64) (old new : Slot) :
    (c.advance tag old new).1 = true ↔ c.slot? tag = some old := by
  unfold advance
  split <;> simp_all

theorem lookup_setSlot (tag other : UInt64) (slot : Slot) (slots : List (UInt64 × Slot)) :
    (setSlot tag slot slots).lookup other =
      (slots.lookup other).map fun old => if other = tag then slot else old := by
  have byKey : setSlot tag slot slots =
      slots.map fun entry => (entry.1, if entry.1 = tag then slot else entry.2) := by
    apply List.map_congr_left
    intro entry _
    split
    · next same => rw [same]
    · rfl
  rw [byKey, Entries.lookup_map_value fun key old => if key = tag then slot else old]

theorem slot?_advance (c : Correlator) (tag other : UInt64) (old new : Slot) :
    (c.advance tag old new).2.slot? other =
      if other = tag ∧ c.slot? tag = some old then some new else c.slot? other := by
  unfold advance
  by_cases held : c.slot? tag = some old
  · rw [if_pos held]
    refine (lookup_setSlot tag other new c.slots).trans ?_
    by_cases same : other = tag
    · subst same
      simp [held, show c.slots.lookup other = some old from held]
    · simp [same, slot?]
  · rw [if_neg held, if_neg fun both => held both.2]

theorem advance_ignored {c : Correlator} {tag : UInt64} {old new : Slot}
    (ignored : (c.advance tag old new).1 = false) : (c.advance tag old new).2 = c := by
  unfold advance at ignored ⊢
  split at ignored
  · cases ignored
  · next elsewhere => rw [if_neg elsewhere]

theorem nextTag_advance (c : Correlator) (tag : UInt64) (old new : Slot) :
    (c.advance tag old new).2.nextTag = c.nextTag := by
  unfold advance
  split <;> rfl

def tags (c : Correlator) : List UInt64 := c.slots.map Prod.fst

theorem tags_advance (c : Correlator) (tag : UInt64) (old new : Slot) : (c.advance tag old new).2.tags = c.tags := by
  unfold advance
  split
  · exact keys_setSlot tag new c.slots
  · rfl

theorem tags_register (c : Correlator) : c.register.2.tags = c.tags ++ [c.nextTag] := List.map_append

theorem tags_forget (c : Correlator) (tag : UInt64) : (c.forget tag).tags = c.tags.filter (· != tag) := by
  rw [tags, tags, List.filter_map]
  rfl

theorem advance_advance {c : Correlator} {tag : UInt64} {old : Slot} (held : c.slot? tag = some old)
    (next new : Slot) : (c.advance tag old next).2.advance tag next new = c.advance tag old new := by
  have there : (c.advance tag old next).2.slot? tag = some next :=
    (slot?_advance c tag tag old next).trans (if_pos ⟨rfl, held⟩)
  rw [advance, if_pos there]
  simp only [advance, if_pos held, setSlot_setSlot]

theorem slot?_forget (c : Correlator) (tag other : UInt64) :
    (c.forget tag).slot? other = if other = tag then none else c.slot? other :=
  Entries.lookup_filter_key tag other c.slots

theorem slot?_enter {c : Correlator} {tag : UInt64} (fresh : c.slot? tag = none) (other : UInt64) :
    (c.enter tag).slot? other = if other = tag then some .waiting else c.slot? other := by
  simp only [slot?, enter, List.lookup_append] at *
  by_cases same : other = tag
  · subst same
    simp [fresh]
  · simp [same, Entries.lookup_cons_of_ne Slot.waiting [] same]

theorem slot?_register (c : Correlator) (tag : UInt64) (fresh : c.slot? c.nextTag = none) :
    c.register.2.slot? tag = if tag = c.nextTag then some .waiting else c.slot? tag :=
  slot?_enter (c := c.drawTag.2) fresh tag

theorem mem_pending {c : Correlator} (once : c.tags.Nodup) (tag : UInt64) :
    tag ∈ c.pending ↔ c.slot? tag = some .waiting := by
  constructor
  · intro member
    obtain ⟨⟨_, slot⟩, entry, rfl⟩ := List.mem_map.mp member
    obtain ⟨entry, waiting⟩ := List.mem_filter.mp entry
    rw [slot?, Entries.lookup_of_mem once entry]
    simpa using waiting
  · intro found
    exact List.mem_map.mpr ⟨_, List.mem_filter.mpr ⟨Entries.mem_of_lookup found, rfl⟩, rfl⟩

theorem resolve_eq (c : Correlator) (tag : UInt64) (value : String) :
    c.resolve tag value = c.advance tag .waiting (.answered value) := by
  by_cases waiting : c.slot? tag = some .waiting
  · have found : c.take tag = (true, (c.take tag).2) := Prod.ext ((c.advance_iff tag _ _).mpr waiting) rfl
    rw [resolve, found]
    exact advance_advance waiting .taken (.answered value)
  · simp [resolve, take, advance, waiting]

theorem resolve_accepted_iff (c : Correlator) (tag : UInt64) (value : String) :
    (c.resolve tag value).1 = true ↔ c.slot? tag = some .waiting := by
  rw [resolve_eq, advance_iff]

theorem slot?_resolve (c : Correlator) (tag other : UInt64) (value : String) :
    (c.resolve tag value).2.slot? other =
      if other = tag ∧ c.slot? tag = some .waiting then some (.answered value) else c.slot? other := by
  rw [resolve_eq, slot?_advance]

theorem tags_resolve (c : Correlator) (tag : UInt64) (value : String) :
    (c.resolve tag value).2.tags = c.tags ∧ (c.resolve tag value).2.nextTag = c.nextTag := by
  rw [resolve_eq]
  exact ⟨c.tags_advance _ _ _, c.nextTag_advance _ _ _⟩

theorem resolve_ignored {c : Correlator} {tag : UInt64} {value : String}
    (ignored : (c.resolve tag value).1 = false) : (c.resolve tag value).2 = c := by
  rw [resolve_eq] at ignored ⊢
  exact advance_ignored ignored

/-! ## Calls -/

/-- A call or a part of one, with its result. Parts of different calls may come in any order. An evaluation
draws a tag, enters its request and writes its command; bringing an answer takes the request and, if it was
there, delivers the value; a wait decides and then gives the handle back. -/
inductive Call where
  | draw (tag : UInt64)
  | enter (tag : UInt64)
  /-- The command was sent, or could not be, and the handle is given out. -/
  | written (tag : UInt64) (sent : Bool)
  | take (tag : UInt64) (found : Bool)
  | deliver (tag : UInt64) (value : String) (accepted : Bool)
  | decide (tag : UInt64) (answer : Option String)
  /-- The handle is given back: a wait ends, or the request is dropped without one. -/
  | release (tag : UInt64)
  deriving DecidableEq, Repr

def Call.tag : Call → UInt64
  | .draw tag | .enter tag | .written tag _ | .take tag _ | .deliver tag _ _ | .decide tag _ | .release tag => tag

def Call.drawn? : Call → Option UInt64
  | .draw tag => some tag
  | _ => none

inductive Performs (c : Correlator) : Call → Correlator → Prop where
  | draw : Performs c (.draw c.drawTag.1) c.drawTag.2
  | enter (tag : UInt64) : Performs c (.enter tag) (c.enter tag)
  | sent (tag : UInt64) : Performs c (.written tag true) c
  | unsent (tag : UInt64) : Performs c (.written tag false) (c.markUnsent tag)
  | take (tag : UInt64) : Performs c (.take tag (c.take tag).1) (c.take tag).2
  | deliver (tag : UInt64) (value : String) :
      Performs c (.deliver tag value (c.deliver tag value).1) (c.deliver tag value).2
  | decide (tag : UInt64) : Performs c (.decide tag (c.answer? tag)) c
  | release (tag : UInt64) : Performs c (.release tag) (c.forget tag)

/-! ## Histories -/

def drawn (calls : List Call) : List UInt64 := calls.filterMap Call.drawn?

def Precedes (calls : List Call) (first second : Call) : Prop := [first, second].Sublist calls

instance (calls : List Call) (first second : Call) : Decidable (Precedes calls first second) :=
  inferInstanceAs (Decidable ([first, second].Sublist calls))

def Held (calls : List Call) (tag : UInt64) : Prop :=
  (∃ sent, .written tag sent ∈ calls) ∧ .release tag ∉ calls

def BeingWritten (calls : List Call) (tag : UInt64) : Prop :=
  .enter tag ∈ calls ∧ ∀ sent, .written tag sent ∉ calls

/-- An answer came after the request was registered, whether it was accepted or not. -/
def AnsweredSince (calls : List Call) (tag : UInt64) : Prop :=
  ∃ found, Precedes calls (.enter tag) (.take tag found)

/-- Answers may come at any time, but what was taken is delivered once. A request is entered and written once,
and its handle is waited for and given back once. There are as many evaluations as tags. -/
def Permitted (past : List Call) : Call → Prop
  | .draw _ => (drawn past).length < UInt64.size
  | .enter tag => .draw tag ∈ past ∧ .enter tag ∉ past
  | .written tag _ => BeingWritten past tag
  | .take _ _ => True
  | .deliver tag _ _ => .take tag true ∈ past ∧ ∀ value accepted, .deliver tag value accepted ∉ past
  | .decide tag _ => Held past tag ∧ ∀ answer, .decide tag answer ∉ past
  | .release tag => Held past tag

inductive Run : List Call → Correlator → Prop where
  | start : Run [] .new
  | call {past : List Call} {c next : Correlator} {call : Call} : Run past c → Permitted past call →
      Performs c call next → Run (past ++ [call]) next

theorem precedes_append (calls : List Call) (call first second : Call) :
    Precedes (calls ++ [call]) first second ↔ Precedes calls first second ∨ first ∈ calls ∧ call = second := by
  unfold Precedes
  constructor
  · intro ordered
    obtain ⟨front, back, same, before, last⟩ := List.sublist_append_iff.mp ordered
    rcases List.sublist_singleton.mp last with rfl | rfl
    · rw [List.append_nil] at same
      exact .inl (same ▸ before)
    · obtain ⟨rfl, last⟩ := List.append_inj' (show [first] ++ [second] = front ++ [call] from same) rfl
      exact .inr ⟨List.singleton_sublist.mp before, (List.singleton_inj.mp last).symm⟩
  · rintro (ordered | ⟨before, rfl⟩)
    · exact ordered.trans (List.sublist_append_left _ _)
    · exact (List.singleton_sublist.mpr before).append (List.Sublist.refl [call])

theorem Precedes.first {calls : List Call} {first second : Call} (ordered : Precedes calls first second) :
    first ∈ calls := ordered.subset (by simp)

theorem Precedes.second {calls : List Call} {first second : Call} (ordered : Precedes calls first second) :
    second ∈ calls := ordered.subset (by simp)

theorem answeredSince_append (calls : List Call) (call : Call) (tag : UInt64) :
    AnsweredSince (calls ++ [call]) tag ↔
      AnsweredSince calls tag ∨ .enter tag ∈ calls ∧ ∃ found, call = .take tag found := by
  simp only [AnsweredSince, precedes_append]
  grind

theorem AnsweredSince.entered {calls : List Call} {tag : UInt64} (since : AnsweredSince calls tag) :
    .enter tag ∈ calls := since.elim fun _ ordered => ordered.first

/-! ## The automaton of a tag -/

-- The other halves leave a slot alone: a wait that is decided still has its handle.
def slotAfter : Slot → Call → Slot
  | .waiting, .written _ false => .unsent
  | .waiting, .take _ _ => .taken
  | .taken, .deliver _ value _ => .answered value
  | slot, _ => slot

inductive Ticket where
  | unissued
  | drawn
  | writing (slot : Slot)
  | held (slot : Slot)
  | released
  deriving DecidableEq, Repr

namespace Ticket

def next : Ticket → Call → Ticket
  | .unissued, .draw _ => .drawn
  | .drawn, .enter _ => .writing .waiting
  | .writing slot, .written tag sent => .held (slotAfter slot (.written tag sent))
  | .writing slot, call => .writing (slotAfter slot call)
  | .held _, .release _ => .released
  | .held slot, call => .held (slotAfter slot call)
  | ticket, _ => ticket

def step (tag : UInt64) (ticket : Ticket) (call : Call) : Ticket :=
  if call.tag = tag then ticket.next call else ticket

def after (calls : List Call) (tag : UInt64) : Ticket := calls.foldl (step tag) .unissued

def slot? : Ticket → Option Slot
  | .unissued | .drawn | .released => none
  | .writing slot | .held slot => some slot

theorem after_append (calls : List Call) (call : Call) (tag : UInt64) :
    after (calls ++ [call]) tag = step tag (after calls tag) call := by
  simp [after, List.foldl_append]

end Ticket

def SlotTells (calls : List Call) (tag : UInt64) : Slot → Prop
  | .waiting => .written tag false ∉ calls ∧ .take tag true ∉ calls ∧ ¬ AnsweredSince calls tag ∧
      ∀ value, .deliver tag value true ∉ calls
  | .taken => .take tag true ∈ calls ∧ AnsweredSince calls tag ∧ ∀ value, .deliver tag value true ∉ calls
  | .answered value => .take tag true ∈ calls ∧ AnsweredSince calls tag ∧
      ∀ other, .deliver tag other true ∈ calls ↔ other = value
  | .unsent => (∀ sent, .written tag sent ∈ calls ↔ sent = false) ∧ .take tag true ∉ calls ∧
      ∀ value, .deliver tag value true ∉ calls

def Ticket.Tells (calls : List Call) (tag : UInt64) : Ticket → Prop
  | .unissued => .draw tag ∉ calls ∧ .enter tag ∉ calls ∧ (∀ sent, .written tag sent ∉ calls) ∧
      .release tag ∉ calls ∧ .take tag true ∉ calls ∧ ∀ value, .deliver tag value true ∉ calls
  | .drawn => .draw tag ∈ calls ∧ .enter tag ∉ calls ∧ (∀ sent, .written tag sent ∉ calls) ∧
      .release tag ∉ calls ∧ .take tag true ∉ calls ∧ ∀ value, .deliver tag value true ∉ calls
  | .writing slot => .draw tag ∈ calls ∧ BeingWritten calls tag ∧ .release tag ∉ calls ∧ SlotTells calls tag slot
  | .held slot => .draw tag ∈ calls ∧ .enter tag ∈ calls ∧ Held calls tag ∧ SlotTells calls tag slot
  | .released => .draw tag ∈ calls ∧ .enter tag ∈ calls ∧ (∃ sent, .written tag sent ∈ calls) ∧
      .release tag ∈ calls

namespace Ticket.Tells

variable {calls : List Call} {tag : UInt64} {ticket : Ticket}

theorem other (told : ticket.Tells calls tag) {call : Call} (different : call.tag ≠ tag) :
    ticket.Tells (calls ++ [call]) tag := by
  have slots (slot : Slot) (told : SlotTells calls tag slot) : SlotTells (calls ++ [call]) tag slot := by
    cases slot <;> cases call <;> simp_all [SlotTells, answeredSince_append, Call.tag] <;> grind
  cases ticket with
  | writing slot | held slot =>
    have still := slots slot
    cases call <;> simp_all [Tells, Held, BeingWritten, Call.tag] <;> grind
  | _ => cases call <;> simp_all [Tells, Call.tag] <;> grind

theorem eq_unissued (told : ticket.Tells calls tag) (fresh : .draw tag ∉ calls) : ticket = .unissued := by
  cases ticket <;> simp_all [Tells]

theorem eq_drawn (told : ticket.Tells calls tag) (drawn : .draw tag ∈ calls) (fresh : .enter tag ∉ calls) :
    ticket = .drawn := by
  cases ticket <;> simp_all [Tells, BeingWritten]

theorem eq_writing (told : ticket.Tells calls tag) (writing : BeingWritten calls tag) :
    ∃ slot, ticket = .writing slot := by
  cases ticket <;> simp_all [Tells, Held, BeingWritten]

theorem eq_held (told : ticket.Tells calls tag) (held : Held calls tag) : ∃ slot, ticket = .held slot := by
  cases ticket <;> simp_all [Tells, Held, BeingWritten]

/-- A permitted call takes the ticket of its tag on, if tags are given once, a request is found just where it
waits, and a value is accepted just where its request was taken. -/
theorem own {call : Call} (told : ticket.Tells calls call.tag) (permitted : Permitted calls call)
    (fresh : ∀ tag, call = .draw tag → .draw tag ∉ calls)
    (found : ∀ tag found, call = .take tag found → (found = true ↔ ticket.slot? = some .waiting))
    (accepted : ∀ tag value accepted, call = .deliver tag value accepted →
      (accepted = true ↔ ticket.slot? = some .taken)) :
    (ticket.next call).Tells (calls ++ [call]) call.tag := by
  cases call with
  | draw tag =>
    cases told.eq_unissued (fresh tag rfl)
    simp_all [Tells, next, Call.tag]
  | enter tag =>
    cases told.eq_drawn permitted.1 permitted.2
    have never : ¬ AnsweredSince calls tag := fun since => permitted.2 since.entered
    simp_all [Tells, next, BeingWritten, SlotTells, answeredSince_append, Call.tag]
  | written tag sent =>
    -- an answer may have been taken before the command is written, so that every slot is possible here
    obtain ⟨slot, rfl⟩ := told.eq_writing permitted
    cases slot <;> cases sent <;>
      simp_all [Tells, next, slotAfter, Permitted, BeingWritten, Held, SlotTells, answeredSince_append, Call.tag]
  | take tag looked =>
    have found := found tag looked rfl
    cases ticket with
    | writing slot =>
      cases slot <;>
        simp_all [Tells, next, slotAfter, slot?, BeingWritten, SlotTells, answeredSince_append, Call.tag]
      -- a request that waits while it is written has not been answered: the other case is a command that failed
      exact told.2.1.2.1 told.2.2.2.1.1
    | held slot =>
      cases slot <;>
        simp_all [Tells, next, slotAfter, slot?, Held, SlotTells, answeredSince_append, Call.tag]
      exact told.2.2.1.1.resolve_left told.2.2.2.1
    | _ => simp_all [Tells, next, slot?, Call.tag]
  | deliver tag value taken =>
    have accepted := accepted tag value taken rfl
    cases ticket with
    | writing slot | held slot =>
      cases slot <;>
        simp_all [Tells, next, slotAfter, slot?, Permitted, BeingWritten, Held, SlotTells, answeredSince_append,
          Call.tag]
    | _ => simp_all [Tells, next, slot?, Permitted, Call.tag]
  | decide tag answer =>
    obtain ⟨slot, rfl⟩ := told.eq_held permitted.1
    cases slot <;> simpa [Tells, next, slotAfter, Held, SlotTells, answeredSince_append, Call.tag] using told
  | release tag =>
    obtain ⟨slot, rfl⟩ := told.eq_held permitted
    simp_all [Tells, next, Held, Call.tag]

theorem waiting_iff (told : ticket.Tells calls tag) :
    ticket.slot? = some .waiting ↔ (.written tag true ∈ calls ∨ BeingWritten calls tag) ∧
      .release tag ∉ calls ∧ ¬ AnsweredSince calls tag := by
  cases ticket with
  | writing slot =>
    cases slot <;> simp_all [Tells, slot?, BeingWritten, SlotTells]
    -- a command that is being written has not failed to be sent
    exact (told.2.1.2.1 told.2.2.2.1.1).elim
  | held slot =>
    cases slot <;> simp_all [Tells, slot?, Held, BeingWritten, SlotTells]
    exact .inl (told.2.2.1.1.resolve_left told.2.2.2.1)
  | _ => simp_all [Tells, slot?, BeingWritten]

theorem unfound (told : ticket.Tells calls tag) (waiting : ticket.slot? = some .waiting) :
    .take tag true ∉ calls := by
  cases ticket <;> cases waiting <;> simp_all [Tells, SlotTells]

/-- What was taken and not delivered yet can be delivered until the handle has been given back. -/
theorem taken_iff (told : ticket.Tells calls tag) (taken : .take tag true ∈ calls)
    (undelivered : ∀ value accepted, .deliver tag value accepted ∉ calls) :
    ticket.slot? = some .taken ↔ .release tag ∉ calls := by
  cases ticket with
  | writing slot | held slot => cases slot <;> simp_all [Tells, slot?, Held, SlotTells]
  | _ => simp_all [Tells, slot?]

theorem answered_iff (told : ticket.Tells calls tag) (held : Held calls tag) (value : String) :
    ticket.slot? = some (.answered value) ↔ .deliver tag value true ∈ calls := by
  obtain ⟨slot, rfl⟩ := told.eq_held held
  cases slot <;> simp_all [Tells, slot?, SlotTells]
  exact eq_comm

end Ticket.Tells

/-! ## Refinement -/

/-- The correlator is at every tag where the automaton of the tag is, and the automata know the history. -/
structure Refines (calls : List Call) (c : Correlator) : Prop where
  nextTag : c.nextTag = UInt64.ofNat (drawn calls).length
  drawn_eq : drawn calls = (List.range (drawn calls).length).map UInt64.ofNat
  slot?_eq : ∀ tag, c.slot? tag = (Ticket.after calls tag).slot?
  tells : ∀ tag, (Ticket.after calls tag).Tells calls tag
  once : c.tags.Nodup

theorem drawn_append (calls : List Call) (call : Call) :
    drawn (calls ++ [call]) = drawn calls ++ call.drawn?.toList := by
  cases h : call.drawn? <;> simp [drawn, h]

theorem mem_drawn {calls : List Call} {tag : UInt64} : tag ∈ drawn calls ↔ .draw tag ∈ calls := by
  constructor
  · intro member
    obtain ⟨call, member, found⟩ := List.mem_filterMap.mp member
    cases call <;> simp_all [Call.drawn?]
  · exact fun member => List.mem_filterMap.mpr ⟨_, member, rfl⟩

/-- As long as there are tags left, the next one has not been given. -/
theorem Refines.nextTag_fresh {calls : List Call} {c : Correlator} (refines : Refines calls c)
    (room : (drawn calls).length < UInt64.size) : .draw c.nextTag ∉ calls := by
  rw [← mem_drawn, refines.drawn_eq, refines.nextTag, List.mem_map]
  rintro ⟨earlier, below, same⟩
  have below := List.mem_range.mp below
  have same := congrArg UInt64.toNat same
  rw [UInt64.toNat_ofNat_of_lt' (Nat.lt_trans below room), UInt64.toNat_ofNat_of_lt' room] at same
  exact Nat.ne_of_lt below same

namespace Performs

variable {c next : Correlator} {past : List Call} {call : Call}

theorem nextTag (performs : Performs c call next) :
    next.nextTag = if call.drawn?.isSome then c.nextTag + 1 else c.nextTag := by
  cases performs with
  | unsent | take | deliver => exact nextTag_advance _ _ _ _
  | _ => rfl

theorem drawn? (performs : Performs c call next) : call.drawn? = none ∨ call = .draw c.nextTag := by
  cases performs with
  | draw => exact .inr rfl
  | _ => exact .inl rfl

theorem once (performs : Performs c call next) (fresh : ∀ tag, call = .enter tag → c.slot? tag = none)
    (once : c.tags.Nodup) : next.tags.Nodup := by
  cases performs with
  | enter tag =>
    simp only [Correlator.tags, Correlator.enter, List.map_append, List.map_cons, List.map_nil]
    refine once.append (List.nodup_singleton _) ?_
    rw [List.disjoint_singleton]
    intro member
    obtain ⟨entry, member, same⟩ := List.mem_map.mp member
    simpa [same] using List.lookup_eq_none_iff.mp (fresh tag rfl) entry member
  | unsent | take | deliver => exact (tags_advance c _ _ _).symm ▸ once
  | release => exact once.sublist (List.filter_sublist.map Prod.fst)
  | draw | sent | decide => exact once

/-- At the tag of a call the slot goes where the ticket goes. -/
theorem slot?_own {ticket : Ticket} (performs : Performs c call next) (permitted : Permitted past call)
    (told : ticket.Tells past call.tag) (fresh : ∀ tag, call = .draw tag → .draw tag ∉ past)
    (same : c.slot? call.tag = ticket.slot?) : next.slot? call.tag = (ticket.next call).slot? := by
  cases performs with
  | draw =>
    cases told.eq_unissued (fresh _ rfl)
    exact same
  | enter tag =>
    cases told.eq_drawn permitted.1 permitted.2
    exact (slot?_enter same tag).trans (if_pos rfl)
  | sent tag =>
    obtain ⟨slot, rfl⟩ := told.eq_writing permitted
    cases slot <;> exact same
  | unsent tag =>
    obtain ⟨slot, rfl⟩ := told.eq_writing permitted
    rw [markUnsent, slot?_advance]
    cases slot <;> simp_all [Call.tag, Ticket.slot?, Ticket.next, slotAfter]
  | take tag =>
    rw [Correlator.take, slot?_advance]
    cases ticket with
    | writing slot | held slot => cases slot <;> simp_all [Call.tag, Ticket.slot?, Ticket.next, slotAfter]
    | _ => simp_all [Call.tag, Ticket.slot?, Ticket.next]
  | deliver tag value =>
    rw [Correlator.deliver, slot?_advance]
    cases ticket with
    | writing slot | held slot => cases slot <;> simp_all [Call.tag, Ticket.slot?, Ticket.next, slotAfter]
    | _ => simp_all [Call.tag, Ticket.slot?, Ticket.next]
  | decide tag =>
    obtain ⟨slot, rfl⟩ := told.eq_held permitted.1
    cases slot <;> exact same
  | release tag =>
    obtain ⟨slot, rfl⟩ := told.eq_held permitted
    exact (slot?_forget c tag tag).trans (if_pos rfl)

theorem slot?_other {tag : UInt64} (performs : Performs c call next)
    (fresh : ∀ tag, call = .enter tag → c.slot? tag = none) (different : call.tag ≠ tag) :
    next.slot? tag = c.slot? tag := by
  have different := different.symm
  cases performs with
  | enter other => exact (slot?_enter (fresh other rfl) tag).trans (if_neg different)
  | unsent | take | deliver => exact (slot?_advance _ _ _ _ _).trans (if_neg fun both => different both.1)
  | release other => exact (slot?_forget c other tag).trans (if_neg different)
  | draw | sent | decide => rfl

end Performs

theorem refines_new : Refines [] new where
  nextTag := rfl
  drawn_eq := rfl
  slot?_eq _ := rfl
  tells _ := by simp [Ticket.after, Ticket.Tells]
  once := List.nodup_nil

namespace Refines

variable {past : List Call} {c next : Correlator} {call : Call}

theorem after_call (refines : Refines past c) (permitted : Permitted past call) (performs : Performs c call next) :
    Refines (past ++ [call]) next := by
  have fresh : ∀ tag, call = .draw tag → .draw tag ∉ past := by
    rintro tag rfl
    cases performs
    exact refines.nextTag_fresh permitted
  have empty : ∀ tag, call = .enter tag → c.slot? tag = none := by
    rintro tag rfl
    rw [refines.slot?_eq, (refines.tells tag).eq_drawn permitted.1 permitted.2, Ticket.slot?]
  have counted : (drawn (past ++ [call])).length = (drawn past).length + if call.drawn?.isSome then 1 else 0 := by
    cases drawing : call.drawn? <;> simp [drawn_append, drawing]
  constructor
  · rw [performs.nextTag, counted, refines.nextTag]
    split <;> simp
  · rw [counted]
    rcases performs.drawn? with drawing | rfl
    · simpa [drawn_append, drawing] using refines.drawn_eq
    · simp [drawn_append, Call.drawn?, List.range_succ, refines.nextTag, ← refines.drawn_eq]
  -- the one tag that a call is about goes on with its automaton; every other stands still on both sides
  · intro tag
    rw [Ticket.after_append]
    by_cases own : call.tag = tag
    · subst own
      rw [Ticket.step, if_pos rfl]
      exact performs.slot?_own permitted (refines.tells _) fresh (refines.slot?_eq _)
    · rw [Ticket.step, if_neg own, performs.slot?_other empty own, refines.slot?_eq]
  · intro tag
    rw [Ticket.after_append]
    by_cases own : call.tag = tag
    · subst own
      rw [Ticket.step, if_pos rfl]
      refine (refines.tells _).own permitted fresh ?_ ?_
      · rintro tag found rfl
        cases performs
        rw [Correlator.take, advance_iff, refines.slot?_eq]
        rfl
      · rintro tag value accepted rfl
        cases performs
        rw [Correlator.deliver, advance_iff, refines.slot?_eq]
        rfl
    · rw [Ticket.step, if_neg own]
      exact (refines.tells tag).other own
  · exact performs.once empty refines.once

theorem mem_pending_iff (refines : Refines past c) (tag : UInt64) :
    tag ∈ c.pending ↔ (.written tag true ∈ past ∨ BeingWritten past tag) ∧
      .release tag ∉ past ∧ ¬ AnsweredSince past tag := by
  rw [mem_pending refines.once, refines.slot?_eq]
  exact (refines.tells tag).waiting_iff

theorem answer_iff (refines : Refines past c) {tag : UInt64} (held : Held past tag) (value : String) :
    c.answer? tag = some value ↔ .deliver tag value true ∈ past := by
  rw [← (refines.tells tag).answered_iff held, ← refines.slot?_eq, answer?]
  rcases c.slot? tag with _ | slot
  · simp
  · cases slot <;> simp

theorem accepts_iff (refines : Refines past c) {tag : UInt64} {value : String} {accepted : Bool}
    (permitted : Permitted past (.deliver tag value accepted)) :
    (c.deliver tag value).1 = true ↔ .release tag ∉ past := by
  rw [Correlator.deliver, advance_iff, refines.slot?_eq]
  exact (refines.tells tag).taken_iff permitted.1 permitted.2

theorem slots_nil (refines : Refines past c) (released : ∀ tag, .enter tag ∈ past → .release tag ∈ past) :
    c.slots = [] := by
  rw [List.eq_nil_iff_forall_not_mem]
  rintro ⟨tag, slot⟩ member
  have found : c.slot? tag = some slot := Entries.lookup_of_mem refines.once member
  have told := refines.tells tag
  rw [refines.slot?_eq] at found
  generalize Ticket.after past tag = ticket at found told
  cases ticket with
  | unissued | drawn | released => cases found
  | writing slot => exact told.2.2.1 (released tag told.2.1.1)
  | held slot => exact told.2.2.1.2 (released tag told.2.1)

end Refines

theorem Run.refines {calls : List Call} {c : Correlator} (run : Run calls c) : Refines calls c := by
  induction run with
  | start => exact refines_new
  | call _ permitted performs ih => exact ih.after_call permitted performs

/-! ## What the calls tell -/

def Call.finds (tag : UInt64) : Call → Bool
  | .take other found => other == tag && found
  | _ => false

/-- A request is found once. -/
theorem Run.found_once {calls : List Call} {c : Correlator} (run : Run calls c) (tag : UInt64) :
    calls.countP (Call.finds tag) ≤ 1 := by
  induction run with
  | start => exact Nat.zero_le 1
  | @call past c next call run permitted performs ih =>
    rw [List.countP_append, List.countP_singleton]
    split
    · next finds =>
      -- the one before this one would have taken the request
      have none_before : past.countP (Call.finds tag) = 0 := by
        rw [List.countP_eq_zero]
        cases performs <;> simp [Call.finds] at finds
        obtain ⟨rfl, waiting⟩ := finds
        rw [Correlator.take, advance_iff, run.refines.slot?_eq] at waiting
        intro earlier member finds
        cases earlier <;> simp [Call.finds] at finds
        obtain ⟨rfl, rfl⟩ := finds
        exact (run.refines.tells _).unfound waiting member
      omega
    · exact ih

/-- A value that was brought for a request is accepted iff the handle had not been given back before. -/
theorem Run.accepted_iff {calls : List Call} {c : Correlator} (run : Run calls c) {tag : UInt64} {value : String}
    {accepted : Bool} (brought : .deliver tag value accepted ∈ calls) :
    accepted = true ↔ ¬ Precedes calls (.release tag) (.deliver tag value accepted) := by
  induction run with
  | start => cases brought
  | @call past c next call run permitted performs ih =>
    rw [precedes_append]
    by_cases last : call = .deliver tag value accepted
    · subst last
      have first : ¬ Precedes past (.release tag) (.deliver tag value accepted) := fun ordered =>
        permitted.2 value accepted ordered.second
      have decided := run.refines.accepts_iff permitted
      cases performs
      simp [decided, first]
    · have before : .deliver tag value accepted ∈ past := by simpa [Ne.symm last] using brought
      simp [ih before, last]

/-- A wait ends with the value that was accepted before it was decided, and with none if there was none. -/
theorem Run.decided_iff {calls : List Call} {c : Correlator} (run : Run calls c) {tag : UInt64}
    {answer : Option String} (decided : .decide tag answer ∈ calls) (value : String) :
    answer = some value ↔ Precedes calls (.deliver tag value true) (.decide tag answer) := by
  induction run with
  | start => cases decided
  | @call past c next call run permitted performs ih =>
    rw [precedes_append]
    by_cases last : call = .decide tag answer
    · subst last
      have first : ¬ Precedes past (.deliver tag value true) (.decide tag answer) := fun ordered =>
        permitted.2 answer ordered.second
      have found := run.refines.answer_iff permitted.1 value
      cases performs
      simp [found, first]
    · have before : .decide tag answer ∈ past := by simpa [Ne.symm last] using decided
      simp [ih before, last]

theorem precedes_or {calls : List Call} {first second : Call} (one : first ∈ calls) (other : second ∈ calls)
    (different : first ≠ second) : Precedes calls first second ∨ Precedes calls second first := by
  obtain ⟨before, after, rfl⟩ := List.append_of_mem one
  rcases List.mem_append.mp other with earlier | later
  · refine .inr ((List.singleton_sublist.mpr earlier).append (List.singleton_sublist.mpr ?_))
    exact List.mem_cons_self
  · refine .inl (List.sublist_append_of_sublist_right (.cons_cons first (List.singleton_sublist.mpr ?_)))
    exact (List.mem_cons.mp later).resolve_left different.symm

/-- A wait is decided once and a value is accepted once, so one of them comes first. -/
theorem Run.in_order {calls : List Call} {c : Correlator} (run : Run calls c) {tag : UInt64}
    {answer : Option String} {value : String}
    (late : Precedes calls (.decide tag answer) (.deliver tag value true)) :
    ¬ Precedes calls (.deliver tag value true) (.decide tag answer) := by
  induction run with
  | start => cases late
  | @call past c next call run permitted performs ih =>
    rw [precedes_append] at late ⊢
    rintro (early | ⟨delivered, rfl⟩) <;> rcases late with late | ⟨decided, same⟩
    · exact ih late early
    · exact (same ▸ permitted).2 value true early.first
    · exact permitted.2 answer late.first
    · cases same

/-- A wait tells of the value that was accepted for its request iff none is accepted once the wait is decided. -/
theorem Run.told_iff {calls : List Call} {c : Correlator} (run : Run calls c) {tag : UInt64}
    {answer : Option String} (decided : .decide tag answer ∈ calls) :
    (∀ value, answer = some value ↔ .deliver tag value true ∈ calls) ↔
      ∀ value, ¬ Precedes calls (.decide tag answer) (.deliver tag value true) := by
  constructor
  · intro told value late
    exact run.in_order late ((run.decided_iff decided value).mp ((told value).mpr late.second))
  · intro timely value
    rw [run.decided_iff decided value]
    refine ⟨Precedes.first, fun delivered => ?_⟩
    exact (precedes_or delivered decided (by simp)).resolve_right (timely value)

def settleAll (c : Correlator) : List UInt64 → List (Option String) × Correlator
  | [] => ([], c)
  | tag :: rest =>
    let (answers, last) := (c.settle tag).2.settleAll rest
    ((c.settle tag).1 :: answers, last)

theorem settleAll_answers (c : Correlator) {tags : List UInt64} (once : tags.Nodup) :
    (c.settleAll tags).1 = tags.map c.answer? := by
  induction tags generalizing c with
  | nil => rfl
  | cons tag rest ih =>
    obtain ⟨absent, once⟩ := List.nodup_cons.mp once
    have kept : ∀ other ∈ rest, (c.forget tag).answer? other = c.answer? other := by
      intro other member
      have different : other ≠ tag := fun same => absent (same ▸ member)
      simp only [answer?, slot?_forget, if_neg different]
    simp only [settleAll, settle, ih (c.forget tag) once, List.map_cons, List.map_congr_left kept]

structure Faithful (calls : List Call) (c : Correlator) : Prop where
  tags : drawn calls = (List.range (drawn calls).length).map UInt64.ofNat
  ticket : ∀ tag, c.slot? tag = (Ticket.after calls tag).slot?
  /-- What is pending was sent, or is being sent just now, and was neither given back nor answered. -/
  pending : ∀ tag, tag ∈ c.pending ↔ (.written tag true ∈ calls ∨ BeingWritten calls tag) ∧
    .release tag ∉ calls ∧ ¬ AnsweredSince calls tag
  found : ∀ tag, (c.take tag).1 = true ↔ tag ∈ c.pending
  found_once : ∀ tag, calls.countP (Call.finds tag) ≤ 1
  others : ∀ tag value other, other ≠ tag →
    (c.take tag).2.slot? other = c.slot? other ∧ (c.deliver tag value).2.slot? other = c.slot? other
  /-- A request that was found gets the value unless its handle is given back in between. -/
  accepted : ∀ tag value accepted, .deliver tag value accepted ∈ calls →
    (accepted = true ↔ ¬ Precedes calls (.release tag) (.deliver tag value accepted))
  /-- A wait ends with the value that was accepted before it was decided. -/
  answer : ∀ tag answer, .decide tag answer ∈ calls →
    ∀ value, answer = some value ↔ Precedes calls (.deliver tag value true) (.decide tag answer)
  /-- So it tells of every accepted value, unless one is accepted between its decision and its end. -/
  told : ∀ tag answer, .decide tag answer ∈ calls →
    ((∀ value, answer = some value ↔ .deliver tag value true ∈ calls) ↔
      ∀ value, ¬ Precedes calls (.decide tag answer) (.deliver tag value true))
  /-- With nothing between the halves, an answer is accepted just where its request is pending, and a wait tells
  of it. -/
  undivided : ∀ tag value, ((c.resolve tag value).1 = true ↔ tag ∈ c.pending) ∧
    (Held calls tag → ((c.settle tag).1 = some value ↔ .deliver tag value true ∈ calls))
  answers : ∀ tags : List UInt64, tags.Nodup → (c.settleAll tags).1 = tags.map fun tag => (c.settle tag).1
  emptied : (∀ tag, .enter tag ∈ calls → .release tag ∈ calls) → c.slots = [] ∧ c.pending = []

/-- Whatever is called in whatever order, as often as there are tags: answers reach their own requests, as far as
the two sides do not miss each other. -/
theorem answers_reach_requests {calls : List Call} {c : Correlator} (run : Run calls c) : Faithful calls c := by
  have refines := run.refines
  have pending (tag : UInt64) : c.slot? tag = some .waiting ↔ tag ∈ c.pending :=
    (mem_pending refines.once tag).symm
  exact {
    tags := refines.drawn_eq
    ticket := refines.slot?_eq
    pending := refines.mem_pending_iff
    found := fun tag => (advance_iff c tag _ _).trans (pending tag)
    found_once := run.found_once
    others := fun tag value other different =>
      ⟨(slot?_advance c tag other _ _).trans (if_neg fun both => different both.1),
        (slot?_advance c tag other _ _).trans (if_neg fun both => different both.1)⟩
    accepted := fun _ _ _ => run.accepted_iff
    answer := fun _ _ => run.decided_iff
    told := fun _ _ => run.told_iff
    undivided := fun tag value =>
      ⟨(resolve_accepted_iff c tag value).trans (pending tag), fun held => refines.answer_iff held value⟩
    answers := fun tags once => c.settleAll_answers once
    emptied := fun released => by
      have nothing := refines.slots_nil released
      exact ⟨nothing, by simp [Correlator.pending, nothing]⟩ }

/-- An answer that comes before its command has been written, a request that cannot be sent, and one that
still waits. -/
theorem answers_reach_requests_early :
    ∃ c, Run [.draw 0, .enter 0, .take 0 true, .deliver 0 "early" true, .written 0 true, .draw 1, .enter 1,
        .written 1 false, .draw 2, .enter 2, .written 2 true, .decide 0 (some "early"), .release 0, .release 1] c ∧
      c.pending = [2] ∧
      Faithful [.draw 0, .enter 0, .take 0 true, .deliver 0 "early" true, .written 0 true, .draw 1, .enter 1,
        .written 1 false, .draw 2, .enter 2, .written 2 true, .decide 0 (some "early"), .release 0, .release 1] c := by
  have first : Run [.draw 0, .enter 0, .take 0 true, .deliver 0 "early" true, .written 0 true]
      ⟨1, [(0, .answered "early")]⟩ :=
    ((((Run.start.call (by simp only [Permitted]; decide) .draw).call (by simp [Permitted, new, drawTag])
      (.enter 0)).call (by trivial) (.take 0)).call (by simp [Permitted, new, drawTag, take, advance, slot?, enter])
      (.deliver 0 "early")).call (by simp [Permitted, BeingWritten, new, drawTag]) (.sent 0)
  have second : Run [.draw 0, .enter 0, .take 0 true, .deliver 0 "early" true, .written 0 true, .draw 1, .enter 1,
      .written 1 false] ⟨2, [(0, .answered "early"), (1, .unsent)]⟩ :=
    ((first.call (by simp only [Permitted]; decide) .draw).call (by simp [Permitted, drawTag]) (.enter 1)).call
      (by simp [Permitted, BeingWritten, drawTag]) (.unsent 1)
  have third : Run [.draw 0, .enter 0, .take 0 true, .deliver 0 "early" true, .written 0 true, .draw 1, .enter 1,
      .written 1 false, .draw 2, .enter 2, .written 2 true]
      ⟨3, [(0, .answered "early"), (1, .unsent), (2, .waiting)]⟩ :=
    ((second.call (by simp only [Permitted]; decide) .draw).call (by simp [Permitted, drawTag]) (.enter 2)).call
      (by simp [Permitted, BeingWritten, drawTag]) (.sent 2)
  have last : Run [.draw 0, .enter 0, .take 0 true, .deliver 0 "early" true, .written 0 true, .draw 1, .enter 1,
      .written 1 false, .draw 2, .enter 2, .written 2 true, .decide 0 (some "early"), .release 0, .release 1]
      ⟨3, [(2, .waiting)]⟩ :=
    ((third.call (by simp [Permitted, Held]) (.decide 0)).call (by simp [Permitted, Held]) (.release 0)).call
      (by simp [Permitted, Held]) (.release 1)
  exact ⟨_, last, rfl, answers_reach_requests last⟩

/-- The two sides can miss each other: a value is accepted before a wait ends that knows of none, and a request
is found whose value is then not accepted. -/
theorem answers_missed :
    (¬ ∀ calls c, Run calls c → ∀ tag answer, .decide tag answer ∈ calls → .release tag ∈ calls →
      ∀ value, answer = some value ↔ Precedes calls (.deliver tag value true) (.release tag)) ∧
    ¬ ∀ calls c, Run calls c → ∀ tag value accepted, .take tag true ∈ calls →
      .deliver tag value accepted ∈ calls → accepted = true := by
  have written : Run [.draw 0, .enter 0, .written 0 true] ⟨1, [(0, .waiting)]⟩ :=
    ((Run.start.call (by simp only [Permitted]; decide) .draw).call (by simp [Permitted, new, drawTag])
      (.enter 0)).call (by simp [Permitted, BeingWritten, new, drawTag]) (.sent 0)
  have late : Run [.draw 0, .enter 0, .written 0 true, .decide 0 none, .take 0 true, .deliver 0 "late" true,
      .release 0] ⟨1, []⟩ :=
    (((written.call (by simp [Permitted, Held]) (.decide 0)).call (by trivial) (.take 0)).call
      (by simp [Permitted, take, advance, slot?]) (.deliver 0 "late")).call (by simp [Permitted, Held]) (.release 0)
  have lost : Run [.draw 0, .enter 0, .written 0 true, .take 0 true, .decide 0 none, .release 0,
      .deliver 0 "lost" false] ⟨1, []⟩ :=
    (((written.call (by trivial) (.take 0)).call (by simp [Permitted, Held]) (.decide 0)).call
      (by simp [Permitted, Held]) (.release 0)).call (by simp [Permitted, take, advance, slot?]) (.deliver 0 "lost")
  constructor
  · intro claimed
    have told := (claimed _ _ late 0 none (by simp) (by simp) "late").mpr (by decide)
    cases told
  · intro claimed
    cases claimed _ _ lost 0 "lost" false (by simp) (by simp)

end DebugBridge.Engine.Correlator
