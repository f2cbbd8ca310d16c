import DebugBridge.Proofs.Engine.Correlation
import DebugBridge.Proofs.Session.Arrival
import DebugBridge.Proofs.Session.Listening

/-! Questions put in batches, and what their answers are, read off what happened.

A batch is put in full and then waited for in full. Lines may arrive at any time in between. The answer to a question is
the first that arrived for its tag from when it was put to when the wait for it was over. -/

set_option autoImplicit false

namespace DebugBridge.Engine

def successive (tag : UInt64) : Nat → List UInt64
  | 0 => []
  | n + 1 => tag :: successive (tag + 1) n

@[simp] theorem length_successive (tag : UInt64) (n : Nat) : (successive tag n).length = n := by
  induction n generalizing tag with
  | zero => rfl
  | succ n ih => simp [successive, ih]

theorem successive_append (tag : UInt64) (first second : Nat) : successive tag (first + second) =
    successive tag first ++ successive (tag + UInt64.ofNat first) second := by
  induction first generalizing tag with
  | zero => simp [successive]
  | succ first ih => rw [Nat.succ_add, successive, ih, succ_tag, successive, List.cons_append]

theorem mem_successive {tag other : UInt64} {n : Nat} (member : other ∈ successive tag n) :
    ∃ i < n, other = tag + UInt64.ofNat i := by
  induction n generalizing tag with
  | zero => cases member
  | succ n ih =>
    rcases List.mem_cons.mp member with rfl | member
    · exact ⟨0, Nat.succ_pos n, (UInt64.add_zero _).symm⟩
    · obtain ⟨i, below, same⟩ := ih member
      exact ⟨i + 1, Nat.succ_lt_succ below, by rw [same, succ_tag]⟩

/-- Tags are used again only after all others. -/
theorem tag_ne {i j : Nat} (before : i < j) (near : j - i < UInt64.size) (tag : UInt64) :
    tag + UInt64.ofNat i ≠ tag + UInt64.ofNat j := by
  intro same
  have moved : UInt64.ofNat j = UInt64.ofNat i + UInt64.ofNat (j - i) := by
    rw [← UInt64.ofNat_add, Nat.add_sub_cancel' (Nat.le_of_lt before)]
  rw [moved, ← UInt64.add_assoc, UInt64.left_eq_add] at same
  have none := congrArg UInt64.toNat same
  rw [UInt64.toNat_ofNat_of_lt' near] at none
  exact Nat.sub_ne_zero_of_lt before none

theorem tag_not_mem {n : Nat} (few : n < UInt64.size) (tag : UInt64) : tag + UInt64.ofNat n ∉ successive tag n := by
  intro member
  obtain ⟨i, below, same⟩ := mem_successive member
  exact tag_ne below (by omega) tag same.symm

namespace Correlator

theorem slot?_of_not_mem {c : Correlator} {tag : UInt64} (unknown : tag ∉ c.tags) : c.slot? tag = none := by
  apply List.lookup_eq_none_iff.mpr
  intro entry member
  apply bne_iff_ne.mpr
  rintro rfl
  exact unknown (List.mem_map_of_mem member)

theorem slot?_register_held {c : Correlator} {tag : UInt64} {slot : Slot} (held : c.slot? tag = some slot) :
    c.register.2.slot? tag = some slot := by
  have held : c.slots.lookup tag = some slot := held
  simp [slot?, register, drawTag, enter, List.lookup_append, held]

theorem length_pending_le (c : Correlator) : c.pending.length ≤ c.tags.length := by
  simp only [pending, tags, List.length_map]
  exact List.length_filter_le _ _

end Correlator

end DebugBridge.Engine

namespace DebugBridge.Session

open Engine (Correlator successive)

/-! ## What happens to evaluations -/

namespace Happening

def follow (c : Correlator) : Happening → Correlator
  | .sent (.evaluate _ _ _) => c.register.2
  | .unwritten (.evaluate tag _ _) => c.markUnsent tag
  | .arrived line => Machine.resolvedBy c line
  | .waited tag => c.forget tag
  | _ => c

def answer? (tag : UInt64) : Happening → Option String
  | .arrived line =>
    match Engine.Event.decode line with
    | .ok (.evaluated other value) => if other = tag then some value else none
    | _ => none
  | _ => none

/-- What settles a question: an answer, or that it could not be written, which leaves it without one. -/
def settles? (tag : UInt64) : Happening → Option (Option String)
  | .unwritten (.evaluate other _ _) => if other = tag then some none else none
  | h => (h.answer? tag).map some

end Happening

/-- The first answer among what happened, if the question could be written. -/
def firstAnswer (tag : UInt64) (happened : List Happening) : Option String :=
  (happened.findSome? (Happening.settles? tag)).join

def through (c : Correlator) (happened : List Happening) : Correlator := happened.foldl Happening.follow c

def answers (c : Correlator) : List Happening → List (Option String)
  | [] => []
  | .waited tag :: later => c.answer? tag :: answers (c.forget tag) later
  | other :: later => answers (other.follow c) later

section

variable {c : Correlator} {tag : UInt64} {happened : List Happening}

@[simp] theorem through_nil (c : Correlator) : through c [] = c := rfl

@[simp] theorem through_cons (c : Correlator) (first : Happening) (later : List Happening) :
    through c (first :: later) = through (first.follow c) later := rfl

theorem through_append (c : Correlator) (first second : List Happening) :
    through c (first ++ second) = through (through c first) second := List.foldl_append

theorem answers_append (c : Correlator) (first second : List Happening) :
    answers c (first ++ second) = answers c first ++ answers (through c first) second := by
  induction first generalizing c with
  | nil => rfl
  | cons h first ih =>
    cases h with
    | waited tag => exact congrArg (c.answer? tag :: ·) (ih _)
    | _ => exact ih _

theorem answers_waited (c : Correlator) (past : List Happening) (tag : UInt64) (later : List Happening) :
    (answers c (past ++ .waited tag :: later))[(answers c past).length]? = some ((through c past).answer? tag) := by
  rw [answers_append]
  simp [answers]

theorem answers_unwaited (unwaited : ∀ tag, .waited tag ∉ happened) (c : Correlator) : answers c happened = [] := by
  induction happened generalizing c with
  | nil => rfl
  | cons h later ih =>
    have rest := ih fun tag member => unwaited tag (List.mem_cons_of_mem _ member)
    cases h with
    | waited tag => exact absurd List.mem_cons_self (unwaited tag)
    | _ => exact rest _

theorem tags_resolvedBy (c : Correlator) (line : String) :
    (Machine.resolvedBy c line).tags = c.tags ∧ (Machine.resolvedBy c line).nextTag = c.nextTag := by
  unfold Machine.resolvedBy
  split
  · exact c.tags_resolve _ _
  · exact ⟨rfl, rfl⟩

def heldSlot : Option (Option String) → Engine.Slot
  | none => .waiting
  | some none => .unsent
  | some (some value) => .answered value

theorem slot?_resolvedBy (line : String) (held : c.slot? tag = some .waiting) :
    (Machine.resolvedBy c line).slot? tag = some (heldSlot ((Happening.arrived line).settles? tag)) := by
  simp only [Machine.resolvedBy, Happening.settles?, Happening.answer?]
  cases Engine.Event.decode line with
  | error fault => exact held
  | ok event =>
    cases event with
    | evaluated other value =>
      simp only [Correlator.slot?_resolve]
      by_cases same : other = tag
      · subst same
        simp [held, heldSlot]
      · simp [held, same, Ne.symm same, heldSlot]
    | _ => exact held

theorem slot?_follow_waiting {h : Happening} (held : c.slot? tag = some .waiting) (unwaited : h ≠ .waited tag) :
    (h.follow c).slot? tag = some (heldSlot (h.settles? tag)) := by
  cases h with
  | sent command =>
    cases command with
    | evaluate => exact Correlator.slot?_register_held held
    | _ => exact held
  | unwritten command =>
    cases command with
    | evaluate other frame expression =>
      rw [Happening.follow, Correlator.markUnsent, Correlator.slot?_advance, Happening.settles?]
      by_cases same : other = tag
      · subst same
        simp [held, heldSlot]
      · simp [held, same, Ne.symm same, heldSlot]
    | _ => exact held
  | arrived line => exact slot?_resolvedBy line held
  | waited other =>
    rw [Happening.follow, Correlator.slot?_forget, if_neg]
    · exact held
    · rintro rfl
      exact unwaited rfl
  | _ => exact held

/-- Once a question is settled, nothing but the end of the wait for it changes what is held for it. -/
theorem slot?_follow_settled {slot : Engine.Slot} {h : Happening} (held : c.slot? tag = some slot)
    (settled : slot ≠ .waiting) (unwaited : h ≠ .waited tag) : (h.follow c).slot? tag = some slot := by
  cases h with
  | sent command =>
    cases command with
    | evaluate => exact Correlator.slot?_register_held held
    | _ => exact held
  | unwritten command =>
    cases command with
    | evaluate other frame expression =>
      rw [Happening.follow, Correlator.markUnsent, Correlator.slot?_advance, if_neg, held]
      rintro ⟨rfl, waiting⟩
      exact settled (Option.some.inj (held.symm.trans waiting))
    | _ => exact held
  | arrived line =>
    simp only [Happening.follow, Machine.resolvedBy]
    split
    · rw [Correlator.slot?_resolve, if_neg, held]
      rintro ⟨rfl, waiting⟩
      exact settled (Option.some.inj (held.symm.trans waiting))
    · exact held
  | waited other =>
    rw [Happening.follow, Correlator.slot?_forget, if_neg, held]
    rintro rfl
    exact unwaited rfl
  | _ => exact held

theorem slot?_through_settled {slot : Engine.Slot} (held : c.slot? tag = some slot) (settled : slot ≠ .waiting)
    (unwaited : .waited tag ∉ happened) : (through c happened).slot? tag = some slot := by
  induction happened generalizing c with
  | nil => exact held
  | cons h later ih =>
    rw [List.mem_cons, not_or] at unwaited
    exact ih (slot?_follow_settled held settled (Ne.symm unwaited.1)) unwaited.2

/-- A question that waits holds what settles it first, and keeps it. -/
theorem slot?_through_waiting (held : c.slot? tag = some .waiting) (unwaited : .waited tag ∉ happened) :
    (through c happened).slot? tag = some (heldSlot (happened.findSome? (Happening.settles? tag))) := by
  induction happened generalizing c with
  | nil => exact held
  | cons h later ih =>
    rw [List.mem_cons, not_or] at unwaited
    have next := slot?_follow_waiting held (Ne.symm unwaited.1)
    rw [List.findSome?_cons]
    cases settled : h.settles? tag with
    | none =>
      rw [settled] at next
      exact ih next unwaited.2
    | some reply =>
      rw [settled] at next
      refine slot?_through_settled (c := h.follow c) next ?_ unwaited.2
      cases reply <;> exact Engine.Slot.noConfusion

theorem answer?_through (held : c.slot? tag = some .waiting) (unwaited : .waited tag ∉ happened) :
    (through c happened).answer? tag = firstAnswer tag happened := by
  rw [Correlator.answer?, slot?_through_waiting held unwaited, firstAnswer]
  rcases happened.findSome? (Happening.settles? tag) with _ | _ | value <;> rfl

theorem tags_unwritten (c : Correlator) (command : Engine.Command) :
    ((Happening.unwritten command).follow c).tags = c.tags ∧
      ((Happening.unwritten command).follow c).nextTag = c.nextTag := by
  cases command with
  | evaluate => exact ⟨Correlator.tags_advance _ _ _ _, Correlator.nextTag_advance _ _ _ _⟩
  | _ => exact ⟨rfl, rfl⟩

theorem length_tags_follow (c : Correlator) (h : Happening) :
    (h.follow c).tags.length ≤ c.tags.length + if h.isDeed then 1 else 0 := by
  cases h with
  | sent command =>
    cases command with
    | evaluate =>
      rw [Happening.follow, Correlator.tags_register, List.length_append]
      exact Nat.le_refl _
    | _ => exact Nat.le_add_right _ _
  | unwritten command =>
    rw [(tags_unwritten c command).1]
    exact Nat.le_add_right _ _
  | arrived line =>
    rw [Happening.follow, (tags_resolvedBy c line).1]
    exact Nat.le_add_right _ _
  | waited tag =>
    rw [Happening.follow, Correlator.tags_forget]
    exact Nat.le_add_right_of_le (List.length_filter_le _ _)
  | _ => exact Nat.le_add_right _ _

/-- With each question that is put there is at most one more tag outstanding. -/
theorem length_tags_through (c : Correlator) (happened : List Happening) :
    (through c happened).tags.length ≤ c.tags.length + (happened.filter Happening.isDeed).length := by
  induction happened generalizing c with
  | nil => exact Nat.le_refl _
  | cons h later ih =>
    have next := length_tags_follow c h
    have rest := ih (h.follow c)
    rw [through_cons, List.filter_cons]
    cases deed : h.isDeed with
    | true =>
      simp only [deed, if_true, List.length_cons] at next ⊢
      omega
    | false =>
      simp only [deed, Bool.false_eq_true, if_false] at next ⊢
      omega

end

/-! ## Batches -/

/-- What comes of handing a command over: lines that arrive, or that it cannot be written. -/
inductive Meanwhile (command : Engine.Command) : List Happening → Prop where
  | arrived (lines : List String) : Meanwhile command (lines.map .arrived)
  | unwritten : Meanwhile command [.unwritten command]

inductive Asking (frame : Nat) : UInt64 → List String → List Happening → Prop where
  | done (tag : UInt64) : Asking frame tag [] []
  | ask {tag : UInt64} {name : String} {rest : List String} {between later : List Happening} :
      Meanwhile (.evaluate tag frame name) between → Asking frame (tag + 1) rest later →
      Asking frame tag (name :: rest) (.sent (.evaluate tag frame name) :: (between ++ later))

inductive Awaiting : List UInt64 → List Happening → Prop where
  | done : Awaiting [] []
  | wait {tag : UInt64} {rest : List UInt64} {later : List Happening} (lines : List String) :
      Awaiting rest later → Awaiting (tag :: rest) (lines.map .arrived ++ .waited tag :: later)

inductive Fetching (frame : Nat) : UInt64 → List String → List Happening → Prop where
  | done (tag : UInt64) : Fetching frame tag [] []
  | batch {tag : UInt64} {names rest : List String} {asked awaited later : List Happening} :
      names.length ≤ Machine.evaluationsInFlight → Asking frame tag names asked →
      Awaiting (successive tag names.length) awaited →
      Fetching frame (tag + UInt64.ofNat names.length) rest later →
      Fetching frame tag (names ++ rest) (asked ++ (awaited ++ later))

section

variable {c : Correlator} {tag : UInt64} {frame : Nat} {names : List String} {tags : List UInt64}
variable {happened : List Happening}

theorem through_arrived (c : Correlator) (lines : List String) :
    (through c (lines.map .arrived)).tags = c.tags ∧ (through c (lines.map .arrived)).nextTag = c.nextTag := by
  induction lines generalizing c with
  | nil => exact ⟨rfl, rfl⟩
  | cons line rest ih =>
    have next := tags_resolvedBy c line
    exact ⟨(ih _).1.trans next.1, (ih _).2.trans next.2⟩

theorem not_waited_arrived (lines : List String) (tag : UInt64) : .waited tag ∉ lines.map Happening.arrived := by
  simp

theorem deeds_arrived (lines : List String) : (lines.map Happening.arrived).filter Happening.isDeed = [] := by
  simp [Happening.isDeed]

theorem Meanwhile.through {command : Engine.Command} (meanwhile : Meanwhile command happened) (c : Correlator) :
    (Session.through c happened).tags = c.tags ∧ (Session.through c happened).nextTag = c.nextTag := by
  cases meanwhile with
  | arrived lines => exact through_arrived c lines
  | unwritten => exact tags_unwritten c command

theorem Meanwhile.unwaited {command : Engine.Command} (meanwhile : Meanwhile command happened) (tag : UInt64) :
    .waited tag ∉ happened := by
  cases meanwhile <;> simp

theorem Meanwhile.deeds {command : Engine.Command} (meanwhile : Meanwhile command happened) :
    happened.filter Happening.isDeed = [] := by
  cases meanwhile with
  | arrived lines => exact deeds_arrived lines
  | unwritten => rfl

theorem Asking.split {earlier later : List String} (asking : Asking frame tag (earlier ++ later) happened) :
    ∃ first second, happened = first ++ second ∧ Asking frame tag earlier first ∧
      Asking frame (tag + UInt64.ofNat earlier.length) later second := by
  induction earlier generalizing tag happened with
  | nil => exact ⟨[], happened, rfl, .done tag, by simpa using asking⟩
  | cons name rest ih =>
    cases asking with
    | @ask _ _ _ between _ meanwhile asking =>
      obtain ⟨first, second, rfl, before, after⟩ := ih asking
      refine ⟨.sent (.evaluate tag frame name) :: (between ++ first), second, by simp, .ask meanwhile before, ?_⟩
      rwa [List.length_cons, ← Engine.succ_tag]

theorem Asking.unwaited (asking : Asking frame tag names happened) (other : UInt64) : .waited other ∉ happened := by
  induction asking with
  | done => exact List.not_mem_nil
  | ask meanwhile asking ih => simp [ih, meanwhile.unwaited]

theorem Asking.deeds (asking : Asking frame tag names happened) :
    happened.filter Happening.isDeed = (Engine.inquiries tag frame names).map .sent := by
  induction asking with
  | done => rfl
  | ask meanwhile asking ih =>
    rw [List.filter_cons_of_pos rfl, List.filter_append, meanwhile.deeds, ih]
    rfl

theorem Asking.outstanding (asking : Asking frame tag names happened) (next : c.nextTag = tag) :
    (through c happened).tags = c.tags ++ successive tag names.length ∧
      (through c happened).nextTag = tag + UInt64.ofNat names.length := by
  induction asking generalizing c with
  | done => exact ⟨(List.append_nil _).symm, next.trans (UInt64.add_zero _).symm⟩
  | @ask tag name rest between later meanwhile asking ih =>
    subst next
    obtain ⟨heard, still⟩ := meanwhile.through c.register.2
    obtain ⟨outstanding, after⟩ := ih (c := through c.register.2 between) still
    rw [through_cons, through_append, List.length_cons, ← Engine.succ_tag]
    refine ⟨?_, after⟩
    rw [heard, c.tags_register, List.append_assoc] at outstanding
    exact outstanding

theorem Awaiting.split {earlier later : List UInt64} (awaiting : Awaiting (earlier ++ later) happened) :
    ∃ first second, happened = first ++ second ∧ Awaiting earlier first ∧ Awaiting later second := by
  induction earlier generalizing happened with
  | nil => exact ⟨[], happened, rfl, .done, awaiting⟩
  | cons tag rest ih =>
    cases awaiting with
    | wait lines awaiting =>
      obtain ⟨first, second, rfl, before, after⟩ := ih awaiting
      exact ⟨lines.map .arrived ++ .waited tag :: first, second, by simp, .wait lines before, after⟩

theorem Awaiting.mem (awaiting : Awaiting tags happened) (waited : .waited tag ∈ happened) : tag ∈ tags := by
  induction awaiting with
  | done => cases waited
  | wait lines awaiting ih => simp_all; tauto

theorem Awaiting.deeds (awaiting : Awaiting tags happened) : happened.filter Happening.isDeed = [] := by
  induction awaiting with
  | done => rfl
  | wait lines awaiting ih =>
    rw [List.filter_append, deeds_arrived, List.filter_cons_of_neg (by simp [Happening.isDeed]), ih]
    rfl

theorem Awaiting.length_answers (awaiting : Awaiting tags happened) (c : Correlator) :
    (answers c happened).length = tags.length := by
  induction awaiting generalizing c with
  | done => rfl
  | @wait tag rest later lines awaiting ih =>
    rw [answers_append, answers_unwaited (fun tag => not_waited_arrived lines tag)]
    exact congrArg (· + 1) (ih _)

theorem Awaiting.nextTag (awaiting : Awaiting tags happened) (c : Correlator) :
    (through c happened).nextTag = c.nextTag := by
  induction awaiting generalizing c with
  | done => rfl
  | @wait tag rest later lines awaiting ih =>
    rw [through_append, through_cons]
    exact (ih _).trans (through_arrived c lines).2

theorem Awaiting.clear (awaiting : Awaiting tags happened) (all : ∀ tag ∈ c.tags, tag ∈ tags) :
    (through c happened).tags = [] := by
  induction awaiting generalizing c with
  | done => exact List.eq_nil_iff_forall_not_mem.mpr fun tag member => List.not_mem_nil (all tag member)
  | @wait tag rest later lines awaiting ih =>
    rw [through_append, through_cons]
    apply ih
    intro other member
    rw [Happening.follow, Correlator.tags_forget, (through_arrived c lines).1, List.mem_filter, bne_iff_ne] at member
    exact (List.mem_cons.mp (all other member.1)).resolve_left member.2

end

/-- A question is put when some things are past, and when others have happened in between the wait for it is over. -/
structure Puts (happened : List Happening) (tag : UInt64) (frame : Nat) (name : String)
    (past between : List Happening) : Prop where
  put : ∃ later, happened = past ++ .sent (.evaluate tag frame name) :: (between ++ .waited tag :: later)
  unwaited : .waited tag ∉ between

section

variable {c : Correlator} {tag : UInt64} {frame : Nat} {names earlier later : List String} {name : String}
variable {asked awaited happened : List Happening}

/-- Each question of a batch is answered by the first answer to it. -/
theorem batch_question (few : names.length ≤ Machine.evaluationsInFlight) (asking : Asking frame tag names asked)
    (awaiting : Awaiting (successive tag names.length) awaited) (clear : c.tags = []) (next : c.nextTag = tag)
    (split : names = earlier ++ name :: later) :
    ∃ past between, Puts (asked ++ awaited) (tag + UInt64.ofNat earlier.length) frame name past between ∧
      past.filter Happening.isDeed = (Engine.inquiries tag frame earlier).map .sent ∧
      (answers c (asked ++ awaited))[earlier.length]? =
        some (firstAnswer (tag + UInt64.ofNat earlier.length) between) := by
  subst split
  have few : earlier.length < UInt64.size := by
    have size : UInt64.size = 18446744073709551616 := rfl
    simp only [Machine.evaluationsInFlight, List.length_append, List.length_cons] at few
    omega
  have fresh := Engine.tag_not_mem few tag
  obtain ⟨first, second, rfl, before, after⟩ := asking.split
  have placed := before.outstanding next
  rw [List.length_append, Engine.successive_append, List.length_cons, successive] at awaiting
  obtain ⟨waits, rest, rfl, passed, here⟩ := awaiting.split
  generalize tag + UInt64.ofNat earlier.length = own at *
  cases after with
  | @ask _ _ _ meanwhile others happens going =>
  cases here with
  | @wait _ _ last heard waiting =>
    have unwaited : .waited own ∉ meanwhile ++ others ++ (waits ++ heard.map .arrived) := by
      simp only [List.mem_append, not_or]
      exact ⟨⟨happens.unwaited own, going.unwaited own⟩, fun waited => fresh (passed.mem waited),
        not_waited_arrived heard own⟩
    refine ⟨first, meanwhile ++ others ++ (waits ++ heard.map .arrived), ⟨⟨last, by simp⟩, unwaited⟩,
      before.deeds, ?_⟩
    have held : (through c (first ++ [.sent (.evaluate own frame name)])).slot? own = some .waiting := by
      have free : (through c first).slot? own = none := Correlator.slot?_of_not_mem (by simpa [placed.1, clear])
      rw [through_append, through_cons, through_nil, Happening.follow, Correlator.slot?_register, if_pos placed.2.symm]
      rwa [placed.2]
    -- by then as many waits are over as there were questions before this one
    have unwaitedYet : ∀ other, .waited other ∉ first ++ .sent (.evaluate own frame name) ::
        (meanwhile ++ others) := by
      intro other
      simp [before.unwaited other, happens.unwaited other, going.unwaited other]
    have count : (answers c (first ++ .sent (.evaluate own frame name) :: (meanwhile ++ others) ++
        (waits ++ heard.map .arrived))).length = earlier.length := by
      rw [answers_append, answers_append _ waits, answers_unwaited unwaitedYet,
        answers_unwaited (not_waited_arrived heard), List.nil_append, List.append_nil, passed.length_answers,
        Engine.length_successive]
    have reply := answers_waited c (first ++ .sent (.evaluate own frame name) :: (meanwhile ++ others) ++
        (waits ++ heard.map .arrived)) own last
    rw [count] at reply
    have answer := answer?_through held unwaited
    rw [← through_append] at answer
    simp only [List.append_assoc, List.cons_append, List.nil_append] at reply answer ⊢
    rw [reply, answer]

theorem Puts.append {past between : List Happening} (puts : Puts happened tag frame name past between)
    (more : List Happening) : Puts (happened ++ more) tag frame name past between := by
  obtain ⟨⟨later, rfl⟩, unwaited⟩ := puts
  exact ⟨⟨later ++ more, by simp⟩, unwaited⟩

theorem Puts.after {past between : List Happening} (puts : Puts happened tag frame name past between)
    (before : List Happening) : Puts (before ++ happened) tag frame name (before ++ past) between := by
  obtain ⟨⟨later, rfl⟩, unwaited⟩ := puts
  exact ⟨⟨later, by simp⟩, unwaited⟩

theorem Fetching.length_answers (fetching : Fetching frame tag names happened) (c : Correlator) :
    (answers c happened).length = names.length := by
  induction fetching generalizing c with
  | done => rfl
  | batch few asking awaiting fetching ih =>
    rw [answers_append, answers_append, answers_unwaited asking.unwaited, List.nil_append, List.length_append,
      awaiting.length_answers, Engine.length_successive, ih, List.length_append]

theorem batch_clear (asking : Asking frame tag names asked) (awaiting : Awaiting (successive tag names.length) awaited)
    (clear : c.tags = []) (next : c.nextTag = tag) :
    (through c (asked ++ awaited)).tags = [] ∧
      (through c (asked ++ awaited)).nextTag = tag + UInt64.ofNat names.length := by
  obtain ⟨outstanding, after⟩ := asking.outstanding next
  rw [clear, List.nil_append] at outstanding
  rw [through_append]
  exact ⟨awaiting.clear fun tag member => outstanding ▸ member, (awaiting.nextTag _).trans after⟩

theorem Fetching.deeds (fetching : Fetching frame tag names happened) :
    happened.filter Happening.isDeed = (Engine.inquiries tag frame names).map .sent := by
  induction fetching with
  | done => rfl
  | batch few asking awaiting fetching ih =>
    rw [List.filter_append, List.filter_append, asking.deeds, awaiting.deeds, ih, List.nil_append,
      Engine.inquiries_append, List.map_append]

theorem Fetching.clear (fetching : Fetching frame tag names happened) (clear : c.tags = []) (next : c.nextTag = tag) :
    (through c happened).tags = [] := by
  induction fetching generalizing c with
  | done => exact clear
  | batch few asking awaiting fetching ih =>
    obtain ⟨cleared, after⟩ := batch_clear asking awaiting clear next
    rw [← List.append_assoc, through_append]
    exact ih cleared after

theorem Fetching.question (fetching : Fetching frame tag names happened) (clear : c.tags = []) (next : c.nextTag = tag)
    (split : names = earlier ++ name :: later) :
    ∃ past between, Puts happened (tag + UInt64.ofNat earlier.length) frame name past between ∧
      past.filter Happening.isDeed = (Engine.inquiries tag frame earlier).map .sent ∧
      (answers c happened)[earlier.length]? = some (firstAnswer (tag + UInt64.ofNat earlier.length) between) := by
  induction fetching generalizing c earlier with
  | done => simp at split
  | @batch tag names rest asked awaited more few asking awaiting fetching ih =>
    obtain ⟨cleared, after⟩ := batch_clear asking awaiting clear next
    have length : (answers c (asked ++ awaited)).length = names.length := by
      rw [answers_append, answers_unwaited asking.unwaited, List.nil_append, awaiting.length_answers,
        Engine.length_successive]
    rw [← List.append_assoc, answers_append]
    -- a question of a later batch: what went before it is this batch and some of the later ones
    have beyond (between : List String) (first : earlier = names ++ between)
        (second : rest = between ++ name :: later) :
        ∃ past between, Puts (asked ++ awaited ++ more) (tag + UInt64.ofNat earlier.length) frame name past between ∧
          past.filter Happening.isDeed = (Engine.inquiries tag frame earlier).map .sent ∧
          (answers c (asked ++ awaited) ++ answers (through c (asked ++ awaited)) more)[earlier.length]? =
            some (firstAnswer (tag + UInt64.ofNat earlier.length) between) := by
      obtain ⟨past, between, puts, deeds, answer⟩ := ih cleared after second
      subst first
      rw [UInt64.add_assoc, ← UInt64.ofNat_add] at puts answer
      rw [List.length_append]
      refine ⟨asked ++ awaited ++ past, between, puts.after _, ?_, ?_⟩
      · rw [List.filter_append, List.filter_append, asking.deeds, awaiting.deeds, deeds, List.append_nil,
          Engine.inquiries_append, List.map_append]
      · rw [List.getElem?_append_right (by omega), length, Nat.add_sub_cancel_left, answer]
    rcases List.append_eq_append_iff.mp split with ⟨between, first, second⟩ | ⟨inside, first, second⟩
    · exact beyond between first second
    -- the list may be split right where the batch ends; then the question is the first of the next one
    cases inside with
    | nil => exact beyond [] (by simpa using first.symm) second.symm
    | cons same inside =>
      obtain ⟨rfl, -⟩ := List.cons.inj second
      obtain ⟨past, between, puts, deeds, answer⟩ := batch_question few asking awaiting clear next first
      refine ⟨past, between, puts.append more, deeds, ?_⟩
      rw [List.getElem?_append_left, answer]
      simp [length, first]

/-- No more questions are open than are put in a batch. -/
theorem Fetching.pending (fetching : Fetching frame tag names happened) (clear : c.tags = []) (next : c.nextTag = tag)
    {past : List Happening} (begins : past <+: happened) :
    (through c past).pending.length ≤ Machine.evaluationsInFlight := by
  induction fetching generalizing c past with
  | done =>
    rw [List.prefix_nil.mp begins, through_nil]
    have none := c.length_pending_le
    rw [clear] at none
    exact Nat.le_trans none (Nat.zero_le _)
  | @batch tag names rest asked awaited more few asking awaiting fetching ih =>
    obtain ⟨cleared, after⟩ := batch_clear asking awaiting clear next
    rw [← List.append_assoc] at begins
    rcases List.prefix_or_prefix_of_prefix begins (List.prefix_append _ _) with within | ⟨beyond, rfl⟩
    · have most := length_tags_through c past
      have said := (within.sublist.filter Happening.isDeed).length_le
      rw [List.filter_append, asking.deeds, awaiting.deeds, List.append_nil, List.length_map,
        Engine.length_inquiries] at said
      have pending := (through c past).length_pending_le
      rw [clear, List.length_nil] at most
      omega
    · rw [through_append]
      exact ih cleared after ((List.prefix_append_right_inj _).mp begins)

end

end DebugBridge.Session
