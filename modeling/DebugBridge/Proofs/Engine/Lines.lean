import DebugBridge.Engine.LineBuffer
import Mathlib.Data.List.Infix

/-! The lines of a stream of octets: what stands before each CR LF. They depend on the stream alone, not on the
pieces in which it arrives. -/

set_option autoImplicit false

namespace DebugBridge.Engine.LineBuffer

def lineEnd : List UInt8 := [0x0D, 0x0A]

/-- A stream is its lines, each with its end, and a rest that no end has followed yet. -/
structure Divides (stream : List UInt8) (lines : List (List UInt8)) (rest : List UInt8) : Prop where
  whole : stream = lines.flatMap (· ++ lineEnd) ++ rest
  unbroken : ∀ line ∈ lines, ¬ lineEnd <:+: line
  unfinished : ¬ lineEnd <:+: rest

/-! ## The first line -/

theorem lineEnd_infix_cons {octet : UInt8} {rest : List UInt8} :
    lineEnd <:+: octet :: rest ↔ (octet = 0x0D ∧ rest.head? = some 0x0A) ∨ lineEnd <:+: rest := by
  rw [List.infix_cons_iff, lineEnd, List.cons_prefix_cons]
  cases rest with
  | nil => simp
  | cons next rest => simp [eq_comm]

theorem splitLine_cons {octet : UInt8} {rest : List UInt8} (goesOn : ¬ (octet = 0x0D ∧ rest.head? = some 0x0A)) :
    splitLine (octet :: rest) = (splitLine rest).map fun (line, after) => (octet :: line, after) := by
  rw [splitLine.eq_def]
  split
  · simp_all
  · simp_all
  · next same =>
    obtain ⟨rfl, rfl⟩ := List.cons.inj same
    rfl

theorem splitLine_eq_none_iff {octets : List UInt8} : splitLine octets = none ↔ ¬ lineEnd <:+: octets := by
  induction octets with
  | nil => simp [splitLine, lineEnd]
  | cons octet rest ih =>
    rw [lineEnd_infix_cons, not_or]
    by_cases ends : octet = 0x0D ∧ rest.head? = some 0x0A
    · obtain ⟨rfl, next⟩ := ends
      cases rest with
      | nil => cases next
      | cons next rest =>
        obtain rfl := Option.some.inj next
        simp [splitLine]
    · rw [splitLine_cons ends, Option.map_eq_none_iff, ih]
      exact ⟨fun none => ⟨ends, none⟩, And.right⟩

/-- A line ends at the first CR LF, also where its last octet is a CR itself. -/
theorem splitLine_line {line : List UInt8} (unbroken : ¬ lineEnd <:+: line) (after : List UInt8) :
    splitLine (line ++ lineEnd ++ after) = some (line, after) := by
  induction line with
  | nil => rfl
  | cons octet line ih =>
    rw [lineEnd_infix_cons, not_or] at unbroken
    have goesOn : ¬ (octet = 0x0D ∧ (line ++ lineEnd ++ after).head? = some 0x0A) := by
      cases line with
      | nil => exact fun ends => absurd ends.2 (by simp [lineEnd])
      | cons next line => exact unbroken.1
    rw [List.cons_append, List.cons_append, splitLine_cons goesOn, ih unbroken.2]
    rfl

theorem splitLine_unbroken {octets line after : List UInt8} (found : splitLine octets = some (line, after)) :
    ¬ lineEnd <:+: line := by
  induction octets generalizing line with
  | nil => cases found
  | cons octet rest ih =>
    by_cases ends : octet = 0x0D ∧ rest.head? = some 0x0A
    · obtain ⟨rfl, next⟩ := ends
      cases rest with
      | nil => cases next
      | cons next rest =>
        obtain rfl := Option.some.inj next
        cases found
        simp [lineEnd]
    · simp only [splitLine_cons ends, Option.map_eq_some_iff, Prod.mk.injEq, Prod.exists] at found
      obtain ⟨inner, tail, found, rfl, rfl⟩ := found
      rw [lineEnd_infix_cons, not_or]
      refine ⟨fun here => ends ⟨here.1, ?_⟩, ih found⟩
      rw [splitLine_append found, List.head?_append, here.2]
      rfl

/-! ## All lines -/

theorem drain_none {buffer : LineBuffer} (none : buffer.next = none) : buffer.drain = ([], buffer) := by
  rw [drain]
  split <;> simp_all

theorem drain_some {buffer rest : LineBuffer} {line : String} (found : buffer.next = some (line, rest)) :
    buffer.drain = (line :: rest.drain.1, rest.drain.2) := by
  rw [drain]
  split <;> simp_all

theorem Divides.tail {line rest : List UInt8} {lines : List (List UInt8)} {stream : List UInt8}
    (divides : Divides stream (line :: lines) rest) :
    ∃ after, stream = line ++ lineEnd ++ after ∧ ¬ lineEnd <:+: line ∧ Divides after lines rest := by
  obtain ⟨rfl, unbroken, unfinished⟩ := divides
  rw [List.forall_mem_cons] at unbroken
  exact ⟨_, by rw [List.flatMap_cons, List.append_assoc], unbroken.1, rfl, unbroken.2, unfinished⟩

theorem Divides.next {line rest : List UInt8} {lines : List (List UInt8)} {stream : List UInt8}
    (divides : Divides stream (line :: lines) rest) :
    ∃ after, LineBuffer.next ⟨stream⟩ = some (Text.Utf8.decodeLossy line, ⟨after⟩) ∧ Divides after lines rest := by
  obtain ⟨after, rfl, unbroken, divides⟩ := divides.tail
  exact ⟨after, by rw [LineBuffer.next, splitLine_line unbroken]; rfl, divides⟩

theorem Divides.drain {stream rest : List UInt8} {lines : List (List UInt8)} (divides : Divides stream lines rest) :
    LineBuffer.drain ⟨stream⟩ = (lines.map Text.Utf8.decodeLossy, ⟨rest⟩) := by
  induction lines generalizing stream with
  | nil =>
    obtain ⟨rfl, -, unfinished⟩ := divides
    exact drain_none (by rw [LineBuffer.next]; simp [splitLine_eq_none_iff.mpr unfinished])
  | cons line lines ih =>
    obtain ⟨after, found, divides⟩ := divides.next
    rw [drain_some found, ih divides]
    rfl

theorem exists_divides (stream : List UInt8) : ∃ lines rest, Divides stream lines rest := by
  cases found : splitLine stream with
  | none => exact ⟨[], stream, rfl, by simp, splitLine_eq_none_iff.mp found⟩
  | some parts =>
    obtain ⟨line, after⟩ := parts
    have whole := splitLine_append found
    obtain ⟨lines, rest, rfl, unbroken, unfinished⟩ := exists_divides after
    refine ⟨line :: lines, rest, by simp [whole, lineEnd], ?_, unfinished⟩
    rw [List.forall_mem_cons]
    exact ⟨splitLine_unbroken found, unbroken⟩
termination_by stream.length
decreasing_by simp [whole]; omega

theorem drain_drain (buffer : LineBuffer) : buffer.drain.2.drain = ([], buffer.drain.2) := by
  obtain ⟨lines, rest, divides⟩ := exists_divides buffer.octets
  have drained : buffer.drain = (lines.map Text.Utf8.decodeLossy, ⟨rest⟩) := divides.drain
  have alone : Divides rest [] rest := ⟨rfl, by simp, divides.unfinished⟩
  rw [drained]
  exact alone.drain

/-! ## Pieces -/

@[simp] theorem push_nil (buffer : LineBuffer) : buffer.push [] = buffer := by
  rw [push, List.append_nil]

@[simp] theorem push_push (buffer : LineBuffer) (octets more : List UInt8) :
    (buffer.push octets).push more = buffer.push (octets ++ more) := by
  rw [push, push, push, List.append_assoc]

/-- Lines taken from a stream, and what is held of it. More lines may stand complete in what is held. -/
structure Takes (stream : List UInt8) (lines : List (List UInt8)) (held : List UInt8) : Prop where
  whole : stream = lines.flatMap (· ++ lineEnd) ++ held
  unbroken : ∀ line ∈ lines, ¬ lineEnd <:+: line

theorem takes_nothing (stream : List UInt8) : Takes stream [] stream := ⟨rfl, by simp⟩

theorem Divides.takes {stream rest : List UInt8} {lines : List (List UInt8)} (divides : Divides stream lines rest) :
    Takes stream lines rest :=
  ⟨divides.whole, divides.unbroken⟩

theorem Takes.divides {stream held : List UInt8} {lines : List (List UInt8)} (takes : Takes stream lines held)
    (unfinished : ¬ lineEnd <:+: held) : Divides stream lines held :=
  ⟨takes.whole, takes.unbroken, unfinished⟩

theorem Takes.trans {stream held more last : List UInt8} {lines later : List (List UInt8)}
    (takes : Takes stream lines held) (goesOn : Takes (held ++ more) later last) :
    Takes (stream ++ more) (lines ++ later) last := by
  constructor
  · rw [takes.whole, List.append_assoc, goesOn.whole, List.flatMap_append, List.append_assoc]
  · intro line member
    exact (List.mem_append.mp member).elim (takes.unbroken line) (goesOn.unbroken line)

/-- Taking the lines out before more octets arrive makes no difference. -/
theorem drain_push (buffer : LineBuffer) (octets : List UInt8) :
    (buffer.push octets).drain =
      (buffer.drain.1 ++ (buffer.drain.2.push octets).drain.1, (buffer.drain.2.push octets).drain.2) := by
  obtain ⟨lines, rest, divides⟩ := exists_divides buffer.octets
  obtain ⟨later, last, goesOn⟩ := exists_divides (rest ++ octets)
  have first : buffer.drain = (lines.map Text.Utf8.decodeLossy, ⟨rest⟩) := divides.drain
  have whole := (divides.takes.trans goesOn.takes).divides goesOn.unfinished
  rw [push, whole.drain, first]
  simp only [push, goesOn.drain, List.map_append]

end DebugBridge.Engine.LineBuffer
