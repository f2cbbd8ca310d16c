import DebugBridge.Proofs.Engine.Lines

/-! A line buffer under calls in any order. However a stream is cut into pieces and whenever lines are taken, what has
been taken and what is held make up what has arrived. -/

set_option autoImplicit false

namespace DebugBridge.Engine.LineBuffer

inductive Call where
  | push (octets : List UInt8)
  | next

namespace Call

def octets : Call → List UInt8
  | .push octets => octets
  | .next => []

/-- The line that a call takes, if it takes one, and the buffer after it. -/
def perform (buffer : LineBuffer) : Call → Option String × LineBuffer
  | .push octets => (none, buffer.push octets)
  | .next =>
    match buffer.next with
    | some (line, rest) => (some line, rest)
    | none => (none, buffer)

end Call

def pushed (calls : List Call) : List UInt8 := calls.flatMap Call.octets

def run (buffer : LineBuffer) : List Call → List String × LineBuffer
  | [] => ([], buffer)
  | call :: rest =>
    let (line, after) := call.perform buffer
    let (lines, last) := run after rest
    (line.toList ++ lines, last)

theorem next_eq_none_iff (buffer : LineBuffer) : buffer.next = none ↔ ¬ lineEnd <:+: buffer.octets := by
  simp [next, splitLine_eq_none_iff]

theorem next_takes {buffer rest : LineBuffer} {line : String} (found : buffer.next = some (line, rest)) :
    ∃ octets, line = Text.Utf8.decodeLossy octets ∧ Takes buffer.octets [octets] rest.octets := by
  simp only [next, Option.map_eq_some_iff, Prod.mk.injEq, Prod.exists] at found
  obtain ⟨octets, after, split, rfl, rfl⟩ := found
  refine ⟨octets, rfl, ?_, ?_⟩
  · simp [splitLine_append split, lineEnd]
  · simpa using splitLine_unbroken split

theorem perform_takes (buffer : LineBuffer) (call : Call) :
    ∃ lines, (call.perform buffer).1.toList = lines.map Text.Utf8.decodeLossy ∧
      Takes (buffer.octets ++ call.octets) lines (call.perform buffer).2.octets := by
  cases call with
  | push octets => exact ⟨[], rfl, takes_nothing _⟩
  | next =>
    simp only [Call.perform, Call.octets, List.append_nil]
    cases found : buffer.next with
    | none => exact ⟨[], rfl, takes_nothing _⟩
    | some taken =>
      obtain ⟨line, rest⟩ := taken
      obtain ⟨octets, rfl, takes⟩ := next_takes found
      exact ⟨[octets], rfl, takes⟩

theorem run_takes (buffer : LineBuffer) (calls : List Call) :
    ∃ lines, (run buffer calls).1 = lines.map Text.Utf8.decodeLossy ∧
      Takes (buffer.octets ++ pushed calls) lines (run buffer calls).2.octets := by
  induction calls generalizing buffer with
  | nil => exact ⟨[], rfl, by simpa [pushed, run] using takes_nothing buffer.octets⟩
  | cons call rest ih =>
    obtain ⟨first, taken, takes⟩ := perform_takes buffer call
    obtain ⟨later, takenLater, goesOn⟩ := ih (call.perform buffer).2
    refine ⟨first ++ later, ?_, ?_⟩
    · simp [run, taken, takenLater]
    · simpa [pushed, run] using takes.trans goesOn

/-- Lines can be taken until none is left. -/
theorem exists_run_next (buffer : LineBuffer) : ∃ count, (run buffer (List.replicate count .next)).2.next = none := by
  cases found : buffer.next with
  | none => exact ⟨0, found⟩
  | some taken =>
    obtain ⟨line, rest⟩ := taken
    obtain ⟨count, settled⟩ := exists_run_next rest
    refine ⟨count + 1, ?_⟩
    simpa [List.replicate_succ, run, Call.perform, found] using settled
termination_by buffer.octets.length
decreasing_by exact next_length found

theorem run_append (buffer : LineBuffer) (calls more : List Call) :
    run buffer (calls ++ more) =
      ((run buffer calls).1 ++ (run (run buffer calls).2 more).1, (run (run buffer calls).2 more).2) := by
  induction calls generalizing buffer with
  | nil => rfl
  | cons call rest ih => simp [run, ih]

/-- The lines taken so far are lines of what has arrived, in its order, and a line is missed only if none is complete.
Taken until none is left they are all of its lines, whatever the pieces were and whenever lines were taken before. -/
theorem taken_lines (calls : List Call) :
    let ran := run .empty calls
    (∃ lines : List (List UInt8), ran.1 = lines.map Text.Utf8.decodeLossy ∧ (∀ line ∈ lines, ¬ lineEnd <:+: line) ∧
        lines.flatMap (· ++ lineEnd) ++ ran.2.octets = pushed calls) ∧
      (ran.2.next = none ↔ ¬ lineEnd <:+: ran.2.octets) ∧
      (ran.2.next = none → ran = (LineBuffer.empty.push (pushed calls)).drain) ∧
      ∃ count, (run .empty (calls ++ List.replicate count .next)).2.next = none := by
  intro ran
  obtain ⟨lines, taken, takes⟩ := run_takes .empty calls
  refine ⟨⟨lines, taken, takes.unbroken, takes.whole.symm⟩, next_eq_none_iff _, fun settled => ?_, ?_⟩
  · have drained := (takes.divides ((next_eq_none_iff _).mp settled)).drain
    rw [← taken] at drained
    exact drained.symm
  · obtain ⟨count, settled⟩ := exists_run_next ran.2
    refine ⟨count, ?_⟩
    rw [run_append]
    exact settled

-- the end of the line comes in two pieces, as does its first character, and a CR before it is part of the line
example : run .empty [.push [0xC3], .next, .push [0xA9, 0x0D, 0x0D], .next, .push [0x0A, 0x0A, 0x0D], .next, .next] =
    (["é\r"], ⟨[0x0A, 0x0D]⟩) := by decide

end DebugBridge.Engine.LineBuffer
