import DebugBridge.Engine.Handshake
import DebugBridge.Proofs.Engine.Lines

/-! The handshake ends at the first answer to the password, wherever the pieces of the stream begin. The lines
after it are all there for whoever reads on. -/

set_option autoImplicit false

namespace DebugBridge.Engine

def Event.token? (line : String) : Option String :=
  match decode line with
  | .ok (.pass token) => some token
  | _ => none

theorem Event.token?_eq_some {line token : String} :
    token? line = some token ↔ decode line = .ok (.pass token) := by
  unfold token?
  split <;> simp_all

def Refusing (token : String) : Prop :=
  ∃ ending, token.toList = "WrongPassword".toList ++ ending ∧ ∀ c ∈ ending, c = '.' ∨ Text.isBlank c = true

theorem isWrongPassword_iff {token : String} : isWrongPassword token = true ↔ Refusing token := by
  have kept : ∀ c ∈ "WrongPassword".toList, (c == '.' || Text.isBlank c) = false := by
    simp [Text.isBlank]
  rw [isWrongPassword, beq_iff_eq, Text.dropEndWhile_eq_iff kept]
  simp [Refusing]

namespace Handshake

open LineBuffer (drain_none drain_some drain_drain drain_push push_nil push_push)

def Unanswered (lines : List String) : Prop := ∀ line ∈ lines, Event.token? line = none

theorem unanswered_append {lines later : List String} :
    Unanswered (lines ++ later) ↔ Unanswered lines ∧ Unanswered later :=
  List.forall_mem_append

theorem append_eq_append_cons {α : Type} {first second before after : List α} {a : α}
    (same : first ++ second = before ++ a :: after) :
    (∃ passed, before = first ++ passed ∧ second = passed ++ a :: after) ∨
      ∃ found, first = before ++ a :: found ∧ after = found ++ second := by
  rcases List.append_eq_append_iff.mp same with inSecond | ⟨_ | ⟨_, found⟩, inFirst, rest⟩
  · exact .inl inSecond
  · exact .inl ⟨[], by simpa using inFirst.symm, rest.symm⟩
  · obtain ⟨rfl, rfl⟩ := List.cons.inj rest
    exact .inr ⟨found, inFirst, rfl⟩

theorem search_unanswered {buffer : LineBuffer} (unanswered : Unanswered buffer.drain.1) :
    search buffer = (buffer.drain.1, none, buffer.drain.2) := by
  fun_induction search buffer with
  | case1 buffer found => rw [drain_none found]
  | case2 buffer line rest found token decoded =>
    rw [drain_some found] at unanswered
    have none := unanswered line List.mem_cons_self
    rw [Event.token?_eq_some.mpr decoded] at none
    cases none
  | case3 buffer line rest found other ih =>
    rw [drain_some found] at unanswered ⊢
    rw [ih fun line member => unanswered line (List.mem_cons_of_mem _ member)]

theorem search_answered {buffer : LineBuffer} {before after : List String} {answer token : String}
    (lines : buffer.drain.1 = before ++ answer :: after) (unanswered : Unanswered before)
    (answered : Event.token? answer = some token) :
    ∃ left, search buffer = (before, some (token, left), left) ∧ left.drain = (after, buffer.drain.2) := by
  fun_induction search buffer generalizing before with
  | case1 buffer found =>
    rw [drain_none found] at lines
    cases before <;> cases lines
  | case2 buffer line rest found other decoded =>
    rw [drain_some found] at lines ⊢
    -- the line at hand answers: it is not among those before the answer
    cases before with
    | nil =>
      obtain ⟨rfl, same⟩ := List.cons.inj lines
      rw [Event.token?_eq_some.mpr decoded] at answered
      obtain rfl := Option.some.inj answered
      exact ⟨rest, rfl, by rw [← same]⟩
    | cons first before =>
      obtain ⟨rfl, -⟩ := List.cons.inj lines
      have none := unanswered line List.mem_cons_self
      rw [Event.token?_eq_some.mpr decoded] at none
      cases none
  | case3 buffer line rest found other ih =>
    rw [drain_some found] at lines ⊢
    cases before with
    | nil =>
      obtain ⟨rfl, -⟩ := List.cons.inj lines
      exact absurd (Event.token?_eq_some.mp answered) (other token)
    | cons first before =>
      obtain ⟨rfl, same⟩ := List.cons.inj lines
      rw [Unanswered, List.forall_mem_cons] at unanswered
      obtain ⟨left, searched, later⟩ := ih same unanswered.2
      exact ⟨left, by rw [searched], later⟩

/-! ## Pieces of a stream -/

theorem run_next {buffer : LineBuffer} (unanswered : Unanswered buffer.drain.1) (chunk : List UInt8)
    (later : List (List UInt8)) (ending : StreamEnd) :
    run buffer (chunk :: later) ending =
      (buffer.drain.1 ++ (run (buffer.drain.2.push chunk) later ending).1,
        (run (buffer.drain.2.push chunk) later ending).2) := by
  rw [run, search_unanswered unanswered]

theorem run_unanswered {buffer : LineBuffer} {chunks : List (List UInt8)} (ending : StreamEnd)
    (unanswered : Unanswered (buffer.push chunks.flatten).drain.1) :
    run buffer chunks ending = ((buffer.push chunks.flatten).drain.1, .ended ending) := by
  induction chunks generalizing buffer with
  | nil =>
    rw [List.flatten_nil, push_nil] at unanswered ⊢
    rw [run, search_unanswered unanswered]
  | cons chunk later ih =>
    rw [List.flatten_cons, drain_push, ← push_push] at unanswered ⊢
    obtain ⟨passed, unanswered⟩ := unanswered_append.mp unanswered
    rw [run_next passed, ih unanswered]

theorem run_at_hand {buffer : LineBuffer} (chunks : List (List UInt8)) (ending : StreamEnd)
    {before after : List String} {answer token : String} (lines : buffer.drain.1 = before ++ answer :: after)
    (unanswered : Unanswered before) (answered : Event.token? answer = some token) :
    ∃ left,
      run buffer chunks ending =
        (before, if isWrongPassword token then .wrongPassword else .accepted token left chunks) ∧
      (left.push chunks.flatten).drain =
        (after ++ (buffer.drain.2.push chunks.flatten).drain.1, (buffer.push chunks.flatten).drain.2) := by
  obtain ⟨left, searched, later⟩ := search_answered lines unanswered answered
  refine ⟨left, by rw [run.eq_def, searched], ?_⟩
  rw [drain_push left, drain_push buffer, later]

theorem run_answered {buffer : LineBuffer} {chunks : List (List UInt8)} (ending : StreamEnd)
    {before after : List String} {answer token : String}
    (lines : (buffer.push chunks.flatten).drain.1 = before ++ answer :: after) (unanswered : Unanswered before)
    (answered : Event.token? answer = some token) :
    ∃ left later,
      run buffer chunks ending =
        (before, if isWrongPassword token then .wrongPassword else .accepted token left later) ∧
      (left.push later.flatten).drain = (after, (buffer.push chunks.flatten).drain.2) := by
  induction chunks generalizing buffer before with
  | nil =>
    rw [List.flatten_nil, push_nil] at lines
    obtain ⟨left, ran, later⟩ := run_at_hand [] ending lines unanswered answered
    refine ⟨left, [], ran, later.trans ?_⟩
    rw [List.flatten_nil, push_nil, drain_drain, List.append_nil]
  | cons chunk chunks ih =>
    rw [drain_push] at lines ⊢
    rcases append_eq_append_cons lines with ⟨passed, rfl, beyond⟩ | ⟨found, atHand, rfl⟩
    · rw [List.flatten_cons, ← push_push] at beyond ⊢
      obtain ⟨none, unanswered⟩ := unanswered_append.mp unanswered
      obtain ⟨left, later, ran, same⟩ := ih beyond unanswered
      exact ⟨left, later, by rw [run_next none, ran], same⟩
    · obtain ⟨left, ran, later⟩ := run_at_hand (chunk :: chunks) ending atHand unanswered answered
      exact ⟨left, chunk :: chunks, ran, by rw [later, drain_push buffer]⟩

end Handshake

end DebugBridge.Engine
