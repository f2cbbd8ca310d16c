import DebugBridge.Script.Descent

/-! Positions in a script: what is found at each of them up to the first end of file, and what the reader, which takes
the tokens one by one, still makes of the script from there. -/

set_option autoImplicit false

namespace DebugBridge.Script

/-! ## The end of a list of tokens -/

theorem endOf_kind (tokens : List Token) : (endOf tokens).kind = .endOfFile := by
  unfold endOf
  cases found : tokens.find? (·.kind == .endOfFile) with
  | none => rfl
  | some e => simpa using List.find?_some found

section

variable {before after : List Token} {e : Token} (endless : ∀ token ∈ before, token.kind ≠ .endOfFile)
  (ends : e.kind = .endOfFile)

include endless ends

theorem code_ended : code (before ++ e :: after) = before := by
  rw [code_append endless, code, List.takeWhile_cons_of_neg (by simpa using ends), List.append_nil]

theorem endOf_ended : endOf (before ++ e :: after) = e := by
  have none : before.find? (·.kind == .endOfFile) = none :=
    List.find?_eq_none.mpr fun token member => by simpa using endless token member
  rw [endOf, List.find?_append, none, Option.none_or, List.find?_cons_of_pos (by simpa using ends), Option.getD_some]

theorem parse_ended : parse (before ++ e :: after) = parse (before ++ [e]) := by
  unfold parse
  rw [code_ended endless ends, code_ended endless ends, endOf_ended endless ends, endOf_ended endless ends]

end

/-- The tokens that a descent works on are those before the first end of file, that one, and whatever is behind it. -/
theorem exists_closed (tokens : List Token) : ∃ rest, closed tokens = code tokens ++ endOf tokens :: rest := by
  unfold endOf
  cases found : tokens.find? (·.kind == .endOfFile) with
  | some e =>
    obtain ⟨ends, before, after, rfl, endless⟩ := List.find?_eq_some_iff_append.mp found
    rw [code_ended (by simpa using endless) (by simpa using ends)]
    -- whether one more end is added or not, it is behind the first
    unfold closed
    split
    · exact ⟨after, rfl⟩
    · exact ⟨_, List.append_assoc before (e :: after) _⟩
  | none =>
    have endless : ∀ token ∈ tokens, token.kind ≠ .endOfFile := by simpa using List.find?_eq_none.mp found
    rw [code_endless endless]
    unfold closed
    rw [if_neg]
    · exact ⟨[], rfl⟩
    · intro ends
      obtain ⟨last, isLast, kind⟩ := Option.map_eq_some_iff.mp ends
      exact endless last (List.mem_of_getLast? isLast) kind

def firstEnd (tokens : List Token) : Nat := (closed tokens).findIdx (·.kind == .endOfFile)

theorem firstEnd_eq (tokens : List Token) : firstEnd tokens = (code tokens).length := by
  obtain ⟨rest, closed⟩ := exists_closed tokens
  have endless : ∀ token ∈ code tokens, ¬ (token.kind == .endOfFile) = true := by
    intro token member
    simpa using List.all_eq_true.mp List.all_takeWhile token member
  rw [firstEnd, closed, List.findIdx_append, if_neg]
  · simp [List.findIdx_cons, endOf_kind]
  · rw [List.findIdx_lt_length]
    rintro ⟨token, member, ends⟩
    exact endless token member ends

theorem firstEnd_le (tokens : List Token) : firstEnd tokens ≤ tokens.length := by
  rw [firstEnd_eq]
  exact (List.takeWhile_prefix _).length_le

theorem firstEnd_lt (tokens : List Token) : firstEnd tokens < (closed tokens).length := by
  obtain ⟨rest, closed⟩ := exists_closed tokens
  rw [firstEnd_eq, closed, List.length_append, List.length_cons]
  omega

structure Faces (script : List Token) (position : Nat) (token : Token) : Prop where
  seen : (closed script)[position]? = some token
  within : token.kind ≠ .endOfFile →
    position < firstEnd script ∧ (code script).drop position = token :: (code script).drop (position + 1)
  ends : token.kind = .endOfFile →
    position = firstEnd script ∧ token = endOf script ∧ (code script).drop position = []

theorem exists_faces {script : List Token} {position : Nat} (inside : position ≤ firstEnd script) :
    ∃ token, Faces script position token := by
  obtain ⟨rest, closed⟩ := exists_closed script
  have last := firstEnd_eq script
  rcases Nat.lt_or_eq_of_le inside with before | rfl
  · have bound : position < (code script).length := by omega
    have plain : (code script)[position].kind ≠ .endOfFile := by
      simpa using List.all_eq_true.mp List.all_takeWhile _ (List.getElem_mem bound)
    refine ⟨(code script)[position], ?_, fun _ => ⟨before, List.drop_eq_getElem_cons bound⟩,
      fun ends => absurd ends plain⟩
    rw [closed, List.getElem?_append_left bound, List.getElem?_eq_getElem bound]
  · refine ⟨endOf script, ?_, fun plain => absurd (endOf_kind script) plain, fun _ => ⟨rfl, rfl, ?_⟩⟩
    · rw [closed, last, List.getElem?_append_right (Nat.le_refl _), Nat.sub_self, List.getElem?_cons_zero]
    · rw [last, List.drop_length]

def slice (script : List Token) (start stop : Nat) : List Token := ((code script).drop start).take (stop - start)

theorem slice_self (script : List Token) (start : Nat) : slice script start start = [] := by
  rw [slice, Nat.sub_self, List.take_zero]

theorem slice_cons {script : List Token} {start stop : Nat} {token : Token} (faces : Faces script start token)
    (plain : token.kind ≠ .endOfFile) (more : start < stop) :
    slice script start stop = token :: slice script (start + 1) stop := by
  rw [slice, (faces.within plain).2, show stop - start = stop - (start + 1) + 1 by omega, List.take_succ_cons]
  rfl

theorem slice_drop {script : List Token} {start stop : Nat} (onward : start ≤ stop) :
    slice script start stop ++ (code script).drop stop = (code script).drop start := by
  have rest : (code script).drop stop = ((code script).drop start).drop (stop - start) := by
    rw [List.drop_drop, show start + (stop - start) = stop by omega]
  rw [rest]
  exact List.take_append_drop _ _

theorem slice_append {script : List Token} {start middle stop : Nat} (first : start ≤ middle) (second : middle ≤ stop) :
    slice script start middle ++ slice script middle stop = slice script start stop := by
  have rest : (code script).drop middle = ((code script).drop start).drop (middle - start) := by
    rw [List.drop_drop, show start + (middle - start) = middle by omega]
  rw [slice, slice, slice, rest, show stop - start = (middle - start) + (stop - middle) by omega, List.take_add]

/-! ## What the reader does from a position on -/

namespace Reader

def readOn (r : Reader) (rest : List Token) (endOfFile : Token) : Except Fault (List Statement) :=
  match rest.foldlM step r with
  | .error fault => .error fault
  | .ok r => r.finish endOfFile

/-- From here on the reader comes to what it makes of the whole script. -/
def Reads (script : List Token) (r : Reader) (position : Nat) : Prop :=
  r.readOn ((code script).drop position) (endOf script) = parse script

section

variable {script : List Token} {r r' : Reader} {position : Nat} {token : Token}

theorem readOn_cons (r : Reader) (token : Token) (rest : List Token) (endOfFile : Token) :
    r.readOn (token :: rest) endOfFile =
      match r.step token with
      | .error fault => .error fault
      | .ok next => next.readOn rest endOfFile := by
  unfold readOn
  rw [List.foldlM_cons]
  cases r.step token <;> rfl

theorem reads_initial (script : List Token) : Reads script initial 0 := rfl

theorem Reads.next (reads : Reads script r position) (faces : Faces script position token)
    (plain : token.kind ≠ .endOfFile) (read : r.step token = .ok r') : Reads script r' (position + 1) := by
  unfold Reads at reads
  rw [(faces.within plain).2, readOn_cons, read] at reads
  exact reads

theorem Reads.fault {fault : Fault} (reads : Reads script r position) (faces : Faces script position token)
    (plain : token.kind ≠ .endOfFile) (read : r.step token = .error fault) : parse script = .error fault := by
  unfold Reads at reads
  rw [(faces.within plain).2, readOn_cons, read] at reads
  exact reads.symm

theorem Reads.finish (reads : Reads script r position) (faces : Faces script position token)
    (ends : token.kind = .endOfFile) : parse script = r.finish token := by
  obtain ⟨-, rfl, nothing⟩ := faces.ends ends
  unfold Reads at reads
  rw [nothing] at reads
  exact reads.symm

theorem Reads.alike (reads : Reads script r position) (faces : Faces script position token)
    (steps : token.kind ≠ .endOfFile → r'.step token = r.step token)
    (finishes : token.kind = .endOfFile → r'.finish token = r.finish token) : Reads script r' position := by
  unfold Reads at reads ⊢
  by_cases ends : token.kind = .endOfFile
  · obtain ⟨-, rfl, nothing⟩ := faces.ends ends
    rw [nothing] at reads ⊢
    exact (finishes ends).trans reads
  · rw [(faces.within ends).2, readOn_cons] at reads ⊢
    rw [steps ends]
    exact reads

end

end Reader

end DebugBridge.Script
