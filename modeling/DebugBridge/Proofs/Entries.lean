import Mathlib.Data.List.Nodup

/-! Entries under keys: what a look-up finds after entries have been changed, removed or added. -/

set_option autoImplicit false

namespace DebugBridge.Entries

variable {α β : Type} [BEq α] [LawfulBEq α]

theorem lookup_cons_of_ne {key other : α} (value : β) (rest : List (α × β)) (different : key ≠ other) :
    ((other, value) :: rest).lookup key = rest.lookup key := by
  simp [List.lookup_cons, beq_eq_false_iff_ne.mpr different]

theorem lookup_map_value (change : α → β → β) (key : α) (entries : List (α × β)) :
    (entries.map fun entry => (entry.1, change entry.1 entry.2)).lookup key =
      (entries.lookup key).map (change key) := by
  induction entries with
  | nil => rfl
  | cons entry rest ih =>
    obtain ⟨other, value⟩ := entry
    by_cases same : key = other
    · subst same
      simp
    · rw [List.map_cons, lookup_cons_of_ne _ _ same, lookup_cons_of_ne _ _ same, ih]

theorem lookup_filter_key [DecidableEq α] (gone key : α) (entries : List (α × β)) :
    (entries.filter fun entry => entry.1 != gone).lookup key =
      if key = gone then none else entries.lookup key := by
  induction entries with
  | nil => simp
  | cons entry rest ih =>
    obtain ⟨other, value⟩ := entry
    by_cases removed : other = gone
    · subst removed
      rw [List.filter_cons_of_neg (by simp), ih]
      split
      · rfl
      · next different => rw [lookup_cons_of_ne _ _ different]
    · rw [List.filter_cons_of_pos (by simpa using removed)]
      by_cases same : key = other
      · subst same
        simp [removed]
      · rw [lookup_cons_of_ne _ _ same, lookup_cons_of_ne _ _ same, ih]

theorem mem_of_lookup {key : α} {value : β} {entries : List (α × β)} (found : entries.lookup key = some value) :
    (key, value) ∈ entries := by
  obtain ⟨before, after, rfl, -⟩ := List.lookup_eq_some_iff.mp found
  simp

/-- Where no key occurs twice, every entry can be found. -/
theorem lookup_of_mem {key : α} {value : β} {entries : List (α × β)} (once : (entries.map Prod.fst).Nodup)
    (member : (key, value) ∈ entries) : entries.lookup key = some value := by
  induction entries with
  | nil => cases member
  | cons entry rest ih =>
    rw [List.map_cons, List.nodup_cons] at once
    cases member with
    | head => simp
    | tail _ later =>
      have different : key ≠ entry.1 := by
        rintro rfl
        exact once.1 (List.mem_map.mpr ⟨_, later, rfl⟩)
      rw [lookup_cons_of_ne entry.2 rest different, ih once.2 later]

end DebugBridge.Entries
