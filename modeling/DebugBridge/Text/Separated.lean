/-! Texts whose fields are separated by a character. Empty fields count, so that nothing is lost: joining
what was split gives the text back, and splitting what was joined gives the fields back. -/

set_option autoImplicit false

namespace DebugBridge.Text

def split (separator : Char) : List Char → List (List Char)
  | [] => [[]]
  | c :: rest =>
    if c = separator then [] :: split separator rest
    else match split separator rest with
      | first :: others => (c :: first) :: others
      | [] => [[c]]

def join (separator : Char) : List (List Char) → List Char
  | [] => []
  | [last] => last
  | first :: second :: rest => first ++ separator :: join separator (second :: rest)

theorem split_ne_nil (separator : Char) (text : List Char) : split separator text ≠ [] := by
  cases text with
  | nil => simp [split]
  | cons c rest =>
    unfold split
    split
    · simp
    · split <;> simp

theorem join_cons_cons (separator c : Char) (first : List Char) (others : List (List Char)) :
    join separator ((c :: first) :: others) = c :: join separator (first :: others) := by
  cases others <;> simp [join]

theorem join_split (separator : Char) (text : List Char) : join separator (split separator text) = text := by
  induction text with
  | nil => simp [split, join]
  | cons c rest ih =>
    unfold split
    split
    · rename_i h
      subst h
      cases found : split c rest with
      | nil => exact absurd found (split_ne_nil c rest)
      | cons first others => simpa [join, found] using ih
    · split
      · rename_i found
        rw [join_cons_cons, ← found, ih]
      · rename_i found
        exact absurd found (split_ne_nil separator rest)

theorem not_mem_of_mem_split {separator : Char} {text field : List Char}
    (h : field ∈ split separator text) : separator ∉ field := by
  induction text generalizing field with
  | nil => simp_all [split]
  | cons c rest ih =>
    unfold split at h
    split at h
    · rcases List.mem_cons.1 h with rfl | h
      · simp
      · exact ih h
    · rename_i other
      split at h
      · rename_i first others found
        rcases List.mem_cons.1 h with rfl | h
        · have : separator ∉ first := ih (by simp [found])
          simp only [List.mem_cons, not_or]
          exact ⟨fun e => other e.symm, this⟩
        · exact ih (by simp [found, h])
      · rename_i found
        exact absurd found (split_ne_nil separator rest)

theorem split_append (separator : Char) (text rest : List Char) :
    split separator (text ++ separator :: rest) = split separator text ++ split separator rest := by
  induction text with
  | nil => simp [split]
  | cons c text ih =>
    by_cases same : c = separator
    · subst same
      simp [split, ih]
    · simp only [List.cons_append, split, if_neg same, ih]
      cases found : split separator text with
      | nil => exact absurd found (split_ne_nil separator text)
      | cons first others => rfl

theorem split_eq_singleton {separator : Char} {field : List Char} (h : separator ∉ field) :
    split separator field = [field] := by
  induction field with
  | nil => simp [split]
  | cons c field ih =>
    simp only [List.mem_cons, not_or] at h
    simp only [split]
    rw [if_neg (fun e => h.1 e.symm), ih h.2]

theorem split_append_separator {separator : Char} {field : List Char} (h : separator ∉ field)
    (rest : List Char) : split separator (field ++ separator :: rest) = field :: split separator rest := by
  rw [split_append, split_eq_singleton h, List.singleton_append]

theorem split_join {separator : Char} {fields : List (List Char)} (nonempty : fields ≠ [])
    (free : ∀ field ∈ fields, separator ∉ field) : split separator (join separator fields) = fields := by
  induction fields with
  | nil => exact absurd rfl nonempty
  | cons first rest ih =>
    cases rest with
    | nil => exact split_eq_singleton (free first (by simp))
    | cons second rest =>
      simp only [join]
      rw [split_append_separator (free first (by simp)),
        ih (by simp) fun field h => free field (List.mem_cons_of_mem _ h)]

end DebugBridge.Text
