/-! White space as the `White_Space` property of Unicode defines it, and trimming by it. -/

set_option autoImplicit false

namespace DebugBridge.Text

/-- The twenty-five characters with the property `White_Space`. -/
def isBlank (c : Char) : Bool :=
  let n := c.toNat
  (0x09 ≤ n && n ≤ 0x0D) || n == 0x20 || n == 0x85 || n == 0xA0 || n == 0x1680 ||
    (0x2000 ≤ n && n ≤ 0x200A) || n == 0x2028 || n == 0x2029 || n == 0x202F || n == 0x205F ||
    n == 0x3000

theorem isBlank_printable {c : Char} (least : 33 ≤ c.toNat) (greatest : c.toNat ≤ 126) : isBlank c = false := by
  unfold isBlank
  generalize c.toNat = n at least greatest
  simp
  omega

def trimStart (text : List Char) : List Char := text.dropWhile isBlank

def dropEndWhile (strip : Char → Bool) (text : List Char) : List Char :=
  (text.reverse.dropWhile strip).reverse

theorem dropWhile_kept {strip : Char → Bool} {text : List Char} (kept : ∀ c ∈ text, strip c = false) :
    text.dropWhile strip = text := by
  cases text with
  | nil => rfl
  | cons c rest => rw [List.dropWhile_cons_of_neg (by simp [kept c List.mem_cons_self])]

theorem dropEndWhile_append {strip : Char → Bool} {text ending : List Char} (kept : ∀ c ∈ text, strip c = false)
    (dropped : ∀ c ∈ ending, strip c = true) : dropEndWhile strip (text ++ ending) = text := by
  rw [dropEndWhile, List.reverse_append, List.dropWhile_append_of_pos (by simpa using dropped),
    dropWhile_kept (by simpa using kept), List.reverse_reverse]

theorem dropEndWhile_eq_iff {strip : Char → Bool} {text kept : List Char} (keeps : ∀ c ∈ kept, strip c = false) :
    dropEndWhile strip text = kept ↔ ∃ ending, text = kept ++ ending ∧ ∀ c ∈ ending, strip c = true := by
  constructor
  · intro same
    refine ⟨(text.reverse.takeWhile strip).reverse, ?_, ?_⟩
    · rw [← same, dropEndWhile, ← List.reverse_append, List.takeWhile_append_dropWhile, List.reverse_reverse]
    · intro c member
      exact List.all_eq_true.mp List.all_takeWhile c (List.mem_reverse.mp member)
  · rintro ⟨ending, rfl, dropped⟩
    exact dropEndWhile_append keeps dropped

def trim (text : List Char) : List Char := dropEndWhile isBlank (trimStart text)

theorem trim_kept {text : List Char} (kept : ∀ c ∈ text, isBlank c = false) : trim text = text := by
  have whole := dropEndWhile_append kept (List.forall_mem_nil _)
  rw [List.append_nil] at whole
  rw [trim, trimStart, dropWhile_kept kept, whole]

end DebugBridge.Text
