import DebugBridge.Proofs.Source.Spelling

/-! The texts of paths, joined as texts are: dots may be resolved before or after, once or twice, and what is seen from
a base is found from there. -/

set_option autoImplicit false

namespace DebugBridge.Source

/-- Whether a text names a place of its own, where slashes alone count. -/
def IsRooted (text : String) : Prop := text.toList.head? = some '/'

instance (text : String) : Decidable (IsRooted text) := inferInstanceAs (Decidable (_ = _))

/-- A text behind another one, with a slash between them where there is none. -/
def joined (base text : String) : String :=
  if IsRooted text then text
  else if base = "" ∨ base.toList.getLast? = some '/' then base ++ text
  else base ++ "/" ++ text

def resolved (text : String) : String := (Path.ofString text).normalize.text

def seenFrom (base text : String) : String := ((Path.ofString text).relativeTo (Path.ofString base)).text

/-- What resolving dots is to the texts of paths. For dots to be resolved before texts are joined, neither needs to be
rooted. -/
structure ResolvingLaws : Prop where
  shape : ∀ text, (Path.ofString (resolved text)).IsResolved
  keeps : ∀ text, (Path.ofString text).IsResolved → Path.ofString (resolved text) = Path.ofString text
  rooted : ∀ text, IsRooted (resolved text) ↔ IsRooted text
  twice : ∀ text, resolved (resolved text) = resolved text
  joins : ∀ base text, Path.ofString (joined base text) = (Path.ofString base).join (Path.ofString text)
  left : ∀ base text, resolved (joined (resolved base) text) = resolved (joined base text)
  right : ∀ base text, resolved (joined base (resolved text)) = resolved (joined base text)
  found : ∀ base text, IsRooted base → IsRooted text → resolved base = base → resolved text = text →
    resolved (joined base (seenFrom base text)) = text

theorem ofString_rooted {text : String} : (Path.ofString text).rooted = true ↔ IsRooted text := decide_eq_true_iff

theorem components_append (base text : String) : (Path.ofString (base ++ "/" ++ text)).components =
    (Path.ofString base).components ++ (Path.ofString text).components := by
  have apart : (base ++ "/" ++ text).toList = base.toList ++ '/' :: text.toList := by simp
  simp only [Path.ofString, apart, Text.split_append, List.filterMap_append]

theorem components_slash (base : String) :
    (Path.ofString (base ++ "/")).components = (Path.ofString base).components := by
  have empty : (Path.ofString "").components = [] := by decide
  have apart := components_append base ""
  rwa [String.append_empty, empty, List.append_nil] at apart

theorem exists_front {base : String} (last : base.toList.getLast? = some '/') : ∃ front, base = front ++ "/" := by
  obtain ⟨front, whole⟩ := List.getLast?_eq_some_iff.mp last
  exact ⟨String.ofList front, String.toList_injective (by simpa using whole)⟩

theorem rooted_append {base : String} (nonempty : base ≠ "") (text : String) :
    (Path.ofString (base ++ text)).rooted = (Path.ofString base).rooted := by
  have begins : (base ++ text).toList.head? = base.toList.head? := by
    rw [String.toList_append, List.head?_append]
    cases first : base.toList with
    | nil => exact absurd (String.toList_eq_nil_iff.mp first) nonempty
    | cons c rest => rfl
  simp only [Path.ofString, begins]

theorem ofString_joined (base text : String) :
    Path.ofString (joined base text) = (Path.ofString base).join (Path.ofString text) := by
  unfold joined
  split
  · next rooted => rw [Path.join_of_rooted _ (ofString_rooted.mpr rooted)]
  next relative =>
  have unrooted : (Path.ofString text).rooted = false := Bool.eq_false_iff.mpr (relative ∘ ofString_rooted.mp)
  rw [Path.join_of_relative _ unrooted]
  by_cases empty : base = ""
  · have nothing : Path.ofString "" = ⟨false, []⟩ := by decide
    rw [if_pos (.inl empty), empty, String.empty_append, nothing, List.nil_append, Path.mk_components unrooted]
  split
  · next last =>
    obtain ⟨front, rfl⟩ := exists_front (last.resolve_left empty)
    rw [components_slash, ← components_append, Path.mk_components (rooted_append empty text)]
  · rw [← components_append, String.append_assoc, Path.mk_components (rooted_append empty _)]

theorem ofString_resolved (text : String) : Path.ofString (resolved text) = (Path.ofString text).normalize :=
  Path.ofString_text (Path.written_normalize (Path.written_ofString text))

theorem ofString_seenFrom (base text : String) :
    Path.ofString (seenFrom base text) = (Path.ofString text).relativeTo (Path.ofString base) :=
  Path.ofString_text (Path.written_relativeTo (Path.written_ofString text))

theorem resolved_joined (base text : String) :
    resolved (joined base text) = ((Path.ofString base).join (Path.ofString text)).normalize.text := by
  rw [resolved, ofString_joined]

/-- A text that resolving leaves alone is read as a path that it leaves alone. -/
theorem normalize_ofString {text : String} (settled : resolved text = text) :
    (Path.ofString text).normalize = Path.ofString text := by
  rw [← ofString_resolved, settled]

theorem resolving_laws : ResolvingLaws where
  shape text := by
    rw [ofString_resolved]
    exact Path.isResolved_normalize _
  keeps text shaped := by rw [ofString_resolved, Path.normalize_eq_iff.mpr shaped]
  rooted text := by rw [← ofString_rooted, ofString_resolved, Path.normalize_rooted, ofString_rooted]
  twice text := by rw [resolved, ofString_resolved, Path.normalize_normalize, ← resolved]
  joins := ofString_joined
  left base text := by rw [resolved_joined, resolved_joined, ofString_resolved, Path.normalize_join_left]
  right base text := by rw [resolved_joined, resolved_joined, ofString_resolved, Path.normalize_join_right]
  found base text rooted named based settled := by
    rw [resolved_joined, ofString_seenFrom, Path.normalize_join_relativeTo (ofString_rooted.mpr named)
      (ofString_rooted.mpr rooted) (normalize_ofString settled) (normalize_ofString based),
      ← normalize_ofString settled]
    exact settled

/-- Dots, doubled slashes, and more steps up than there are names. -/
theorem resolving_laws_mixed :
    resolved "/a/.//../../b/./c/" = "/b/c" ∧ resolved (resolved "x/.././..//../y") = "../../y" ∧
      resolved (joined (resolved "/a/..//b/") "../c/./../../d") = "/d" ∧
      resolved (joined "/a//b/" (resolved "x/../../../.c")) = "/.c" ∧
      seenFrom "/b/c" "/b/d/e" = "../d/e" ∧ resolved (joined "/b/c" "../d/e") = "/b/d/e" := by
  have seen : seenFrom "/b/c" "/b/d/e" = "../d/e" := by decide +kernel
  refine ⟨by decide +kernel, (resolving_laws.twice _).trans (by decide +kernel),
    (resolving_laws.left _ _).trans (by decide +kernel), (resolving_laws.right _ _).trans (by decide +kernel), seen, ?_⟩
  rw [← seen]
  exact resolving_laws.found _ _ (by decide +kernel) (by decide +kernel) (by decide +kernel) (by decide +kernel)

end DebugBridge.Source
