import DebugBridge.Proofs.Source.Normalization
import DebugBridge.Source.Resolver

/-! A path that was read from a text is written as a text that reads as the same path. Where the text it was read from
has no backslashes, what is written has none. -/

set_option autoImplicit false

namespace DebugBridge.Text

theorem subset_of_mem_split {separator : Char} {text field : List Char} (member : field ∈ split separator text) :
    field ⊆ text := by
  induction text generalizing field with
  | nil => simp_all [split]
  | cons c rest ih =>
    unfold split at member
    split at member
    · rcases List.mem_cons.mp member with rfl | later
      · exact List.nil_subset _
      · exact List.subset_cons_of_subset c (ih later)
    split at member
    · next first others found =>
      rw [found] at ih
      rcases List.mem_cons.mp member with rfl | later
      · exact List.cons_subset_cons c (ih List.mem_cons_self)
      · exact List.subset_cons_of_subset c (ih (List.mem_cons_of_mem _ later))
    · simp_all

theorem subset_join {separator c : Char} {fields : List (List Char)} (member : c ∈ join separator fields) :
    c = separator ∨ ∃ field ∈ fields, c ∈ field := by
  induction fields with
  | nil => cases member
  | cons first rest ih =>
    cases rest with
    | nil => exact .inr ⟨first, List.mem_cons_self, member⟩
    | cons second rest =>
      rw [join, List.mem_append, List.mem_cons] at member
      rcases member with here | rfl | later
      · exact .inr ⟨first, List.mem_cons_self, here⟩
      · exact .inl rfl
      · rcases ih later with same | ⟨field, among, within⟩
        · exact .inl same
        · exact .inr ⟨field, List.mem_cons_of_mem _ among, within⟩

end DebugBridge.Text

namespace DebugBridge.Source

structure Component.Written (c : Component) : Prop where
  read : Component.ofChars? c.text.toList = some c
  slash : '/' ∉ c.text.toList

/-- One that stands there also where backslashes count as slashes. -/
structure Component.Spelled (c : Component) : Prop extends Component.Written c where
  backslash : '\\' ∉ c.text.toList

namespace Component

theorem written_parent : Written .parent := ⟨rfl, by decide⟩

theorem spelled_parent : Spelled .parent := ⟨written_parent, by decide⟩

theorem text_ofChars? {field : List Char} {c : Component} (read : ofChars? field = some c) : c.text.toList = field := by
  unfold ofChars? at read
  split at read <;> cases read
  · rfl
  · rfl
  · exact String.toList_ofList

theorem Written.nonempty {c : Component} (written : c.Written) : c.text.toList ≠ [] := by
  intro empty
  have read := written.read
  rw [empty] at read
  cases read

end Component

def Path.Written (path : Path) : Prop := ∀ c ∈ path.components, c.Written

def Path.Spelled (path : Path) : Prop := ∀ c ∈ path.components, c.Spelled

namespace Path

theorem backslash_slashed (text : String) : '\\' ∉ (slashed text).toList := by
  rw [slashed, String.toList_ofList, List.mem_map]
  rintro ⟨c, -, turned⟩
  split at turned
  · exact absurd turned (by decide)
  · contradiction

theorem slashed_eq {text : String} (free : '\\' ∉ text.toList) : slashed text = text := by
  have same : text.toList.map (fun c => if c = '\\' then '/' else c) = text.toList := by
    conv => rhs; rw [← List.map_id text.toList]
    refine List.map_congr_left fun c member => if_neg ?_
    rintro rfl
    exact free member
  rw [slashed, same, String.ofList_toList]

theorem written_ofString (text : String) : (ofString text).Written := by
  intro c member
  obtain ⟨field, among, read⟩ := List.mem_filterMap.mp member
  have same := Component.text_ofChars? read
  exact ⟨same ▸ read, same ▸ Text.not_mem_of_mem_split among⟩

theorem spelled_ofString {text : String} (free : '\\' ∉ text.toList) : (ofString text).Spelled := by
  intro c member
  refine ⟨written_ofString text c member, ?_⟩
  obtain ⟨field, among, read⟩ := List.mem_filterMap.mp member
  rw [Component.text_ofChars? read]
  exact fun within => free (Text.subset_of_mem_split among within)

theorem spelled_slashed (text : String) : (ofString (slashed text)).Spelled :=
  spelled_ofString (backslash_slashed text)

section

variable {path base : Path}

theorem Spelled.written (spelled : path.Spelled) : path.Written := fun c member => (spelled c member).toWritten

theorem toList_text (path : Path) : path.text.toList = path.chars := String.toList_ofList

theorem backslash_text (spelled : path.Spelled) : '\\' ∉ path.text.toList := by
  rw [toList_text, chars, List.mem_append]
  rintro (root | within)
  · split at root <;> simp at root
  · rcases Text.subset_join within with slash | ⟨field, among, within⟩
    · exact absurd slash (by decide)
    · obtain ⟨c, member, rfl⟩ := List.mem_map.mp among
      exact (spelled c member).backslash within

theorem slashed_text (spelled : path.Spelled) : slashed path.text = path.text := slashed_eq (backslash_text spelled)

theorem filterMap_written {components : List Component} (written : ∀ c ∈ components, c.Written) :
    components.filterMap (fun c => Component.ofChars? c.text.toList) = components := by
  induction components with
  | nil => rfl
  | cons c rest ih =>
    obtain ⟨here, later⟩ := List.forall_mem_cons.mp written
    simp only [List.filterMap_cons, here.read, ih later]

theorem filterMap_split_join {components : List Component} (written : ∀ c ∈ components, c.Written) :
    (Text.split '/' (Text.join '/' (components.map (·.text.toList)))).filterMap Component.ofChars? = components := by
  cases components with
  | nil => rfl
  | cons first rest =>
    rw [Text.split_join (by simp) fun field among => ?_, List.filterMap_map]
    · exact filterMap_written written
    · obtain ⟨c, member, rfl⟩ := List.mem_map.mp among
      exact (written c member).slash

theorem head_join {components : List Component} (written : ∀ c ∈ components, c.Written) :
    (Text.join '/' (components.map (·.text.toList))).head? ≠ some '/' := by
  cases components with
  | nil => simp [Text.join]
  | cons first rest =>
    have named := written first List.mem_cons_self
    cases text : first.text.toList with
    | nil => exact absurd text named.nonempty
    | cons c name =>
      rw [List.map_cons, text, Text.join_cons_cons, List.head?_cons]
      intro slash
      cases slash
      exact named.slash (text ▸ List.mem_cons_self)

theorem ofString_text (written : path.Written) : ofString path.text = path := by
  rw [ofString, toList_text, chars]
  cases path with
  | mk rooted components =>
    cases rooted with
    | true =>
      rw [if_pos rfl, List.singleton_append, Text.split, if_pos rfl, List.filterMap_cons_none rfl,
        filterMap_split_join written]
      simp
    | false =>
      rw [if_neg Bool.false_ne_true, List.nil_append, filterMap_split_join written]
      simpa using head_join written

theorem normalized_text (spelled : path.Spelled) : normalized path.text = path.normalize := by
  rw [normalized, slashed_text spelled, ofString_text spelled.written]

theorem spelled_join (left : base.Spelled) (right : path.Spelled) : (base.join path).Spelled := by
  unfold join
  split
  · exact right
  · exact List.forall_mem_append.mpr ⟨left, right⟩

theorem written_normalize (written : path.Written) : path.normalize.Written := fun c member =>
  written c (path.normalize_subset member)

theorem spelled_normalize (spelled : path.Spelled) : path.normalize.Spelled := fun c member =>
  spelled c (path.normalize_subset member)

theorem written_relativeTo (written : path.Written) : (path.relativeTo base).Written := fun c member =>
  List.forall_mem_cons.mpr ⟨Component.written_parent, written⟩ c (path.relativeTo_subset base member)

theorem spelled_relativeTo (spelled : path.Spelled) : (path.relativeTo base).Spelled := fun c member =>
  List.forall_mem_cons.mpr ⟨Component.spelled_parent, spelled⟩ c (path.relativeTo_subset base member)

theorem spelled_stripBase? {rest : Path} (spelled : path.Spelled) (stripped : path.stripBase? base = some rest) :
    rest.Spelled := by
  unfold stripBase? at stripped
  split at stripped
  · cases stripped
    exact spelled
  split at stripped
  · cases stripped
    exact fun c member => spelled c (List.mem_of_mem_drop member)
  · cases stripped

end

end Path

end DebugBridge.Source
