import DebugBridge.Source.Path

/-! Resolving dots is a run of a stack, and what is on the stack reads back as itself. So paths may be resolved before
they are joined or after, and a path seen from a base leads from the base to itself. -/

set_option autoImplicit false

namespace DebugBridge.Source

/-- Where there is no name to take back, the root or one more step up is left. -/
theorem Path.resolve_parent {done : List Component} (top : ∀ text before, done ≠ .name text :: before) (rooted : Bool) :
    Path.resolve rooted done .parent = if rooted then done else .parent :: done := by
  simp only [Path.resolve]

theorem Path.resolve_parent_cases (done : List Component) : (∃ text before, done = .name text :: before) ∨
    ∀ rooted, Path.resolve rooted done .parent = if rooted then done else .parent :: done := by
  by_cases top : ∃ text before, done = .name text :: before
  · exact .inl top
  · exact .inr (Path.resolve_parent fun text before same => top ⟨text, before, same⟩)

/-- A stack of components that resolving has only ever put one more on. -/
inductive Settled (rooted : Bool) : List Component → Prop where
  | empty : Settled rooted []
  | push {done : List Component} {c : Component} :
    Settled rooted done → Path.resolve rooted done c = c :: done → Settled rooted (c :: done)

namespace Settled

variable {rooted : Bool} {done : List Component}

theorem resolve (settled : Settled rooted done) (c : Component) : Settled rooted (Path.resolve rooted done c) := by
  cases c with
  | current => exact settled
  | name text => exact settled.push rfl
  | parent =>
    rcases Path.resolve_parent_cases done with ⟨text, before, rfl⟩ | up
    · cases settled with
      | push under => exact under
    · cases rooted with
      | true => exact up true ▸ settled
      | false => exact up false ▸ settled.push (up false)

theorem foldl (settled : Settled rooted done) (components : List Component) :
    Settled rooted (components.foldl (Path.resolve rooted) done) := by
  induction components generalizing done with
  | nil => exact settled
  | cons c rest ih => exact ih (settled.resolve c)

theorem foldl_reverse (settled : Settled rooted done) : done.reverse.foldl (Path.resolve rooted) [] = done := by
  induction settled with
  | empty => rfl
  | push _ pushed ih => rw [List.reverse_cons, List.foldl_append, ih, List.foldl_cons, pushed, List.foldl_nil]

theorem of_append {later : List Component} (settled : Settled rooted (later ++ done)) : Settled rooted done := by
  induction later with
  | nil => exact settled
  | cons c later ih =>
    cases settled with
    | push before => exact ih before

theorem not_current (settled : Settled rooted done) : .current ∉ done := by
  induction settled with
  | empty => exact List.not_mem_nil
  | push _ pushed ih =>
    intro member
    rcases List.mem_cons.mp member with rfl | before
    · simp [Path.resolve] at pushed
    · exact ih before

theorem parent {before : List Component} (settled : Settled rooted (.parent :: before)) :
    rooted = false ∧ ∀ c ∈ before, c = .parent := by
  generalize stack : .parent :: before = done at settled
  induction settled generalizing before with
  | empty => cases stack
  | push under pushed ih =>
    cases stack
    cases under with
    | empty => simpa [Path.resolve] using pushed
    | @push before c under topped =>
      cases c with
      | current => simp [Path.resolve] at topped
      | name text => exact absurd (congrArg List.length pushed) (by simp [Path.resolve]; omega)
      | parent =>
        obtain ⟨free, all⟩ := ih rfl
        exact ⟨free, List.forall_mem_cons.mpr ⟨rfl, all⟩⟩

theorem of_parents (dots : .current ∉ done) (ups : ∀ later before, done = later ++ .parent :: before →
    rooted = false ∧ ∀ c ∈ before, c = .parent) : Settled rooted done := by
  induction done with
  | nil => exact .empty
  | cons c done ih =>
    have under : Settled rooted done := by
      refine ih (fun member => dots (List.mem_cons_of_mem c member)) fun later before same => ups (c :: later) before ?_
      rw [same, List.cons_append]
    refine under.push ?_
    cases c with
    | current => exact absurd List.mem_cons_self dots
    | name text => rfl
    | parent =>
      obtain ⟨free, all⟩ := ups [] done rfl
      have top : ∀ text before, done ≠ .name text :: before := by
        rintro text before rfl
        cases all _ List.mem_cons_self
      rw [Path.resolve_parent top, if_neg (Bool.eq_false_iff.mp free)]

theorem names (settled : Settled true done) : ∀ c ∈ done, ∃ text, c = .name text := by
  induction settled with
  | empty => exact fun _ member => absurd member List.not_mem_nil
  | @push before c under pushed ih =>
    refine List.forall_mem_cons.mpr ⟨?_, ih⟩
    cases c with
    | current => exact absurd List.mem_cons_self (under.push pushed).not_current
    | parent => cases (under.push pushed).parent.1
    | name text => exact ⟨text, rfl⟩

theorem names_of_bottom (settled : Settled rooted done) (bottom : done.getLast? ≠ some .parent) :
    ∀ c ∈ done, ∃ text, c = .name text := by
  induction settled with
  | empty => exact fun _ member => absurd member List.not_mem_nil
  | @push before c under pushed ih =>
    have settled := under.push pushed
    cases c with
    | current => exact absurd List.mem_cons_self settled.not_current
    | parent =>
      have all : ∀ c ∈ Component.parent :: before, c = .parent := List.forall_mem_cons.mpr ⟨rfl, settled.parent.2⟩
      apply absurd _ bottom
      rw [List.getLast?_eq_some_getLast (List.cons_ne_nil _ _), all _ (List.getLast_mem _)]
    | name text =>
      refine List.forall_mem_cons.mpr ⟨⟨text, rfl⟩, ih ?_⟩
      cases before with
      | nil => simp
      | cons next before => simpa using bottom

theorem append_names {later : List Component} (settled : Settled rooted done)
    (names : ∀ c ∈ later, ∃ text, c = .name text) : Settled rooted (later ++ done) := by
  induction later with
  | nil => exact settled
  | cons c later ih =>
    obtain ⟨⟨text, rfl⟩, rest⟩ := List.forall_mem_cons.mp names
    exact (ih rest).push rfl

/-- As many steps up as there are names below. -/
theorem climb {later : List Component} (settled : Settled true (later ++ done)) :
    (later.map fun _ => Component.parent).foldl (Path.resolve true) (later ++ done) = done := by
  induction later with
  | nil => rfl
  | cons c later ih =>
    obtain ⟨text, rfl⟩ := settled.names c List.mem_cons_self
    cases settled with
    | push before => exact ih before

end Settled

namespace Path

/-- Going along a stack and one component more, resolved or not, leads to the same place. -/
theorem foldl_resolve (rooted : Bool) (start done : List Component) (c : Component) :
    (resolve false done c).reverse.foldl (resolve rooted) start =
      resolve rooted (done.reverse.foldl (resolve rooted) start) c := by
  cases c with
  | current => rfl
  | name text => simp [resolve]
  | parent =>
    rcases resolve_parent_cases done with ⟨text, before, rfl⟩ | up
    · simp [resolve]
    · simp [up]

theorem foldl_resolved (rooted : Bool) (start done components : List Component) :
    (components.foldl (resolve false) done).reverse.foldl (resolve rooted) start =
      components.foldl (resolve rooted) (done.reverse.foldl (resolve rooted) start) := by
  induction components generalizing done with
  | nil => rfl
  | cons c rest ih => rw [List.foldl_cons, ih, foldl_resolve, List.foldl_cons]

theorem mem_resolve {rooted : Bool} {done : List Component} {c d : Component} (member : d ∈ resolve rooted done c) :
    d = c ∨ d ∈ done := by
  cases c with
  | current => exact .inr member
  | name text => exact List.mem_cons.mp member
  | parent =>
    rcases resolve_parent_cases done with ⟨text, before, rfl⟩ | up
    · exact .inr (List.mem_cons_of_mem _ member)
    · rw [up] at member
      split at member
      · exact .inr member
      · exact List.mem_cons.mp member

theorem mem_foldl_resolve {rooted : Bool} {done components : List Component} {d : Component}
    (member : d ∈ components.foldl (resolve rooted) done) : d ∈ components ∨ d ∈ done := by
  induction components generalizing done with
  | nil => exact .inr member
  | cons c rest ih =>
    rcases ih member with later | before
    · exact .inl (List.mem_cons_of_mem _ later)
    rcases mem_resolve before with rfl | before
    · exact .inl List.mem_cons_self
    · exact .inr before

theorem normalize_subset (path : Path) : path.normalize.components ⊆ path.components := fun _ member =>
  (mem_foldl_resolve (List.mem_reverse.mp member)).resolve_right List.not_mem_nil

theorem normalize_settled (path : Path) : Settled path.rooted path.normalize.components.reverse := by
  rw [normalize, List.reverse_reverse]
  exact Settled.empty.foldl path.components

@[simp] theorem normalize_rooted (path : Path) : path.normalize.rooted = path.rooted := rfl

theorem normalize_eq {path : Path} (settled : Settled path.rooted path.components.reverse) :
    path.normalize = path := by
  have same := settled.foldl_reverse
  rw [List.reverse_reverse] at same
  rw [normalize, same, List.reverse_reverse]

@[simp] theorem normalize_normalize (path : Path) : path.normalize.normalize = path.normalize :=
  normalize_eq path.normalize_settled

/-- A path without single dots, and with steps up at its beginning only and only where there is no root. -/
structure IsResolved (path : Path) : Prop where
  current : .current ∉ path.components
  parent : ∀ before after, path.components = before ++ .parent :: after →
    path.rooted = false ∧ ∀ c ∈ before, c = .parent

/-- Resolving leaves alone just what is resolved. -/
theorem normalize_eq_iff {path : Path} : path.normalize = path ↔ path.IsResolved := by
  constructor
  · intro same
    have settled := path.normalize_settled
    rw [same] at settled
    refine ⟨fun member => settled.not_current (List.mem_reverse.mpr member), fun before after split => ?_⟩
    rw [split, List.reverse_append, List.reverse_cons, List.append_assoc] at settled
    obtain ⟨free, all⟩ := settled.of_append.parent
    exact ⟨free, fun c member => all c (List.mem_reverse.mpr member)⟩
  · intro resolved
    refine normalize_eq (.of_parents (fun member => resolved.current (List.mem_reverse.mp member))
      fun later before same => ?_)
    have split : path.components = before.reverse ++ .parent :: later.reverse := by
      rw [← List.reverse_reverse path.components, same]
      simp
    obtain ⟨free, all⟩ := resolved.parent _ _ split
    exact ⟨free, fun c member => all c (List.mem_reverse.mpr member)⟩

theorem isResolved_normalize (path : Path) : path.normalize.IsResolved :=
  normalize_eq_iff.mp path.normalize_normalize

theorem mk_components {path : Path} {rooted : Bool} (kind : path.rooted = rooted) :
    ⟨rooted, path.components⟩ = path := by
  subst kind
  rfl

theorem join_of_rooted (base : Path) {path : Path} (rooted : path.rooted = true) : base.join path = path := by
  simp [join, rooted]

theorem join_of_relative (base : Path) {path : Path} (relative : path.rooted = false) :
    base.join path = ⟨base.rooted, base.components ++ path.components⟩ := by
  simp [join, relative]

theorem join_rooted {base : Path} (rooted : base.rooted = true) (path : Path) : (base.join path).rooted = true := by
  unfold join
  split
  · assumption
  · exact rooted

theorem normalize_join_left (base path : Path) : (base.normalize.join path).normalize = (base.join path).normalize := by
  cases kind : path.rooted with
  | true => rw [join_of_rooted _ kind, join_of_rooted _ kind]
  | false =>
    have settled := base.normalize_settled.foldl_reverse
    rw [List.reverse_reverse, normalize, List.reverse_reverse] at settled
    simp only [join_of_relative _ kind, normalize, List.foldl_append, settled]

theorem normalize_join_right (base path : Path) :
    (base.join path.normalize).normalize = (base.join path).normalize := by
  cases kind : path.rooted with
  | true => rw [join_of_rooted _ kind, join_of_rooted _ (path.normalize_rooted.trans kind), normalize_normalize]
  | false =>
    have relative : path.normalize.rooted = false := kind
    rw [join_of_relative _ kind, join_of_relative _ relative]
    simp only [normalize, kind, List.foldl_append, foldl_resolved, List.reverse_nil, List.foldl_nil]

theorem dropCommon_append (path base : List Component) :
    ∃ common, path = common ++ (dropCommon path base).1 ∧ base = common ++ (dropCommon path base).2 := by
  induction path generalizing base with
  | nil => exact ⟨[], by simp [dropCommon]⟩
  | cons a as ih =>
    cases base with
    | nil => exact ⟨[], by simp [dropCommon]⟩
    | cons b bs =>
      by_cases same : a = b
      · obtain ⟨common, left, right⟩ := ih bs
        refine ⟨a :: common, ?_, ?_⟩
        · simpa [dropCommon, same] using left
        · simpa [dropCommon, same] using right
      · exact ⟨[], by simp [dropCommon, same]⟩

theorem dropCommon_self_append (base rest : List Component) : dropCommon (base ++ rest) base = (rest, []) := by
  induction base with
  | nil => cases rest <;> simp [dropCommon]
  | cons c base ih => simpa [dropCommon] using ih

section

variable {path base : Path}

theorem relativeTo_rooted (rooted : path.rooted = true) (absolute : base.rooted = true) : path.relativeTo base =
    ⟨false, (dropCommon path.components base.components).2.map (fun _ => .parent) ++
      (dropCommon path.components base.components).1⟩ := by
  simp [relativeTo, rooted, absolute]

theorem relativeTo_subset (path base : Path) : (path.relativeTo base).components ⊆ .parent :: path.components := by
  obtain ⟨common, left, -⟩ := dropCommon_append path.components base.components
  simp only [relativeTo]
  split
  · exact List.subset_cons_self _ _
  · refine List.append_subset.mpr ⟨fun c member => ?_, fun c member => List.mem_cons_of_mem _ ?_⟩
    · obtain ⟨-, -, rfl⟩ := List.mem_map.mp member
      exact List.mem_cons_self
    · rw [left]
      exact List.mem_append_right _ member

/-- A path seen from a base leads from there to itself. -/
theorem normalize_join_relativeTo (rooted : path.rooted = true) (absolute : base.rooted = true)
    (settled : path.normalize = path) (based : base.normalize = base) :
    (base.join (path.relativeTo base)).normalize = path := by
  have whole := path.normalize_settled
  have below := base.normalize_settled
  rw [settled, rooted] at whole
  rw [based, absolute] at below
  rw [relativeTo_rooted rooted absolute, join_of_relative _ rfl]
  obtain ⟨common, left, right⟩ := dropCommon_append path.components base.components
  generalize (dropCommon path.components base.components).1 = down,
    (dropCommon path.components base.components).2 = up at left right
  rw [left, List.reverse_append] at whole
  rw [right, List.reverse_append] at below
  have back : (up.map fun _ => Component.parent) = up.reverse.map fun _ => Component.parent := by
    simp [List.map_const']
  -- up from the base to what both share, and down again
  have reached : (base.components ++ (up.map (fun _ => Component.parent) ++ down)).foldl (resolve true) [] =
      path.components.reverse :=
    calc (base.components ++ (up.map (fun _ => Component.parent) ++ down)).foldl (resolve true) []
      _ = down.foldl (resolve true) ((up.map fun _ => Component.parent).foldl (resolve true)
            (up.reverse ++ common.reverse)) := by
        rw [List.foldl_append, List.foldl_append, right, ← below.foldl_reverse]
        simp
      _ = down.foldl (resolve true) common.reverse := by rw [back, below.climb]
      _ = (common ++ down).foldl (resolve true) [] := by
        have shared := (whole.of_append).foldl_reverse
        rw [List.reverse_reverse] at shared
        rw [List.foldl_append, shared]
      _ = path.components.reverse := by
        have read := whole.foldl_reverse
        rw [← List.reverse_append, List.reverse_reverse] at read
        rw [read, left]
  simp only [normalize, absolute, reached, List.reverse_reverse]
  rw [← rooted]

theorem relativeTo_append {rest : List Component} (rooted : path.rooted = true) (absolute : base.rooted = true)
    (below : path.components = base.components ++ rest) : path.relativeTo base = ⟨false, rest⟩ := by
  rw [relativeTo_rooted rooted absolute, below, dropCommon_self_append]
  rfl

theorem stripBase?_eq_some {rest : Path} (nonempty : base.rooted = true) (stripped : path.stripBase? base = some rest) :
    rest.rooted = false ∧ base.join rest = path := by
  rw [stripBase?, if_neg fun none => by simp [none] at nonempty] at stripped
  split at stripped
  · next begins =>
    cases stripped
    obtain ⟨same, rest, whole⟩ := begins
    refine ⟨rfl, ?_⟩
    rw [join_of_relative _ rfl, ← whole, List.drop_left, whole, ← same]
  · cases stripped

theorem stripBase?_append {rest : List Component} (rooted : path.rooted = true) (absolute : base.rooted = true)
    (below : path.components = base.components ++ rest) : path.stripBase? base = some ⟨false, rest⟩ := by
  rw [stripBase?, if_neg fun none => by simp [none] at absolute,
    if_pos ⟨rooted.trans absolute.symm, rest, below.symm⟩, below, List.drop_left]

end

theorem normalize_join_names {base path : Path} (absolute : base.rooted = true) (settled : base.normalize = base)
    (relative : path.rooted = false) (down : path.normalize.components.head? ≠ some .parent) :
    (base.join path).normalize = ⟨true, base.components ++ path.normalize.components⟩ := by
  have relativeNormal : path.normalize.rooted = false := relative
  have names := (relative ▸ path.normalize_settled).names_of_bottom (by simpa using down)
  have under := absolute ▸ base.normalize_settled
  rw [settled] at under
  have whole := under.append_names names
  rw [← normalize_join_right, join_of_relative _ relativeNormal, normalize_eq, absolute]
  simpa [absolute] using whole

end Path

end DebugBridge.Source
