import DebugBridge.Proofs.Script.Layout

/-! The variables that are recovered from a script are those of its text: every global that a walk comes upon, and
for each function the local variables of the declarations of that name, whatever the letter case. -/

set_option autoImplicit false

namespace DebugBridge.Scope

open Script

/-! ## Names -/

def Alike (one other : String) : Prop := one.toList.map Char.toLower = other.toList.map Char.toLower

/-- Without the Kelvin sign, the only letter outside of ASCII whose lower case is an ASCII letter. -/
def Plain (name : String) : Prop := '\u212A' ∉ name.toList

theorem foldChar_toLower (c : Char) : foldChar c = if c.toLower = '\u212A' then 'k' else c.toLower := by
  have kelvin : c.toLower = '\u212A' ↔ c = '\u212A' := by
    constructor
    · intro lower
      unfold Char.toLower at lower
      split at lower
      · next upper =>
        have value : c.val + 32 = 0x212A := congrArg Char.val lower
        have bound : c.val ≤ 90 := upper.2
        have sum := congrArg UInt32.toNat value
        rw [UInt32.le_iff_toNat_le] at bound
        simp only [UInt32.toNat_add] at sum
        simp at sum bound
        omega
      · exact lower
    · rintro rfl
      decide
  simp only [foldChar, kelvin]

theorem foldName_alike {one other : String} (alike : Alike one other) : foldName one = foldName other := by
  have split (name : String) : foldName name =
      String.ofList ((name.toList.map Char.toLower).map fun c => if c = '\u212A' then 'k' else c) := by
    rw [foldName, List.map_map]
    exact congrArg String.ofList (List.map_congr_left fun c _ => foldChar_toLower c)
  rw [split, split, alike]

theorem foldName_plain {name : String} (plain : Plain name) :
    (foldName name).toList = name.toList.map Char.toLower := by
  rw [foldName, String.toList_ofList]
  refine List.map_congr_left fun c member => if_neg ?_
  rintro rfl
  exact plain member

theorem foldName_eq_iff {one other : String} (onePlain : Plain one) (otherPlain : Plain other) :
    foldName one = foldName other ↔ Alike one other := by
  rw [← String.toList_inj, foldName_plain onePlain, foldName_plain otherPlain]
  rfl

/-! ## Collecting -/

/-- The variables that a walk adds, each with the function that it adds it to; the walk comes from the given one. -/
def attributed (function : String) : List Visit → List (String × String)
  | [] => []
  | .function head :: rest => attributed (foldName (qualifiedName head)) rest
  | .variable ⟨.functionLocal, name⟩ :: rest => (function, "%" ++ name.lexeme) :: attributed function rest
  | .variable ⟨.global, _⟩ :: rest => attributed function rest

def globalNames (visits : List Visit) : List String :=
  visits.filterMap fun
    | .variable ⟨.global, name⟩ => some ("$" ++ name.lexeme)
    | _ => none

theorem foldl_step (visits : List Visit) (c : Collector) :
    (visits.foldl Collector.step c).scopes =
      { locals :=
          (attributed c.function visits).foldl (fun all entry => insertLocal entry.1 entry.2 all) c.scopes.locals
        globals := (globalNames visits).foldl insertNew c.scopes.globals } := by
  induction visits generalizing c with
  | nil => rfl
  | cons visit rest ih =>
    rw [List.foldl_cons, ih]
    rcases visit with head | ⟨kind, name⟩
    · rfl
    · cases kind <;> rfl

theorem insertNew_eraseDups (names : List String) (name : String) :
    insertNew names.eraseDups name = (names ++ [name]).eraseDups := by
  rw [List.eraseDups_append, insertNew]
  by_cases known : name ∈ names
  · simp [known, List.removeAll]
  · simp [known, List.removeAll, List.eraseDups_cons]

theorem foldl_insertNew (later names : List String) :
    later.foldl insertNew names.eraseDups = (names ++ later).eraseDups := by
  induction later generalizing names with
  | nil => simp
  | cons name rest ih => rw [List.foldl_cons, insertNew_eraseDups, ih, List.append_assoc, List.singleton_append]

theorem lookup_other {key function : String} (other : key ≠ function) (names : List String)
    (entries : List (String × List String)) : List.lookup key ((function, names) :: entries) = entries.lookup key := by
  rw [List.lookup_cons, beq_eq_false_iff_ne.mpr other]

theorem lookup_insertLocal (function name key : String) (entries : List (String × List String)) :
    ((insertLocal function name entries).lookup key).getD [] =
      if key = function then insertNew ((entries.lookup key).getD []) name else (entries.lookup key).getD [] := by
  induction entries with
  | nil =>
    rw [insertLocal]
    by_cases same : key = function
    · simp [same, insertNew]
    · simp [lookup_other same, same]
  | cons entry rest ih =>
    obtain ⟨f, names⟩ := entry
    rw [insertLocal]
    by_cases present : f = function
    · rw [if_pos present, present]
      by_cases same : key = function
      · simp [same]
      · simp [lookup_other same, same]
    · rw [if_neg present]
      by_cases same : key = f
      · simp [same, present]
      · rw [lookup_other same, lookup_other same, ih]

theorem foldl_insertLocal (added : List (String × String)) (key : String) (entries : List (String × List String)) :
    ((added.foldl (fun all entry => insertLocal entry.1 entry.2 all) entries).lookup key).getD [] =
      ((added.filter (·.1 = key)).map Prod.snd).foldl insertNew ((entries.lookup key).getD []) := by
  induction added generalizing entries with
  | nil => rfl
  | cons entry rest ih =>
    rw [List.foldl_cons, ih, lookup_insertLocal]
    by_cases same : entry.1 = key
    · simp [same]
    · simp [same, Ne.symm same]

theorem globals_collect (program : List Statement) :
    (FileScopes.collect program).globals = (globalNames (Statement.visitsOfAll program)).eraseDups := by
  rw [FileScopes.collect, foldl_step]
  exact foldl_insertNew _ []

theorem localsOf_collect (program : List Statement) (function : String) :
    (FileScopes.collect program).localsOf function =
      (((attributed "" (Statement.visitsOfAll program)).filter (·.1 = foldName function)).map Prod.snd).eraseDups := by
  rw [FileScopes.localsOf, FileScopes.collect, foldl_step]
  refine (foldl_insertLocal _ _ _).trans ?_
  exact foldl_insertNew _ []

/-! ## Ownership -/

def ownedAt : Spot × Segment → List (String × Variable)
  | (spot, .heading h) => h.parameters.map (spot.qualified h.name, ·)
  | (spot, .single token) =>
    if token.kind = .localVariable then spot.function?.toList.map (·, ⟨.functionLocal, token⟩) else []

def owned (text : List (Spot × Segment)) : List (String × Variable) := text.flatMap ownedAt

def isStray : Spot × Segment → Bool
  | (_, .heading _) => false
  | (spot, .single token) => token.kind == .localVariable && spot.function?.isNone

def Contained (text : List (Spot × Segment)) : Prop := ∀ place ∈ text, isStray place = false

instance (text : List (Spot × Segment)) : Decidable (Contained text) :=
  inferInstanceAs (Decidable (∀ place ∈ text, isStray place = false))

theorem Contained.tail {first : Spot × Segment} {rest : List (Spot × Segment)}
    (contained : Contained (first :: rest)) : Contained rest :=
  fun place member => contained place (List.mem_cons_of_mem _ member)

def entryOf : String × Variable → String × String
  | (function, v) => (foldName function, "%" ++ v.name.lexeme)

def Follows (function : String) (spot : Spot) : Prop :=
  ∀ name, spot.Holds (.function name) → function = foldName name

theorem Follows.next {function : String} {spot : Spot} (follows : Follows function spot) (token : Token) :
    Follows function (spot.next token) := by
  intro name holds
  rcases Spot.holds_next holds with before | block | ⟨-, package⟩
  · exact follows name before
  · cases block
  · cases package

theorem Follows.declare {spot : Spot} (outside : spot.function? = none) (h : Heading) :
    Follows (foldName (spot.qualified h.name)) (spot.declare h) := by
  intro name holds
  rcases Spot.holds_declare holds with member | function
  · cases List.findSome?_eq_none_iff.mp outside _ member
  · rw [Brace.function.inj function]

theorem attributed_locals (function : String) (tokens : List Token) (rest : List Visit) :
    attributed function ((locals tokens).map .variable ++ rest) =
      (locals tokens).map (fun v => (function, "%" ++ v.name.lexeme)) ++ attributed function rest := by
  unfold locals
  induction tokens.filter (·.kind = .localVariable) with
  | nil => rfl
  | cons token rest ih => exact congrArg (List.cons _) ih

theorem attributed_heading (function : String) (spot : Spot) (h : Heading) (rest : List Visit) :
    attributed function (visitsAt (spot, .heading h) ++ rest) =
      (ownedAt (spot, .heading h)).map entryOf ++ attributed (foldName (spot.qualified h.name)) rest := by
  have named : qualifiedName (Reader.headOf spot.package? h.name h.parameters) = spot.qualified h.name :=
    Reader.qualifiedName_headOf _ _ _
  rw [visitsAt, List.cons_append, attributed, named, Heading.parameters, attributed_locals, ownedAt, List.map_map]
  rfl

theorem attributed_local {token : Token} (isLocal : token.kind = .localVariable) (function : String) (spot : Spot)
    (rest : List Visit) :
    attributed function (visitsAt (spot, .single token) ++ rest) =
      (function, "%" ++ token.lexeme) :: attributed function rest := by
  simp [visitsAt, Token.reference?, isLocal, attributed]

theorem attributed_other {token : Token} (other : token.kind ≠ .localVariable) (function : String) (spot : Spot)
    (rest : List Visit) :
    attributed function (visitsAt (spot, .single token) ++ rest) = attributed function rest := by
  have same : token.reference? = if token.kind = .globalVariable then some ⟨.global, token⟩ else none := by
    unfold Token.reference?
    split <;> simp_all
  rw [visitsAt, same]
  by_cases isGlobal : token.kind = .globalVariable <;> simp [isGlobal, attributed]

/-- A walk gives each declaration its variables, and it gives nothing else if there is nothing else. -/
theorem attributed_layout {text : List Segment} {spot : Spot} {function : String} (follows : Follows function spot)
    (outside : ∀ outer h, (outer, .heading h) ∈ layout spot text → outer.function? = none) :
    ((owned (layout spot text)).map entryOf).Sublist (attributed function ((layout spot text).flatMap visitsAt)) ∧
      (Contained (layout spot text) →
        attributed function ((layout spot text).flatMap visitsAt) = (owned (layout spot text)).map entryOf) := by
  induction text generalizing spot function with
  | nil => exact ⟨.slnil, fun _ => rfl⟩
  | cons first rest ih =>
    cases first with
    | heading h =>
      rw [layout] at outside ⊢
      obtain ⟨kept, all⟩ := ih (.declare (outside spot h List.mem_cons_self) h)
        fun outer inner later => outside outer inner (List.mem_cons_of_mem _ later)
      rw [List.flatMap_cons, attributed_heading, owned, List.flatMap_cons, List.map_append]
      exact ⟨kept.append_left _, fun contained => congrArg _ (all contained.tail)⟩
    | single token =>
      rw [layout] at outside ⊢
      obtain ⟨kept, all⟩ := ih (follows.next token)
        fun outer inner later => outside outer inner (List.mem_cons_of_mem _ later)
      rw [List.flatMap_cons, owned, List.flatMap_cons, List.map_append]
      by_cases isLocal : token.kind = .localVariable
      · rw [attributed_local isLocal, ownedAt, if_pos isLocal]
        cases inside : spot.function? with
        | none =>
          -- it goes to the function that was declared last, which need not be around it
          refine ⟨kept.cons _, fun contained => ?_⟩
          have stray := contained _ List.mem_cons_self
          rw [isStray, isLocal, inside] at stray
          cases stray
        | some name =>
          obtain rfl := follows name (Spot.holds_function inside)
          exact ⟨kept.cons_cons _, fun contained => congrArg _ (all contained.tail)⟩
      -- a global, or no variable at all
      · rw [attributed_other isLocal, ownedAt, if_neg isLocal]
        exact ⟨kept, fun contained => all contained.tail⟩

/-! ## Whole scripts -/

theorem tokenize_plain {source : String} {tokens : List Token} {token : Token} (cut : tokenize source = .ok tokens)
    (member : token ∈ tokens) (isWord : token.kind = .identifier) : Plain token.lexeme := by
  intro kelvin
  rcases tokensFrom_plain cut token member isWord _ kelvin with part | colon
  · cases part
  · cases colon

theorem qualified_plain {spot : Spot} {name : Token} (plain : Plain name.lexeme)
    (around : ∀ package, spot.package? = some package → Plain package.lexeme) : Plain (spot.qualified name) := by
  unfold Spot.qualified
  split
  · next package inside => simpa [Plain] using And.intro (around package inside) plain
  · exact plain

section

variable {text : List Token} (plain : ∀ token ∈ text, token.kind = .identifier → Plain token.lexeme)

include plain

theorem declared_plain {spot : Spot} {h : Heading} (declared : (spot, .heading h) ∈ layoutOf text)
    (grounded : spot.Grounded) : Plain (spot.qualified h.name) := by
  have named : h.name ∈ text := mem_layoutOf declared (List.mem_cons_of_mem _ List.mem_cons_self)
  refine qualified_plain (plain _ named h.isName) fun package inside => ?_
  have holds := Spot.holds_package inside
  have isWord := grounded.named package holds
  rcases holds_layoutOf declared holds with block | ⟨_, named, same⟩ | ⟨_, _, _, function⟩
  · cases block
  · obtain rfl := Brace.package.inj same
    exact plain _ named isWord
  · cases function

theorem owned_plain (grounded : ∀ spot h, (spot, .heading h) ∈ layoutOf text → spot.Grounded) {name : String}
    {v : Variable} (member : (name, v) ∈ owned (layoutOf text)) : Plain name := by
  obtain ⟨⟨spot, segment⟩, inLayout, owns⟩ := List.mem_flatMap.mp member
  cases segment with
  | heading h =>
    obtain ⟨_, _, same⟩ := List.mem_map.mp owns
    cases same
    exact declared_plain plain inLayout (grounded spot h inLayout)
  | single token =>
    have inside : spot.function? = some name := by
      rw [ownedAt] at owns
      split at owns
      · obtain ⟨_, function, same⟩ := List.mem_map.mp owns
        cases same
        exact Option.mem_toList.mp function
      · cases owns
    have holds := Spot.holds_function inside
    rcases holds_layoutOf inLayout holds with block | ⟨_, _, package⟩ | ⟨declared, h, heading, same⟩
    · cases block
    · cases package
    · rw [Brace.function.inj same]
      exact declared_plain plain heading (grounded declared h heading)

end

structure Classified (text : List (Spot × Segment)) (program : List Statement) : Prop where
  visited : Statement.visitsOfAll program = text.flatMap visitsAt
  globals : (FileScopes.collect program).globals = (globalNames (Statement.visitsOfAll program)).eraseDups
  locals : ∀ name v, (name, v) ∈ owned text → ∀ function, Alike name function →
    "%" ++ v.name.lexeme ∈ (FileScopes.collect program).localsOf function
  exactly : Contained text → ∀ function, (FileScopes.collect program).localsOf function =
    (((owned text).filter (foldName ·.1 = foldName function)).map ("%" ++ ·.2.name.lexeme)).eraseDups
  folded : ∀ name v, (name, v) ∈ owned text → ∀ function, Plain function →
    (foldName name = foldName function ↔ Alike name function)

/-- Whatever a source looks like, its scopes are those of its text if it can be read at all. -/
theorem collect_classified {source : String} {program : List Statement} (accepted : parseSource source = .ok program) :
    ∃ tokens, tokenize source = .ok tokens ∧ Classified (layoutOf (code tokens)) program := by
  unfold parseSource at accepted
  split at accepted
  · cases accepted
  next tokens cut =>
  refine ⟨tokens, cut, ?_⟩
  -- the layout knows where a walk is, and so to which function each variable goes
  obtain ⟨visited, headings⟩ := parse_layout accepted
  obtain ⟨kept, all⟩ := attributed_layout (fun _ holds => (Spot.not_holds_start holds).elim)
    fun outer h member => (headings outer h member).2
  rw [← layoutOf, ← visited] at kept all
  constructor
  case visited => exact visited
  case globals => exact globals_collect program
  case locals =>
    intro name v member function alike
    rw [localsOf_collect, List.mem_eraseDups, List.mem_map]
    refine ⟨_, List.mem_filter.mpr ⟨kept.subset (List.mem_map_of_mem member), ?_⟩, rfl⟩
    exact decide_eq_true (foldName_alike alike)
  case exactly =>
    intro contained function
    rw [localsOf_collect, all contained, List.filter_map, List.map_map]
    rfl
  case folded =>
    intro name v member function plain
    have words (token : Token) (inText : token ∈ code tokens) : token.kind = .identifier → Plain token.lexeme :=
      tokenize_plain cut (List.takeWhile_subset _ inText)
    have grounded (spot : Spot) (h : Heading) (heading : (spot, .heading h) ∈ layoutOf (code tokens)) :=
      (headings spot h heading).1
    exact foldName_eq_iff (owned_plain words grounded member) plain

def spelled : String :=
  "package M \x7b function A::f(%c, $g) \x7b if (%c) \x7b %d = $t; \x7d %e; \x7d \x7d; " ++
    "function m::a::F(%x) \x7b %c; \x7d FUNCTION f() \x7b %y % \"%z\"; \x7d"

theorem collect_classified_spelled :
    ∃ program tokens, parseSource spelled = .ok program ∧
      (tokenize spelled = .ok tokens ∧ Classified (layoutOf (code tokens)) program) ∧
      Contained (layoutOf (code tokens)) ∧
      (FileScopes.collect program).localsOf "m::A::F" = ["%c", "%d", "%e", "%x"] ∧
      (FileScopes.collect program).localsOf "F" = ["%y"] ∧
      (FileScopes.collect program).globals = ["$t"] := by
  have read : (tokenize spelled).toOption.map (fun tokens =>
      (decide (Contained (layoutOf (code tokens))), (parse tokens).toOption.map FileScopes.collect)) =
        some (true, some ⟨[("m::a::f", ["%c", "%d", "%e", "%x"]), ("f", ["%y"])], ["$t"]⟩) := by
    decide +kernel
  cases cut : tokenize spelled with
  | error fault =>
    rw [cut] at read
    cases read
  | ok tokens =>
    rw [cut] at read
    obtain ⟨contained, scopes⟩ := Prod.mk.inj (Option.some.inj read)
    cases parsed : parse tokens with
    | error fault =>
      rw [parsed] at scopes
      cases scopes
    | ok program =>
      rw [parsed] at scopes
      have accepted : parseSource spelled = .ok program := by rw [parseSource, cut, ← parsed]
      obtain ⟨_, same, classified⟩ := collect_classified accepted
      obtain rfl := Except.ok.inj (cut.symm.trans same)
      refine ⟨program, tokens, accepted, ⟨rfl, classified⟩, of_decide_eq_true contained, ?_⟩
      rw [Option.some.inj scopes]
      decide

end DebugBridge.Scope
