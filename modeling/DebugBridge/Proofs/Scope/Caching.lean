import DebugBridge.Proofs.Entries
import DebugBridge.Scope.Cache

/-! What is remembered of source files while the files themselves come and go.

The first look-up that can read a file decides what is known of it from then on. Spellings of one path share what is
remembered, whether or not they would all find the file. -/

set_option autoImplicit false

/-! ## Files -/

namespace DebugBridge.Source.Files

variable {tree : Files}

theorem ofChars?_name {part : List Char} (nonempty : part ≠ []) (current : part ≠ ['.']) (parent : part ≠ ['.', '.']) :
    Component.ofChars? part = some (.name (String.ofList part)) := by
  unfold Component.ofChars?
  split <;> first | contradiction | rfl

theorem follow_name {here : List String} {part : List Char} (rest : List (List Char)) (nonempty : part ≠ [])
    (current : part ≠ ['.']) (parent : part ≠ ['.', '.']) (fits : exceeds greatestName part = false) :
    tree.follow here (part :: rest) =
      if tree.isFolder (here ++ [String.ofList part]) then tree.follow (here ++ [String.ofList part]) rest
      else if (tree.files.lookup (here ++ [String.ofList part])).isSome then
        if rest.isEmpty then .ok (.file (here ++ [String.ofList part])) else .error .notFolder
      else .error .notFound := by
  conv => lhs; unfold follow
  split
  · next same => cases same
  · next same => cases same; exact absurd rfl nonempty
  · next same => cases same; exact absurd rfl current
  · next same => cases same; exact absurd rfl parent
  · next same =>
    cases same
    rw [if_neg (Bool.eq_false_iff.mp fits)]

theorem follow_enter {here : List String} {part : List Char} (rest : List (List Char))
    (fits : exceeds greatestName part = false) (folder : tree.isFolder (enter here part) = true) :
    tree.follow here (part :: rest) = tree.follow (enter here part) rest := by
  by_cases nonempty : part = []
  · subst nonempty
    rw [follow, enter]
    rfl
  by_cases current : part = ['.']
  · subst current
    rw [follow, enter]
    rfl
  by_cases parent : part = ['.', '.']
  · subst parent
    rw [follow, enter]
    rfl
  have name : enter here part = here ++ [String.ofList part] := by
    rw [enter, ofChars?_name nonempty current parent]
  rw [name] at folder ⊢
  rw [follow_name rest nonempty current parent fits, if_pos folder]

theorem follow_folders {here : List String} {parts : List (List Char)} (rest : List (List Char))
    (fits : ∀ part ∈ parts, exceeds greatestName part = false)
    (folders : ∀ n ≤ parts.length, tree.isFolder ((parts.take n).foldl enter here) = true) :
    tree.follow here (parts ++ rest) = tree.follow (parts.foldl enter here) rest := by
  induction parts generalizing here with
  | nil => rfl
  | cons part parts ih =>
    obtain ⟨fit, fits⟩ := List.forall_mem_cons.mp fits
    have next (n : Nat) (within : n ≤ parts.length) :
        tree.isFolder ((parts.take n).foldl enter (enter here part)) = true :=
      folders (n + 1) (Nat.succ_le_succ within)
    rw [List.cons_append, follow_enter _ fit (next 0 (Nat.zero_le _)), ih fits next, List.foldl_cons]

/-- A file can be written at a path: it ends in a name, nothing about it is too long, and no folder has its place or is
made there on the way. -/
structure Writable (tree : Files) (path : String) : Prop where
  spelled : ∃ parts last, partsOf path = .ok (parts ++ [last]) ∧ last ≠ [] ∧ last ≠ ['.'] ∧ last ≠ ['.', '.'] ∧
    ∀ part ∈ parts ++ [last], exceeds greatestName part = false
  place : tree.isFolder (tree.namesOf path) = false
  way : tree.namesOf path ∉ tree.foldersThrough path

theorem isFolder_write {names : List String} (path : String) (content : List UInt8) :
    (tree.write path content).isFolder names = true ↔
      tree.isFolder names = true ∨ names ∈ tree.foldersThrough path := by
  by_cases known : names ∈ tree.folders <;> simp [isFolder, write, known]

theorem split_of_partsOf {path : String} {parts : List (List Char)} (divided : partsOf path = .ok parts) :
    Text.split '/' path.toList = parts := by
  unfold partsOf at divided
  extract_lets text at divided
  split at divided
  · cases divided
  split at divided
  · cases divided
  split at divided
  · cases divided
  · exact Except.ok.inj divided

/-- What is written is read back. -/
theorem read_write {path : String} (writable : tree.Writable path) (content : List UInt8) :
    (tree.write path content).read path = .ok content := by
  obtain ⟨parts, last, divided, nonempty, current, parent, fits⟩ := writable.spelled
  have whole := split_of_partsOf divided
  have names : tree.namesOf path = parts.foldl enter (tree.startOf path) ++ [String.ofList last] := by
    rw [namesOf, whole, List.foldl_append, List.foldl_cons, List.foldl_nil, enter,
      ofChars?_name nonempty current parent]
  -- every folder on the way has been made, so that following the path does not end before the last name
  have folders : ∀ n ≤ parts.length,
      (tree.write path content).isFolder ((parts.take n).foldl enter (tree.startOf path)) = true := by
    intro n within
    refine (isFolder_write path content).mpr (.inr ?_)
    rw [foldersThrough, whole]
    refine List.mem_map.mpr ⟨n, List.mem_range.mpr (by simp; omega), ?_⟩
    rw [List.take_append_of_le_length within]
  -- the last name is free: it is neither a folder nor on the way to one
  have free : ¬ (tree.write path content).isFolder (parts.foldl enter (tree.startOf path) ++ [String.ofList last]) := by
    rw [← names, isFolder_write]
    exact not_or.mpr ⟨Bool.eq_false_iff.mp writable.place, writable.way⟩
  have stored : (tree.write path content).files.lookup (tree.namesOf path) = some content := by
    rw [write]
    exact List.lookup_cons_self
  have placed : (tree.write path content).locate path = .ok (.file (tree.namesOf path)) := by
    have start : (tree.write path content).startOf path = tree.startOf path := rfl
    rw [locate, divided, start]
    show (tree.write path content).follow (tree.startOf path) (parts ++ [last]) = _
    rw [follow_folders [last] (fun part member => fits part (List.mem_append_left _ member)) folders,
      follow_name [] nonempty current parent (fits last (List.mem_append_right _ List.mem_cons_self)), if_neg free,
      ← names, stored]
    rfl
  rw [read, placed]
  dsimp only
  rw [stored]

end DebugBridge.Source.Files

/-! ## Look-ups -/

namespace DebugBridge.Scope

open Source

def SamePath (path other : String) : Prop := (Path.ofString path).key = (Path.ofString other).key

instance (path other : String) : Decidable (SamePath path other) :=
  inferInstanceAs (Decidable ((Path.ofString path).key = (Path.ofString other).key))

def scopesIn (source : String) : FileScopes :=
  match Script.parseSource source with
  | .ok program => .collect program
  | .error _ => .empty

namespace Cache

variable {cache : Cache} {read : String → Except FileFault (List UInt8)} {path : String}

theorem isCached_eq_false : cache.isCached path = false ↔ cache.lookup path = none := by
  rw [isCached, Option.isSome_eq_false_iff, Option.isNone_iff_eq_none]

theorem get_known {scopes : FileScopes} (known : cache.lookup path = some scopes) :
    cache.get read path = (.known scopes, cache) := by
  rw [get, known]

theorem get_unread {fault : FileFault} (unknown : cache.lookup path = none)
    (unread : readText read path = .error fault) : cache.get read path = (.unreadable fault, cache) := by
  rw [get, unknown]
  dsimp only
  rw [unread]

theorem get_found {source : String} (unknown : cache.lookup path = none) (found : readText read path = .ok source) :
    (cache.get read path).1.scopes? = some (scopesIn source) ∧
      (cache.get read path).2 = cache.insert path (scopesIn source) := by
  rw [get, unknown]
  dsimp only
  rw [found]
  dsimp only
  cases parsed : Script.parseSource source with
  | ok program => simp [scopesIn, parsed, Finding.scopes?]
  | error fault => simp [scopesIn, parsed, Finding.scopes?]

theorem lookup_insert (cache : Cache) (path other : String) (scopes : FileScopes) :
    (cache.insert path scopes).lookup other = if SamePath path other then some scopes else cache.lookup other := by
  by_cases same : SamePath path other
  · rw [if_pos same, lookup, ← same]
    exact List.lookup_cons_self
  · rw [if_neg same]
    exact Entries.lookup_cons_of_ne _ _ (Ne.symm same)

end Cache

inductive Access where
  | write (path : String) (content : List UInt8)
  | delete (path : String)
  | get (path : String)

structure Shelf where
  files : Files
  cache : Cache

namespace Shelf

def unread (files : Files) : Shelf := ⟨files, .empty⟩

def text? (s : Shelf) (path : String) : Option String := (Cache.readText s.files.read path).toOption

def answer (s : Shelf) (path : String) : Option FileScopes := (s.cache.get s.files.read path).1.scopes?

def access (s : Shelf) : Access → Shelf
  | .write path content => { s with files := s.files.write path content }
  | .delete path => { s with files := (s.files.delete path).2 }
  | .get path => { s with cache := (s.cache.get s.files.read path).2 }

def run (s : Shelf) (accesses : List Access) : Shelf := accesses.foldl access s

structure Finds (s : Shelf) (path source : String) : Prop where
  unknown : s.cache.lookup path = none
  readable : s.text? path = some source

variable {s : Shelf} {path other source : String}

theorem text?_eq_some (readable : s.text? path = some source) : Cache.readText s.files.read path = .ok source := by
  rw [text?] at readable
  cases read : Cache.readText s.files.read path with
  | error fault => rw [read] at readable; cases readable
  | ok text => rw [read] at readable; rw [← Option.some.inj readable]

theorem text?_eq_none (unreadable : s.text? path = none) :
    ∃ fault, Cache.readText s.files.read path = .error fault := by
  rw [text?] at unreadable
  cases read : Cache.readText s.files.read path with
  | error fault => exact ⟨fault, rfl⟩
  | ok text => rw [read] at unreadable; cases unreadable

theorem lookup_same (same : SamePath path other) : s.cache.lookup path = s.cache.lookup other := by
  rw [Cache.lookup, Cache.lookup, same]

theorem answer_known {scopes : FileScopes} (known : s.cache.lookup path = some scopes) :
    s.answer path = some scopes := by
  rw [answer, Cache.get_known known]
  rfl

theorem Finds.answer (finds : s.Finds path source) : s.answer path = some (scopesIn source) :=
  (Cache.get_found finds.unknown (text?_eq_some finds.readable)).1

theorem Finds.lookup (finds : s.Finds path source) (other : String) :
    (s.access (.get path)).cache.lookup other =
      if SamePath path other then some (scopesIn source) else s.cache.lookup other := by
  rw [← Cache.lookup_insert]
  exact congrArg (Cache.lookup · other) (Cache.get_found finds.unknown (text?_eq_some finds.readable)).2

theorem get_idle (idle : ∀ source, ¬ s.Finds path source) : s.access (.get path) = s := by
  show { s with cache := (s.cache.get s.files.read path).2 } = s
  cases known : s.cache.lookup path with
  | some scopes => rw [Cache.get_known known]
  | none =>
    cases readable : s.text? path with
    | some source => exact absurd ⟨known, readable⟩ (idle source)
    | none =>
      obtain ⟨fault, unread⟩ := text?_eq_none readable
      rw [Cache.get_unread known unread]

theorem access_cases (s : Shelf) (access : Access) :
    (s.access access).cache = s.cache ∨
      ∃ path source, access = .get path ∧ s.Finds path source := by
  cases access with
  | write | delete => exact .inl rfl
  | get path =>
    by_cases finds : ∃ source, s.Finds path source
    · obtain ⟨source, finds⟩ := finds
      exact .inr ⟨path, source, rfl, finds⟩
    · rw [get_idle (not_exists.mp finds)]
      exact .inl rfl

theorem access_keeps {scopes : FileScopes} (known : s.cache.lookup path = some scopes) (access : Access) :
    (s.access access).cache.lookup path = some scopes := by
  rcases s.access_cases access with same | ⟨other, source, rfl, finds⟩
  · rw [same, known]
  · rw [finds.lookup, if_neg, known]
    intro same
    rw [← lookup_same same, finds.unknown] at known
    cases known

/-- What is remembered stays so, whatever becomes of the files. -/
theorem run_keeps {scopes : FileScopes} (known : s.cache.lookup path = some scopes) (accesses : List Access) :
    (s.run accesses).cache.lookup path = some scopes := by
  induction accesses generalizing s with
  | nil => exact known
  | cons access rest ih => exact ih (access_keeps known access)

theorem run_append (s : Shelf) (first second : List Access) : s.run (first ++ second) = (s.run first).run second :=
  List.foldl_append

/-- What a look-up finds is remembered under every spelling of its path. -/
theorem Finds.remembered (finds : s.Finds other source) (same : SamePath other path) (later : List Access) :
    (s.run (.get other :: later)).cache.lookup path = some (scopesIn source) := by
  have here : (s.access (.get other)).cache.lookup path = some (scopesIn source) := by
    rw [finds.lookup, if_pos same]
  exact run_keeps here later

/-- What is remembered and was not before was found by a look-up in between. -/
theorem run_origin {accesses : List Access} {scopes : FileScopes} (unknown : s.cache.lookup path = none)
    (known : (s.run accesses).cache.lookup path = some scopes) :
    ∃ past other later source, accesses = past ++ .get other :: later ∧ SamePath other path ∧
      (s.run past).Finds other source ∧ scopes = scopesIn source := by
  induction accesses generalizing s with
  | nil => rw [show s.cache.lookup path = some scopes from known] at unknown; cases unknown
  | cons access rest ih =>
    have later (still : (s.access access).cache.lookup path = none) : ∃ past other later source,
        access :: rest = past ++ .get other :: later ∧ SamePath other path ∧
          (s.run past).Finds other source ∧ scopes = scopesIn source := by
      obtain ⟨past, other, after, source, rfl, found⟩ := ih still known
      exact ⟨access :: past, other, after, source, rfl, found⟩
    rcases s.access_cases access with same | ⟨other, source, rfl, finds⟩
    · exact later (by rw [same, unknown])
    · by_cases same : SamePath other path
      · have kept := finds.remembered same rest
        exact ⟨[], other, rest, source, rfl, same, finds, Option.some.inj (known.symm.trans kept)⟩
      · exact later (by rw [finds.lookup, if_neg same, unknown])

/-- A path is remembered once a look-up of it could read its file. -/
theorem run_known_iff {accesses : List Access} (unknown : s.cache.lookup path = none) :
    (∃ scopes, (s.run accesses).cache.lookup path = some scopes) ↔
      ∃ past other later source, accesses = past ++ .get other :: later ∧ SamePath other path ∧
        (s.run past).text? other = some source := by
  constructor
  · rintro ⟨scopes, known⟩
    obtain ⟨past, other, later, source, divided, same, finds, -⟩ := run_origin unknown known
    exact ⟨past, other, later, source, divided, same, finds.readable⟩
  · rintro ⟨past, other, later, source, rfl, same, readable⟩
    rw [run_append]
    cases known : (s.run past).cache.lookup path with
    | some scopes => exact ⟨scopes, run_keeps known _⟩
    | none =>
      -- nothing was known of the path before, so this look-up is the first to find it
      have finds : (s.run past).Finds other source := ⟨(lookup_same same).trans known, readable⟩
      exact ⟨_, finds.remembered same later⟩

end Shelf

structure Remembers (files : Files) : Prop where
  cached : ∀ accesses path, ((Shelf.unread files).run accesses).cache.isCached path = true ↔
    ∃ past other later source, accesses = past ++ .get other :: later ∧ SamePath other path ∧
      ((Shelf.unread files).run past).text? other = some source
  kept : ∀ past path source, ((Shelf.unread files).run past).cache.isCached path = false →
    ((Shelf.unread files).run past).text? path = some source →
    ((Shelf.unread files).run past).answer path = some (scopesIn source) ∧
      ∀ later again, SamePath path again →
        ((Shelf.unread files).run (past ++ .get path :: later)).answer again = some (scopesIn source)
  missed : ∀ past path, ((Shelf.unread files).run past).cache.isCached path = false →
    ((Shelf.unread files).run past).text? path = none →
    ((Shelf.unread files).run past).answer path = none ∧
      (Shelf.unread files).run (past ++ [.get path]) = (Shelf.unread files).run past
  found : ∀ past path, ((Shelf.unread files).run past).text? path ≠ none →
    ((Shelf.unread files).run past).answer path ≠ none
  written : ∀ past path content source, ((Shelf.unread files).run past).files.Writable path →
    Text.Utf8.decode? content = some source →
    ((Shelf.unread files).run (past ++ [.write path content])).text? path = some source

/-- The first look-up of a path that can read its file decides what all later ones answer, and nothing else does. -/
theorem lookups_remembered (files : Files) : Remembers files where
  cached accesses path := by
    rw [Cache.isCached, Option.isSome_iff_exists]
    exact Shelf.run_known_iff rfl
  kept past path source uncached readable := by
    have finds : ((Shelf.unread files).run past).Finds path source := ⟨Cache.isCached_eq_false.mp uncached, readable⟩
    refine ⟨finds.answer, fun later again same => Shelf.answer_known ?_⟩
    rw [Shelf.run_append]
    exact finds.remembered same later
  missed past path uncached unreadable := by
    obtain ⟨fault, unread⟩ := Shelf.text?_eq_none unreadable
    constructor
    · rw [Shelf.answer, Cache.get_unread (Cache.isCached_eq_false.mp uncached) unread]
      rfl
    · rw [Shelf.run_append]
      refine Shelf.get_idle fun source finds => ?_
      cases finds.readable.symm.trans unreadable
  found past path readable := by
    obtain ⟨source, readable⟩ := Option.ne_none_iff_exists'.mp readable
    cases known : ((Shelf.unread files).run past).cache.lookup path with
    | some scopes => simp [Shelf.answer_known known]
    | none => simp [Shelf.Finds.answer ⟨known, readable⟩]
  written past path content source writable decoded := by
    rw [Shelf.run_append]
    have read := Files.read_write writable content
    simp only [Shelf.run, List.foldl_cons, List.foldl_nil, Shelf.access, Shelf.text?, Cache.readText] at read ⊢
    rw [read]
    dsimp only
    rw [decoded]
    rfl

/-- A file that is not there at first, and is gone again before it is looked up under another spelling. -/
example :
    let source := Text.Utf8.encode "function f() \x7b %x = $g; \x7d"
    let s := (Shelf.unread ⟨[], [], []⟩).run [.get "/ws/a.cs", .write "/ws/a.cs" source, .get "/ws//a.cs",
      .write "/ws/a.cs" [], .delete "/ws/a.cs"]
    s.answer "/ws/./a.cs" = some ⟨[("f", ["%x"])], ["$g"]⟩ ∧ s.text? "/ws/./a.cs" = none := by
  decide +kernel

end DebugBridge.Scope
