import DebugBridge.Proofs.Breakpoint.Board

/-! The ids of breakpoints.

They are given in order, whatever happens to the table in between. What the engine does to a breakpoint changes
neither its id nor its conditions, so an id that is no longer in the table never comes back to it. -/

set_option autoImplicit false

namespace DebugBridge.Breakpoint

inductive Change where
  | replace (file : String) (wanted : List Wanted)
  | clear (file : String) (line : Int64)
  | move (file : String) (line newLine : Int64)

namespace Table

def change (table : Table) : Change → Table
  | .replace file wanted => (table.replace file wanted).2
  | .clear file line => (table.clearLine file line).2
  | .move file line newLine => (table.moveLine file line newLine).2

def changes (table : Table) (changes : List Change) : Table := changes.foldl change table

def installs (table : Table) : Change → List Location
  | .replace file wanted => (table.replace file wanted).1.installed
  | _ => []

def installed (table : Table) : List Change → List Location
  | [] => []
  | change :: rest => table.installs change ++ installed (table.change change) rest

def ids (table : Table) (file : String) : List Nat := (table.locations file).map Location.id

theorem ids_number (id : Nat) (wanted : List Wanted) :
    (number id wanted).map Location.id = List.range' id wanted.length := by
  induction wanted generalizing id with
  | nil => rfl
  | cons first rest ih => exact congrArg (id :: ·) (ih (id + 1))

theorem length_number (id : Nat) (wanted : List Wanted) : (number id wanted).length = wanted.length := by
  rw [← List.length_map Location.id, ids_number, List.length_range']

/-! ## Changes by the engine -/

/-- The first breakpoint at a line of a file gives way to others, and all else is as it was. -/
structure Amended (table after : Table) (file : String) (line : Int64) (amend : Location → List Location) :
    Prop where
  nextId : after.nextId = table.nextId
  elsewhere : ∀ other, other ≠ file → after.locations other = table.locations other
  unfound : table.find? file line = none → after.locations file = table.locations file
  found : ∀ location, table.find? file line = some location → location.line = line ∧
    ∃ before rest, table.locations file = before ++ location :: rest ∧
      (∀ other ∈ before, other.line ≠ line) ∧ after.locations file = before ++ amend location ++ rest

theorem find?_divides {table : Table} {file : String} {line : Int64} {location : Location}
    (found : table.find? file line = some location) : location.line = line ∧
      ∃ before rest, table.locations file = before ++ location :: rest ∧ ∀ other ∈ before, other.line ≠ line := by
  obtain ⟨here, before, rest, divided, first⟩ := List.find?_eq_some_iff_append.mp found
  exact ⟨beq_iff_eq.mp here, before, rest, divided, fun other member => by simpa using first other member⟩

theorem modifyFile_amended {table : Table} {file : String} {line : Int64} {amend : Location → List Location}
    (change : List Location → List Location) (nothing : change [] = [])
    (unfound : ∀ locations, (∀ location ∈ locations, location.line ≠ line) → change locations = locations)
    (found : ∀ before location rest, (∀ other ∈ before, other.line ≠ line) → location.line = line →
      change (before ++ location :: rest) = before ++ amend location ++ rest) :
    Amended table (table.modifyFile file change) file line amend where
  nextId := rfl
  elsewhere other different := by
    rw [locations_modifyFile _ _ _ _ nothing, if_neg (Ne.symm different)]
  unfound none := by
    rw [locations_modifyFile _ _ _ _ nothing, if_pos rfl]
    exact unfound _ (elsewhere_of_find? none)
  found location here := by
    obtain ⟨line, before, rest, divided, first⟩ := find?_divides here
    refine ⟨line, before, rest, divided, first, ?_⟩
    rw [locations_modifyFile _ _ _ _ nothing, if_pos rfl, divided]
    exact found before location rest first line

theorem clearLine_amended (table : Table) (file : String) (line : Int64) :
    Amended table (table.clearLine file line).2 file line fun _ => [] := by
  refine modifyFile_amended _ rfl (fun locations elsewhere => ?_) fun before location rest first here => ?_
  · exact List.eraseP_of_forall_not fun location member here => elsewhere location member (beq_iff_eq.mp here)
  · rw [List.eraseP_append_right _ fun other member => by simpa using first other member,
      List.append_nil]
    exact congrArg (before ++ ·) (List.eraseP_cons_of_pos (by simpa using here))

theorem moveFirst_first {line newLine : Int64} {before : List Location} {location : Location}
    (rest : List Location) (first : ∀ other ∈ before, other.line ≠ line) (here : location.line = line) :
    moveFirst line newLine (before ++ location :: rest) =
      before ++ [{ location with line := newLine }] ++ rest := by
  induction before with
  | nil => exact if_pos here
  | cons other before ih =>
    obtain ⟨away, first⟩ := List.forall_mem_cons.mp first
    rw [List.cons_append, moveFirst, if_neg away, ih first]
    rfl

theorem moveLine_amended (table : Table) (file : String) (line newLine : Int64) :
    Amended table (table.moveLine file line newLine).2 file line
      fun location => [{ location with line := newLine }] :=
  modifyFile_amended _ rfl (fun _ elsewhere => moveFirst_elsewhere elsewhere) fun _ _ rest first here =>
    moveFirst_first rest first here

/-- Where a breakpoint gives way to itself or to nothing, no id is new and none changes its place. -/
theorem Amended.ids {table after : Table} {file : String} {line : Int64} {amend : Location → List Location}
    (amended : Amended table after file line amend)
    (kept : ∀ location, ((amend location).map Location.id).Sublist [location.id]) (other : String) :
    (after.ids other).Sublist (table.ids other) := by
  unfold Table.ids
  by_cases same : other = file
  · subst same
    cases found : table.find? other line with
    | none => rw [amended.unfound found]
    | some location =>
      obtain ⟨-, before, rest, divided, -, result⟩ := amended.found location found
      rw [divided, result]
      simpa using (kept location).append_right (rest.map Location.id)
  · rw [amended.elsewhere other same]

/-! ## Any change -/

theorem nextId_change (table : Table) (change : Change) :
    (table.change change).nextId = table.nextId + (table.installs change).length := by
  cases change with
  | replace file wanted => exact congrArg (table.nextId + ·) (length_number table.nextId wanted).symm
  | clear | move => rfl

theorem ids_installs (table : Table) (change : Change) :
    (table.installs change).map Location.id = List.range' table.nextId (table.installs change).length := by
  cases change with
  | replace file wanted =>
    have given : table.installs (.replace file wanted) = number table.nextId wanted := rfl
    rw [given, ids_number, length_number]
  | clear | move => rfl

theorem ids_replace (table : Table) (file other : String) (wanted : List Wanted) :
    (table.replace file wanted).2.ids other =
      if file = other then List.range' table.nextId wanted.length else table.ids other := by
  rw [ids, locations_replace]
  split
  · exact ids_number _ _
  · rfl

/-- The ids of a file are given anew or are some of those it had. -/
theorem ids_change (table : Table) (change : Change) (file : String) :
    (∃ wanted, change = .replace file wanted ∧
      (table.change change).ids file = List.range' table.nextId wanted.length) ∨
      ((table.change change).ids file).Sublist (table.ids file) := by
  cases change with
  | replace changed wanted =>
    rw [change, ids_replace]
    split
    · next same => exact .inl ⟨wanted, same ▸ rfl, rfl⟩
    · exact .inr (.refl _)
  | clear changed line => exact .inr ((clearLine_amended table changed line).ids (fun _ => List.nil_sublist _) file)
  | move changed line newLine =>
    exact .inr ((moveLine_amended table changed line newLine).ids (fun _ => .refl _) file)

theorem nextId_le_change (table : Table) (change : Change) : table.nextId ≤ (table.change change).nextId := by
  rw [nextId_change]
  exact Nat.le_add_right _ _

/-- Whatever is in a table after a change was there before or is new. -/
theorem held_change {table : Table} (change : Change) {file : String} {id : Nat}
    (held : id ∈ (table.change change).ids file) : id ∈ table.ids file ∨ table.nextId ≤ id := by
  rcases ids_change table change file with ⟨wanted, -, fresh⟩ | kept
  · rw [fresh] at held
    exact .inr (List.mem_range'_1.mp held).1
  · exact .inl (kept.subset held)

/-- Every id is below the next one, the ids of a file increase, and none is in two files. -/
structure Numbered (table : Table) : Prop where
  below : ∀ file, ∀ id ∈ table.ids file, id < table.nextId
  ordered : ∀ file, (table.ids file).Pairwise (· < ·)
  apart : ∀ file other id, id ∈ table.ids file → id ∈ table.ids other → file = other

theorem numbered_empty : empty.Numbered := ⟨nofun, fun _ => .nil, nofun⟩

theorem Numbered.change {table : Table} (numbered : table.Numbered) (change : Change) :
    (table.change change).Numbered where
  below file id held := by
    rcases ids_change table change file with ⟨wanted, rfl, fresh⟩ | kept
    · rw [fresh] at held
      exact (List.mem_range'_1.mp held).2
    · exact Nat.lt_of_lt_of_le (numbered.below file id (kept.subset held)) (nextId_le_change table change)
  ordered file := by
    rcases ids_change table change file with ⟨wanted, -, fresh⟩ | kept
    · rw [fresh]
      exact List.pairwise_lt_range'
    · exact (numbered.ordered file).sublist kept
  apart file other id held also := by
    -- an id that is new is so in both files, and only one file has new ones
    rcases ids_change table change file with ⟨wanted, rfl, fresh⟩ | kept
    · rcases ids_change table (.replace file wanted) other with ⟨_, same, -⟩ | kept
      · exact (Change.replace.inj same).1
      · rw [fresh] at held
        have old := numbered.below other id (kept.subset also)
        exact absurd (List.mem_range'_1.mp held).1 (Nat.not_le.mpr old)
    · have old := numbered.below file id (kept.subset held)
      rcases held_change _ also with earlier | new
      · exact numbered.apart file other id (kept.subset held) earlier
      · exact absurd new (Nat.not_le.mpr old)

theorem installed_append (table : Table) (first second : List Change) :
    table.installed (first ++ second) = table.installed first ++ (table.changes first).installed second := by
  induction first generalizing table with
  | nil => rfl
  | cons change rest ih => rw [List.cons_append, installed, ih, installed, List.append_assoc]; rfl

theorem Numbered.changes {table : Table} (numbered : table.Numbered) (changes : List Change) :
    (table.changes changes).Numbered := by
  induction changes generalizing table with
  | nil => exact numbered
  | cons change rest ih => exact ih (numbered.change change)

theorem ids_installed (table : Table) (changes : List Change) :
    (table.installed changes).map Location.id = List.range' table.nextId (table.installed changes).length ∧
      (table.changes changes).nextId = table.nextId + (table.installed changes).length := by
  induction changes generalizing table with
  | nil => exact ⟨rfl, rfl⟩
  | cons change rest ih =>
    obtain ⟨ids, nextId⟩ := ih (table.change change)
    rw [nextId_change] at ids nextId
    constructor
    · rw [installed, List.map_append, ids, ids_installs, List.range'_append_1, List.length_append]
    · rw [installed, List.length_append, ← Nat.add_assoc]
      exact nextId

/-! ## Ids that are given away -/

def OnlyIn (table : Table) (files : String → Prop) (id : Nat) : Prop :=
  id < table.nextId ∧ ∀ file, id ∈ table.ids file → files file

abbrev Gone (table : Table) (id : Nat) : Prop := table.OnlyIn (fun _ => False) id

theorem OnlyIn.change {table : Table} {files : String → Prop} {id : Nat} (only : table.OnlyIn files id)
    (change : Change) : (table.change change).OnlyIn files id := by
  refine ⟨Nat.lt_of_lt_of_le only.1 (nextId_le_change table change), fun file held => ?_⟩
  rcases held_change _ held with earlier | new
  · exact only.2 file earlier
  · exact absurd new (Nat.not_le.mpr only.1)

theorem OnlyIn.changes {table : Table} {files : String → Prop} {id : Nat} (only : table.OnlyIn files id)
    (changes : List Change) : (table.changes changes).OnlyIn files id := by
  induction changes generalizing table with
  | nil => exact only
  | cons change rest ih => exact ih (only.change change)

theorem OnlyIn.uninstalled {table : Table} {files : String → Prop} {id : Nat} (only : table.OnlyIn files id)
    (file : String) (wanted : List Wanted) : id ∉ (table.replace file wanted).1.installed.map Location.id := by
  intro member
  have given : id ∈ (number table.nextId wanted).map Location.id := member
  rw [ids_number] at given
  exact absurd (List.mem_range'_1.mp given).1 (Nat.not_le.mpr only.1)

theorem OnlyIn.replaced {table : Table} {file : String} {id : Nat} (only : table.OnlyIn (· = file) id)
    (wanted : List Wanted) : (table.replace file wanted).2.Gone id := by
  refine ⟨(only.change (.replace file wanted)).1, fun other held => ?_⟩
  rw [ids_replace] at held
  split at held
  · exact absurd (List.mem_range'_1.mp held).1 (Nat.not_le.mpr only.1)
  · next different => exact different (only.2 other held).symm

theorem installs_onlyIn (table : Table) (numbered : table.Numbered) (file : String) (wanted : List Wanted)
    {id : Nat} (member : id ∈ (table.replace file wanted).1.installed.map Location.id) :
    (table.replace file wanted).2.OnlyIn (· = file) id := by
  have after := numbered.change (.replace file wanted)
  have held : id ∈ (table.replace file wanted).2.ids file := by
    rw [ids, locations_replace, if_pos rfl]
    exact member
  exact ⟨after.below file id held, fun other also => after.apart other file id also held⟩

theorem mem_ids_of_find? {table : Table} {file : String} {line : Int64} {location : Location}
    (found : table.find? file line = some location) : location.id ∈ table.ids file :=
  List.mem_map_of_mem (List.mem_of_find?_eq_some found)

/-- A breakpoint that the engine drops is gone. -/
theorem Numbered.cleared {table : Table} (numbered : table.Numbered) {file : String} {line : Int64}
    {location : Location} (found : table.find? file line = some location) :
    (table.clearLine file line).2.Gone location.id := by
  have held := mem_ids_of_find? found
  have below := numbered.below file location.id held
  refine ⟨below, fun other still => ?_⟩
  have before : location.id ∈ table.ids other :=
    (held_change (.clear file line) still).resolve_right (Nat.not_le.mpr below)
  obtain rfl := numbered.apart file other location.id held before
  obtain ⟨-, earlier, rest, divided, -, result⟩ := (clearLine_amended table file line).found location found
  have ordered := numbered.ordered file
  rw [ids, divided] at ordered
  rw [ids, result] at still
  simp only [List.map_append, List.map_cons, List.pairwise_append, List.pairwise_cons] at ordered
  simp only [List.append_nil, List.map_append, List.mem_append] at still
  rcases still with still | still
  · exact Nat.lt_irrefl _ (ordered.2.2 location.id still location.id List.mem_cons_self)
  · exact Nat.lt_irrefl _ (ordered.2.1.1 location.id still)

/-! ## Runs -/

/-- What a run of changes does with ids, from a table without breakpoints, and what a change by the engine does
after it. -/
structure Identified (changes : List Change) : Prop where
  increasing : ((empty.installed changes).map Location.id).Pairwise (· < ·)
  next : (empty.changes changes).nextId = (empty.installed changes).length
  numbered : (empty.changes changes).Numbered
  origin : ∀ file, ∀ id ∈ (empty.changes changes).ids file, id ∈ (empty.installed changes).map Location.id
  cleared : ∀ file line, Amended (empty.changes changes) ((empty.changes changes).clearLine file line).2 file line
    fun _ => []
  moved : ∀ file line newLine, Amended (empty.changes changes)
    ((empty.changes changes).moveLine file line newLine).2 file line
    fun location => [{ location with line := newLine }]

theorem identified (changes : List Change) : Identified changes := by
  obtain ⟨ids, next⟩ := ids_installed empty changes
  have numbered := numbered_empty.changes changes
  refine ⟨?_, next.trans (Nat.zero_add _), numbered, ?_, clearLine_amended _, moveLine_amended _⟩
  · rw [ids]
    exact List.pairwise_lt_range'
  · intro file id held
    rw [ids]
    exact List.mem_range'_1.mpr ⟨Nat.zero_le id, next ▸ numbered.below file id held⟩

end Table

end DebugBridge.Breakpoint
