import DebugBridge.Proofs.Breakpoint.Identity

/-! What stands at a line, before and after the engine has changed something there.

The engine has one breakpoint at a line and the table may have several, one after the other. A change by the
engine is made to the first of them, and the next one takes its place. -/

set_option autoImplicit false

namespace DebugBridge.Breakpoint.Table

/-- The breakpoints at a line, in the order in which they were asked for. -/
def standing (table : Table) (file : String) (line : Int64) : List Location :=
  (table.locations file).filter fun location => location.line == line

theorem find?_standing (table : Table) (file : String) (line : Int64) :
    table.find? file line = (table.standing file line).head? :=
  List.head?_filter.symm

theorem standing_of_locations {table after : Table} {file : String}
    (same : after.locations file = table.locations file) (line : Int64) :
    after.standing file line = table.standing file line := by
  rw [standing, standing, same]

theorem filter_away {line : Int64} {locations : List Location}
    (away : ∀ location ∈ locations, location.line ≠ line) :
    locations.filter (fun location => location.line == line) = [] := by
  rw [List.filter_eq_nil_iff]
  intro location member here
  exact away location member (beq_iff_eq.mp here)

/-! ## A change by the engine -/

section

variable {table after : Table} {file : String} {line : Int64} {amend : Location → List Location}

/-- Where the first breakpoint of a line gives way to nothing at that line, the others move up. -/
theorem Amended.standing_tail (amended : Amended table after file line amend)
    (away : ∀ location, ∀ other ∈ amend location, other.line ≠ line) :
    after.standing file line = (table.standing file line).tail := by
  cases found : table.find? file line with
  | none =>
    have empty : table.standing file line = [] := filter_away (elsewhere_of_find? found)
    rw [standing_of_locations (amended.unfound found), empty]
    rfl
  | some location =>
    obtain ⟨here, before, rest, divided, first, result⟩ := amended.found location found
    rw [standing, standing, divided, result]
    rw [List.filter_append, List.filter_append, List.filter_append, filter_away first, filter_away (away location),
      List.filter_cons_of_pos (by rw [beq_iff_eq]; exact here)]
    rfl

theorem Amended.standing_sublist {other : Int64} (amended : Amended table after file line amend)
    (spared : ∀ location, ∀ new ∈ amend location, new.line ≠ other) (anywhere : String) :
    (after.standing anywhere other).Sublist (table.standing anywhere other) := by
  by_cases same : anywhere = file
  · subst same
    cases found : table.find? anywhere line with
    | none => rw [standing_of_locations (amended.unfound found)]
    | some location =>
      obtain ⟨-, before, rest, divided, -, result⟩ := amended.found location found
      rw [standing, standing, divided, result, List.filter_append, List.filter_append, List.filter_append,
        filter_away (spared location), List.append_nil]
      exact ((List.sublist_cons_self location rest).filter _).append_left _
  · rw [standing_of_locations (amended.elsewhere anywhere same)]

end

theorem standing_clearLine (table : Table) (file : String) (line : Int64) :
    (table.clearLine file line).2.standing file line = (table.standing file line).tail :=
  (clearLine_amended table file line).standing_tail nofun

theorem standing_moveLine (table : Table) (file : String) {line newLine : Int64} (different : newLine ≠ line) :
    (table.moveLine file line newLine).2.standing file line = (table.standing file line).tail := by
  refine (moveLine_amended table file line newLine).standing_tail fun location other member => ?_
  rw [List.mem_singleton.mp member]
  exact different

/-! ## Lines with one breakpoint at most -/

def Single (table : Table) : Prop := ∀ file, ((table.locations file).map Location.line).Nodup

/-- A change that brings no second breakpoint to a line: a request names each line once, and the engine moves a
breakpoint to a line that has none. -/
def Spaced (table : Table) : Change → Prop
  | .replace _ wanted => (wanted.map Wanted.line).Nodup
  | .clear _ _ => True
  | .move file line newLine =>
    newLine = line ∨ table.find? file line = none ∨ table.find? file newLine = none

def AllSpaced (table : Table) : List Change → Prop
  | [] => True
  | change :: rest => table.Spaced change ∧ AllSpaced (table.change change) rest

theorem lines_number (id : Nat) (wanted : List Wanted) :
    (number id wanted).map Location.line = wanted.map Wanted.line := by
  induction wanted generalizing id with
  | nil => rfl
  | cons first rest ih => exact congrArg (first.line :: ·) (ih (id + 1))

theorem single_empty : empty.Single := fun _ => .nil

theorem Single.standing_length {table : Table} (single : table.Single) (file : String) (line : Int64) :
    (table.standing file line).length ≤ 1 := by
  have once := List.nodup_iff_count_le_one.mp (single file) line
  rwa [List.count_eq_countP, List.countP_map, List.countP_eq_length_filter] at once

theorem nodup_moved {before rest : List Int64} {line newLine : Int64} (once : (before ++ line :: rest).Nodup)
    (free : newLine ∉ before ++ line :: rest) : (before ++ newLine :: rest).Nodup := by
  simp only [List.nodup_append, List.nodup_cons, List.mem_append, List.mem_cons, not_or] at once free ⊢
  grind

theorem Amended.single {table after : Table} {file : String} {line : Int64} {amend : Location → List Location}
    (amended : Amended table after file line amend) (single : table.Single)
    (kept : ∀ before location rest, table.find? file line = some location →
      table.locations file = before ++ location :: rest → location.line = line →
      ((before ++ amend location ++ rest).map Location.line).Nodup) : after.Single := by
  intro anywhere
  by_cases same : anywhere = file
  · subst same
    cases found : table.find? anywhere line with
    | none =>
      rw [amended.unfound found]
      exact single anywhere
    | some location =>
      obtain ⟨here, before, rest, divided, -, result⟩ := amended.found location found
      rw [result]
      exact kept before location rest found divided here
  · rw [amended.elsewhere anywhere same]
    exact single anywhere

theorem Single.change {table : Table} (single : table.Single) {change : Change} (spaced : table.Spaced change) :
    (table.change change).Single := by
  cases change with
  | replace changed wanted =>
    intro file
    rw [Table.change, locations_replace]
    split
    · rw [show (table.replace changed wanted).1.installed = number table.nextId wanted from rfl, lines_number]
      exact spaced
    · exact single file
  | clear file line =>
    refine (clearLine_amended table file line).single single fun before location rest _ divided _ => ?_
    have once := single file
    rw [divided] at once
    rw [List.append_nil]
    exact once.sublist (((List.sublist_cons_self location rest).append_left before).map _)
  | move file line newLine =>
    -- the new line takes the place of the old one among the lines of the file
    refine (moveLine_amended table file line newLine).single single fun before location rest found divided here => ?_
    have once := single file
    rw [divided, List.map_append, List.map_cons, here] at once
    rw [List.append_assoc, List.map_append, List.singleton_append, List.map_cons]
    rcases spaced with rfl | unfound | free
    · exact once
    · cases found.symm.trans unfound
    · refine nodup_moved once fun held => ?_
      have away := elsewhere_of_find? free
      rw [divided] at away
      rw [← here, ← List.map_cons, ← List.map_append] at held
      obtain ⟨other, member, arrived⟩ := List.mem_map.mp held
      exact away other member arrived

theorem Single.changes {table : Table} (single : table.Single) {changes : List Change}
    (spaced : table.AllSpaced changes) : (table.changes changes).Single := by
  induction changes generalizing table with
  | nil => exact single
  | cons change rest ih => exact ih (single.change spaced.1) spaced.2

/-- What the engine leaves at the old line when it drops or moves a breakpoint that is tracked there: nothing, just
if no other breakpoint stands at that line. -/
structure LeavesBehind (table : Table) : Prop where
  cleared : ∀ file line location, (table.clearLine file line).1 = some location →
    ((table.clearLine file line).2.find? file line = none ↔ (table.standing file line).length = 1)
  moved : ∀ file line newLine location, newLine ≠ line → (table.moveLine file line newLine).1 = some location →
    ((table.moveLine file line newLine).2.find? file line = none ↔ (table.standing file line).length = 1)

theorem head?_tail_eq_none {locations : List Location} {first : Location} (head : locations.head? = some first) :
    locations.tail.head? = none ↔ locations.length = 1 := by
  obtain ⟨rest, rfl⟩ := List.head?_eq_some_iff.mp head
  cases rest <;> simp

theorem leavesBehind (table : Table) : table.LeavesBehind where
  cleared file line location found := by
    have head : (table.standing file line).head? = some location := (find?_standing table file line).symm.trans found
    rw [find?_standing, standing_clearLine]
    exact head?_tail_eq_none head
  moved file line newLine location different found := by
    obtain ⟨old, found, -⟩ := Option.map_eq_some_iff.mp found
    have head : (table.standing file line).head? = some old := (find?_standing table file line).symm.trans found
    rw [find?_standing, standing_moveLine table file different]
    exact head?_tail_eq_none head

end DebugBridge.Breakpoint.Table
