import DebugBridge.Breakpoint.Table
import DebugBridge.Proofs.Entries

/-! The engine's own breakpoints, and how the commands that follow a change of the table bring them to what a
replay of the changed table would set. -/

set_option autoImplicit false

namespace DebugBridge.Breakpoint

/-- What the engine keeps for a line of a file: the hit count and the condition. -/
abbrev Board := String → Int64 → Option (Int64 × Option String)

def Location.entry (location : Location) : Int64 × Option String :=
  (hitCount location.hitCondition, location.condition.filter fun condition => condition != "")

namespace Board

def bare : Board := fun _ _ => none

def put (board : Board) (file : String) (line : Int64) (entry : Option (Int64 × Option String)) : Board :=
  fun otherFile otherLine => if file = otherFile ∧ line = otherLine then entry else board otherFile otherLine

/-- Setting overwrites, clearing deletes, and nothing else matters. -/
def execute (board : Board) : Engine.Command → Board
  | .setBreakpoint file line hitCount condition => board.put file line (some (hitCount, condition))
  | .clearBreakpoint file line => board.put file line none
  | _ => board

def executeAll (board : Board) (commands : List Engine.Command) : Board := commands.foldl execute board

def move (board : Board) (file : String) (line newLine : Int64) : Board :=
  match board file line with
  | none => board
  | some entry => (board.put file line none).put file newLine (some entry)

theorem executeAll_append (board : Board) (first second : List Engine.Command) :
    board.executeAll (first ++ second) = (board.executeAll first).executeAll second :=
  List.foldl_append

end Board

def settle (line : Int64) (held : Option (Int64 × Option String)) (locations : List Location) :
    Option (Int64 × Option String) :=
  locations.foldl (fun held location => if location.line = line then some location.entry else held) held

theorem settle_cons (line : Int64) (held : Option (Int64 × Option String)) (location : Location)
    (rest : List Location) : settle line held (location :: rest) =
      settle line (if location.line = line then some location.entry else held) rest := rfl

theorem settle_elsewhere {line : Int64} {locations : List Location} (held : Option (Int64 × Option String))
    (elsewhere : ∀ location ∈ locations, location.line ≠ line) : settle line held locations = held := by
  induction locations with
  | nil => rfl
  | cons location rest ih =>
    obtain ⟨first, later⟩ := List.forall_mem_cons.mp elsewhere
    rw [settle_cons, if_neg first]
    exact ih later

/-- The last breakpoint at a line decides, whatever stood there before. -/
theorem settle_here {line : Int64} {locations : List Location} (here : ∃ location ∈ locations, location.line = line)
    (held other : Option (Int64 × Option String)) : settle line held locations = settle line other locations := by
  induction locations generalizing held other with
  | nil => simp at here
  | cons location rest ih =>
    rw [settle_cons, settle_cons]
    by_cases first : location.line = line
    · rw [if_pos first, if_pos first]
    · rw [if_neg first, if_neg first]
      exact ih (by simpa [first] using here) _ _

theorem settle_again (line : Int64) (locations : List Location) :
    settle line (settle line none locations) locations = settle line none locations := by
  by_cases here : ∃ location ∈ locations, location.line = line
  · exact settle_here here _ _
  · exact settle_elsewhere _ fun location member same => here ⟨location, member, same⟩

def countAt (line : Int64) (locations : List Location) : Nat :=
  locations.countP fun location => location.line == line

theorem countAt_here {line : Int64} {location : Location} (here : location.line = line) (rest : List Location) :
    countAt line (location :: rest) = countAt line rest + 1 := by
  simp [countAt, here]

theorem countAt_away {line : Int64} {location : Location} (away : location.line ≠ line) (rest : List Location) :
    countAt line (location :: rest) = countAt line rest := by
  simp [countAt, away]

theorem elsewhere_of_countAt {line : Int64} {locations : List Location} (none : countAt line locations = 0) :
    ∀ location ∈ locations, location.line ≠ line := by
  intro location member here
  exact List.countP_eq_zero.mp none location member (beq_iff_eq.mpr here)

/-! ## Commands on the engine's breakpoints -/

namespace Board

theorem put_elsewhere (board : Board) {file otherFile : String} (line otherLine : Int64)
    (entry : Option (Int64 × Option String)) (other : file ≠ otherFile) :
    board.put file line entry otherFile otherLine = board otherFile otherLine :=
  if_neg fun same => other same.1

theorem put_there (board : Board) (file : String) (line otherLine : Int64)
    (entry : Option (Int64 × Option String)) :
    board.put file line entry file otherLine = if line = otherLine then entry else board file otherLine := by
  simp [put]

theorem executeAll_sets (board : Board) (file otherFile : String) (line : Int64) (locations : List Location) :
    board.executeAll (locations.map (Location.command file)) otherFile line =
      if file = otherFile then settle line (board otherFile line) locations else board otherFile line := by
  induction locations generalizing board with
  | nil => simp [executeAll, settle]
  | cons location rest ih =>
    have first : board.execute (location.command file) = board.put file location.line (some location.entry) := rfl
    rw [List.map_cons, executeAll, List.foldl_cons, ← executeAll, ih, settle_cons, first]
    by_cases same : file = otherFile
    · subst same
      rw [put_there, if_pos rfl, if_pos rfl]
    · rw [if_neg same, if_neg same, put_elsewhere _ _ _ _ same]

theorem executeAll_clears (board : Board) (file otherFile : String) (line : Int64) (locations : List Location) :
    board.executeAll (locations.map fun location => .clearBreakpoint file location.line) otherFile line =
      if file = otherFile ∧ ∃ location ∈ locations, location.line = line then none else board otherFile line := by
  induction locations generalizing board with
  | nil => simp [executeAll]
  | cons location rest ih =>
    have first : board.execute (.clearBreakpoint file location.line) = board.put file location.line none := rfl
    rw [List.map_cons, executeAll, List.foldl_cons, ← executeAll, ih, first]
    by_cases same : file = otherFile
    · subst same
      rw [put_there]
      by_cases here : location.line = line
      · simp [here]
      · simp [here]
    · rw [if_neg fun both => same both.1, if_neg fun both => same both.1, put_elsewhere _ _ _ _ same]

theorem executeAll_files (board : Board) (file : String) (line : Int64) {files : List (String × List Location)}
    (once : (files.map Prod.fst).Nodup) :
    board.executeAll (files.flatMap fun entry => entry.2.map (Location.command entry.1)) file line =
      settle line (board file line) ((files.lookup file).getD []) := by
  induction files generalizing board with
  | nil => rfl
  | cons entry rest ih =>
    obtain ⟨first, locations⟩ := entry
    rw [List.map_cons, List.nodup_cons] at once
    rw [List.flatMap_cons, executeAll_append, ih _ once.2, executeAll_sets]
    by_cases same : first = file
    · subst same
      have absent : rest.lookup first = none := by
        apply List.lookup_eq_none_iff.mpr
        intro entry member
        apply bne_iff_ne.mpr
        intro same
        exact once.1 (List.mem_map.mpr ⟨entry, member, same.symm⟩)
      rw [if_pos rfl, absent, List.lookup_cons_self]
      rfl
    · rw [if_neg same, Entries.lookup_cons_of_ne _ _ (Ne.symm same)]

end Board

namespace Table

def Distinct (table : Table) : Prop := (table.files.map Prod.fst).Nodup

def tracked (table : Table) (file : String) (line : Int64) : Nat := countAt line (table.locations file)

theorem replay_board {table : Table} (distinct : table.Distinct) (file : String) (line : Int64) :
    Board.bare.executeAll table.replay file line = settle line none (table.locations file) :=
  Board.executeAll_files Board.bare file line distinct

theorem distinct_empty : empty.Distinct := List.nodup_nil

theorem replace_distinct {table : Table} (distinct : table.Distinct) (file : String) (wanted : List Wanted) :
    (table.replace file wanted).2.Distinct := by
  have kept : (table.files.filter fun entry => entry.1 != file).Sublist table.files := List.filter_sublist
  rw [Distinct, replace, List.map_append]
  refine List.nodup_append.mpr ⟨distinct.sublist (kept.map _), List.nodup_singleton _, ?_⟩
  intro other member last among
  obtain ⟨entry, held, rfl⟩ := List.mem_map.mp member
  rw [List.mem_singleton.mp among]
  exact bne_iff_ne.mp (List.mem_filter.mp held).2

theorem locations_replace (table : Table) (file otherFile : String) (wanted : List Wanted) :
    (table.replace file wanted).2.locations otherFile =
      if file = otherFile then (table.replace file wanted).1.installed else table.locations otherFile := by
  have looked : (table.replace file wanted).2.files.lookup otherFile =
      if file = otherFile then some (table.replace file wanted).1.installed else table.files.lookup otherFile := by
    rw [replace, List.lookup_append, Entries.lookup_filter_key]
    by_cases same : file = otherFile
    · subst same
      simp
    · rw [if_neg (Ne.symm same), if_neg same, Entries.lookup_cons_of_ne _ _ (Ne.symm same), List.lookup_nil,
        Option.or_none]
  rw [locations, looked]
  split <;> rfl

theorem replay_elsewhere {table : Table} (distinct : table.Distinct) {file otherFile : String} (wanted : List Wanted)
    (other : file ≠ otherFile) : Board.bare.executeAll (table.replace file wanted).2.replay otherFile =
      Board.bare.executeAll table.replay otherFile := by
  funext line
  rw [replay_board (replace_distinct distinct file wanted), locations_replace, if_neg other, replay_board distinct]

/-- Replacing the breakpoints of a file takes the engine along, if it was told of them or knew none. -/
theorem executeAll_update {table : Table} (distinct : table.Distinct) {file : String} (wanted : List Wanted)
    {board : Board} (told : board file = Board.bare file ∨ board file = Board.bare.executeAll table.replay file)
    (otherFile : String) : board.executeAll (table.replace file wanted).1.commands otherFile =
      if file = otherFile then Board.bare.executeAll (table.replace file wanted).2.replay otherFile
      else board otherFile := by
  have commands : (table.replace file wanted).1.commands =
      (table.locations file).map (fun location => .clearBreakpoint file location.line) ++
        (table.replace file wanted).1.installed.map (Location.command file) := rfl
  funext line
  rw [commands, Board.executeAll_append, Board.executeAll_sets, Board.executeAll_clears]
  by_cases same : file = otherFile
  · subst same
    rw [if_pos rfl, if_pos rfl, replay_board (replace_distinct distinct file wanted), locations_replace, if_pos rfl]
    congr 1
    split
    · rfl
    · next elsewhere =>
      -- the engine knows nothing of a line at which nothing is tracked
      rcases told with told | told
      · rw [told]
        rfl
      · rw [told, replay_board distinct]
        exact settle_elsewhere none fun location member here => elsewhere ⟨rfl, location, member, here⟩
  · rw [if_neg same, if_neg same, if_neg fun both => same both.1]

theorem replace_board {table : Table} (distinct : table.Distinct) (file : String) (wanted : List Wanted) :
    (Board.bare.executeAll table.replay).executeAll (table.replace file wanted).1.commands =
      Board.bare.executeAll (table.replace file wanted).2.replay := by
  funext otherFile
  rw [executeAll_update distinct wanted (.inr rfl)]
  split
  · rfl
  · next other => exact (replay_elsewhere distinct wanted other).symm

/-! ## An engine that was told of some files -/

/-- Of each file the engine has been told everything or nothing. -/
def PartlyOn (table : Table) (board : Board) : Prop :=
  ∀ file, board file = Board.bare file ∨ board file = Board.bare.executeAll table.replay file

theorem PartlyOn.replay {table : Table} {board : Board} (partly : table.PartlyOn board) (distinct : table.Distinct) :
    board.executeAll table.replay = Board.bare.executeAll table.replay := by
  funext file line
  have told : board.executeAll table.replay file line = settle line (board file line) (table.locations file) :=
    Board.executeAll_files board file line distinct
  rw [told]
  rcases partly file with same | same
  · rw [same, replay_board distinct]
    rfl
  · rw [same, replay_board distinct, settle_again]

theorem PartlyOn.replace {table : Table} {board : Board} (partly : table.PartlyOn board) (distinct : table.Distinct)
    (file : String) (wanted : List Wanted) :
    (table.replace file wanted).2.PartlyOn (board.executeAll (table.replace file wanted).1.commands) := by
  intro otherFile
  rw [executeAll_update distinct wanted (partly file)]
  by_cases same : file = otherFile
  · rw [if_pos same]
    exact .inr rfl
  · rw [if_neg same, replay_elsewhere distinct wanted same]
    exact partly otherFile

/-! ## Changes by the engine -/

theorem modifyFile_distinct {table : Table} (distinct : table.Distinct) (file : String)
    (change : List Location → List Location) : (table.modifyFile file change).Distinct := by
  have keys : (table.modifyFile file change).files.map Prod.fst = table.files.map Prod.fst := by
    rw [modifyFile, List.map_map]
    refine List.map_congr_left fun entry _ => ?_
    show (if entry.1 = file then (file, change entry.2) else entry).1 = entry.1
    split
    · next same => exact same.symm
    · rfl
  rw [Distinct, keys]
  exact distinct

theorem locations_modifyFile (table : Table) (file otherFile : String) (change : List Location → List Location)
    (nothing : change [] = []) :
    (table.modifyFile file change).locations otherFile =
      if file = otherFile then change (table.locations file) else table.locations otherFile := by
  have byKey : (table.modifyFile file change).files =
      table.files.map fun entry => (entry.1, if entry.1 = file then change entry.2 else entry.2) := by
    refine List.map_congr_left fun entry _ => ?_
    split
    · next same => rw [same]
    · rfl
  rw [locations, byKey, Entries.lookup_map_value fun key held => if key = file then change held else held]
  by_cases same : file = otherFile
  · subst same
    rw [if_pos rfl, locations]
    cases table.files.lookup file with
    | none => exact nothing.symm
    | some held => simp
  · rw [if_neg same, locations]
    cases table.files.lookup otherFile with
    | none => rfl
    | some held => simp [Ne.symm same]

theorem settle_eraseP {gone : Int64} {locations : List Location}
    (once : countAt gone locations ≤ 1) (line : Int64)
    (held : Option (Int64 × Option String)) :
    settle line held (locations.eraseP fun location => location.line == gone) =
      if gone = line then held else settle line held locations := by
  induction locations generalizing held with
  | nil => simp [settle]
  | cons location rest ih =>
    by_cases here : location.line = gone
    · rw [countAt_here here] at once
      have erased : (location :: rest).eraseP (fun location => location.line == gone) = rest := by
        simp [here]
      rw [erased]
      by_cases same : gone = line
      · subst same
        rw [if_pos rfl]
        exact settle_elsewhere held (elsewhere_of_countAt (by omega))
      · rw [if_neg same, settle_cons, if_neg (here ▸ same)]
    · rw [countAt_away here] at once
      have kept : (location :: rest).eraseP (fun location => location.line == gone) =
          location :: rest.eraseP fun location => location.line == gone := by
        simp [here]
      rw [kept, settle_cons, settle_cons, ih once]
      by_cases same : gone = line
      · subst same
        rw [if_pos rfl, if_pos rfl, if_neg here]
      · rw [if_neg same, if_neg same]

theorem settle_moveFirst_other {line newLine other : Int64} (notFrom : line ≠ other) (notTo : newLine ≠ other)
    (held : Option (Int64 × Option String)) (locations : List Location) :
    settle other held (moveFirst line newLine locations) = settle other held locations := by
  induction locations generalizing held with
  | nil => rfl
  | cons location rest ih =>
    rw [moveFirst]
    split
    · next here => rw [settle_cons, settle_cons, if_neg notTo, if_neg (here ▸ notFrom)]
    · rw [settle_cons, settle_cons, ih]

theorem settle_moveFirst_from {line newLine : Int64} (different : newLine ≠ line) {locations : List Location}
    (once : countAt line locations ≤ 1)
    (held : Option (Int64 × Option String)) : settle line held (moveFirst line newLine locations) = held := by
  induction locations generalizing held with
  | nil => rfl
  | cons location rest ih =>
    rw [moveFirst]
    split
    · next here =>
      rw [countAt_here here] at once
      rw [settle_cons, if_neg different]
      exact settle_elsewhere held (elsewhere_of_countAt (by omega))
    · next away =>
      rw [countAt_away away] at once
      rw [settle_cons, if_neg away, ih once]

theorem settle_moveFirst_to {line newLine : Int64} {locations : List Location}
    (once : countAt line locations ≤ 1)
    (free : countAt newLine locations = 0)
    (held : Option (Int64 × Option String)) :
    settle newLine held (moveFirst line newLine locations) = settle line held locations := by
  induction locations generalizing held with
  | nil => rfl
  | cons location rest ih =>
    obtain ⟨away, later⟩ := List.forall_mem_cons.mp (elsewhere_of_countAt free)
    rw [moveFirst]
    split
    · next here =>
      rw [countAt_here here] at once
      rw [settle_cons, settle_cons, if_pos rfl, if_pos here, settle_elsewhere _ later,
        settle_elsewhere _ (elsewhere_of_countAt (by omega))]
      rfl
    · next still =>
      rw [countAt_away still] at once
      rw [countAt_away away] at free
      rw [settle_cons, settle_cons, if_neg away, if_neg still, ih once free]

theorem settle_moveFirst {line newLine : Int64} {locations : List Location} (once : countAt line locations ≤ 1)
    (free : countAt newLine locations = 0) (other : Int64) :
    settle other none (moveFirst line newLine locations) =
      if newLine = other then settle line none locations
      else if line = other then none
      else settle other none locations := by
  by_cases arrival : newLine = other
  · subst arrival
    rw [if_pos rfl, settle_moveFirst_to once free]
  · rw [if_neg arrival]
    by_cases departure : line = other
    · subst departure
      rw [if_pos rfl, settle_moveFirst_from arrival once]
    · rw [if_neg departure, settle_moveFirst_other departure arrival]

/-- The engine drops the one breakpoint of a line. -/
theorem clearLine_board {table : Table} (distinct : table.Distinct) {file : String} {line : Int64}
    (once : table.tracked file line ≤ 1) :
    (Board.bare.executeAll table.replay).put file line none =
      Board.bare.executeAll (table.clearLine file line).2.replay := by
  funext otherFile otherLine
  have cleared : (table.clearLine file line).2.locations otherFile = _ := locations_modifyFile _ _ _ _ rfl
  have after : (table.clearLine file line).2.Distinct := modifyFile_distinct distinct file _
  rw [replay_board after, cleared]
  by_cases same : file = otherFile
  · subst same
    rw [Board.put_there, if_pos rfl, settle_eraseP once, replay_board distinct]
  · rw [Board.put_elsewhere _ _ _ _ same, if_neg same, replay_board distinct]

theorem moveLine_board {table : Table} (distinct : table.Distinct) {file : String} {line newLine : Int64}
    (once : table.tracked file line ≤ 1) (free : table.tracked file newLine = 0) :
    (Board.bare.executeAll table.replay).move file line newLine =
      Board.bare.executeAll (table.moveLine file line newLine).2.replay := by
  funext otherFile otherLine
  have moved : (table.moveLine file line newLine).2.locations otherFile = _ := locations_modifyFile _ _ _ _ rfl
  have after : (table.moveLine file line newLine).2.Distinct := modifyFile_distinct distinct file _
  have unset : settle newLine none (table.locations file) = none :=
    settle_elsewhere none (elsewhere_of_countAt free)
  rw [replay_board after, moved, Board.move, replay_board distinct]
  by_cases same : file = otherFile
  · subst same
    rw [if_pos rfl, settle_moveFirst once free]
    cases held : settle line none (table.locations file) with
    | none =>
      dsimp only
      rw [replay_board distinct]
      split
      · next arrival => rw [← arrival, unset]
      · split
        · next departure => rw [← departure, held]
        · rfl
    | some entry =>
      dsimp only
      rw [Board.put_there, Board.put_there, replay_board distinct]
  · rw [if_neg same]
    cases settle line none (table.locations file) with
    | none => exact replay_board distinct otherFile otherLine
    | some entry =>
      dsimp only
      rw [Board.put_elsewhere _ _ _ _ same, Board.put_elsewhere _ _ _ _ same, replay_board distinct]

/-- A change that leaves the breakpoints of its file alone changes nothing. -/
theorem modifyFile_board {table : Table} (distinct : table.Distinct) {file : String}
    {change : List Location → List Location} (nothing : change [] = [])
    (same : change (table.locations file) = table.locations file) :
    Board.bare.executeAll (table.modifyFile file change).replay = Board.bare.executeAll table.replay := by
  funext otherFile otherLine
  rw [replay_board (modifyFile_distinct distinct file change), locations_modifyFile _ _ _ _ nothing, same,
    replay_board distinct]
  split
  · next here => rw [here]
  · rfl

theorem moveFirst_elsewhere {line newLine : Int64} {locations : List Location}
    (elsewhere : ∀ location ∈ locations, location.line ≠ line) : moveFirst line newLine locations = locations := by
  induction locations with
  | nil => rfl
  | cons location rest ih =>
    obtain ⟨first, later⟩ := List.forall_mem_cons.mp elsewhere
    rw [moveFirst, if_neg first, ih later]

theorem elsewhere_of_find? {table : Table} {file : String} {line : Int64} (unfound : table.find? file line = none) :
    ∀ location ∈ table.locations file, location.line ≠ line := by
  intro location member here
  exact List.find?_eq_none.mp unfound location member (beq_iff_eq.mpr here)

end Table

end DebugBridge.Breakpoint
