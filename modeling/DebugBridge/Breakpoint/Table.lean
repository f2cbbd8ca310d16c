import DebugBridge.Engine.Command
import DebugBridge.Text.Blank

/-! The breakpoints of a session, by engine file, in the order in which the files were last set.

The engine keeps a table of its own, which it may clear or move entries of. This one follows it, so that a
stop at a line can be traced back to the breakpoint that was asked for. -/

set_option autoImplicit false

namespace DebugBridge.Breakpoint

/-- The integer a text begins with, after white space and one sign. The digits alone must fit into 63 bits;
if they do not, or if there are none, it is 0. -/
def leadingInteger (text : List Char) : Int64 :=
  let body := Text.trimStart text
  let negative := body.head? = some '-'
  let unsigned := if negative ∨ body.head? = some '+' then body.tail else body
  -- the limit is the same for both signs, so the least 64-bit integer is out of reach
  match Text.Decimal.readUnsigned (0x7FFFFFFFFFFFFFFF) (unsigned.takeWhile Char.isDigit) with
  | .ok n => Int64.ofInt (if negative then -(n : Int) else n)
  | .error _ => 0

def hitCount (hitCondition : Option String) : Int64 :=
  match hitCondition with
  | some text => leadingInteger text.toList
  | none => 0

structure Wanted where
  line : Int64
  condition : Option String
  hitCondition : Option String
  deriving DecidableEq, Repr

structure Location where
  id : Nat
  line : Int64
  condition : Option String
  hitCondition : Option String
  deriving DecidableEq, Repr

/-- An empty condition is none. -/
def Location.command (file : String) (location : Location) : Engine.Command :=
  .setBreakpoint file location.line (hitCount location.hitCondition)
    (location.condition.filter fun condition => condition != "")

/-- Ids are given in order and never again. -/
structure Table where
  nextId : Nat
  files : List (String × List Location)
  deriving DecidableEq, Repr

/-- What replacing the breakpoints of a file amounts to; the commands clear first. -/
structure Update where
  commands : List Engine.Command
  installed : List Location
  deriving DecidableEq, Repr

namespace Table

def empty : Table := ⟨0, []⟩

def locations (table : Table) (file : String) : List Location := (table.files.lookup file).getD []

def number (id : Nat) : List Wanted → List Location
  | [] => []
  | wanted :: rest => ⟨id, wanted.line, wanted.condition, wanted.hitCondition⟩ :: number (id + 1) rest

def replace (table : Table) (file : String) (wanted : List Wanted) : Update × Table :=
  let installed := number table.nextId wanted
  let clears := (table.locations file).map fun location => Engine.Command.clearBreakpoint file location.line
  (⟨clears ++ installed.map (Location.command file), installed⟩,
    -- the file goes to the end even if it was there before
    ⟨table.nextId + wanted.length,
      (table.files.filter fun entry => entry.1 != file) ++ [(file, installed)]⟩)

/-- The commands that build the table in an engine without breakpoints. -/
def replay (table : Table) : List Engine.Command :=
  table.files.flatMap fun (file, locations) => locations.map (Location.command file)

def find? (table : Table) (file : String) (line : Int64) : Option Location :=
  (table.locations file).find? fun location => location.line == line

def modifyFile (table : Table) (file : String) (change : List Location → List Location) : Table :=
  { table with files := table.files.map fun entry =>
      if entry.1 = file then (file, change entry.2) else entry }

/-- The engine dropped the breakpoint at a line; the entry that goes, if there is one. -/
def clearLine (table : Table) (file : String) (line : Int64) : Option Location × Table :=
  (table.find? file line, table.modifyFile file (·.eraseP fun location => location.line == line))

def moveFirst (line newLine : Int64) : List Location → List Location
  | [] => []
  | location :: rest =>
    if location.line = line then { location with line := newLine } :: rest
    else location :: moveFirst line newLine rest

def moveLine (table : Table) (file : String) (line newLine : Int64) : Option Location × Table :=
  ((table.find? file line).map fun location => { location with line := newLine },
    table.modifyFile file (moveFirst line newLine))

end Table

end DebugBridge.Breakpoint
