import DebugBridge.Text.Separated

/-! Paths, as the components that slashes separate.

A path is rooted or not; a single dot and two dots are components of their own. -/

set_option autoImplicit false

namespace DebugBridge.Source

inductive Component where
  | current
  | parent
  | name (text : String)
  deriving DecidableEq, Repr

structure Path where
  rooted : Bool
  components : List Component
  deriving DecidableEq, Repr

namespace Component

def ofChars? : List Char → Option Component
  | [] => none
  | ['.'] => some .current
  | ['.', '.'] => some .parent
  | text => some (.name (String.ofList text))

def text : Component → String
  | .current => "."
  | .parent => ".."
  | .name text => text

end Component

namespace Path

def ofString (text : String) : Path :=
  ⟨text.toList.head? = some '/', (Text.split '/' text.toList).filterMap Component.ofChars?⟩

def chars (path : Path) : List Char :=
  (if path.rooted then ['/'] else []) ++ Text.join '/' (path.components.map (·.text.toList))

def text (path : Path) : String := String.ofList path.chars

/-- The second path seen from the first; a rooted one stands for itself. -/
def join (base path : Path) : Path :=
  if path.rooted then path else ⟨base.rooted, base.components ++ path.components⟩

/-- One component after others that are resolved, those latest first. Above the root is the root. -/
def resolve (rooted : Bool) (done : List Component) : Component → List Component
  | .current => done
  | .name text => .name text :: done
  | .parent =>
    match done with
    | .name _ :: before => before
    | _ => if rooted then done else .parent :: done

def normalize (path : Path) : Path :=
  ⟨path.rooted, (path.components.foldl (resolve path.rooted) []).reverse⟩

def dropCommon : List Component → List Component → List Component × List Component
  | a :: as, b :: bs => if a = b then dropCommon as bs else (a :: as, b :: bs)
  | as, bs => (as, bs)

/-- A path seen from a base: up from the base to what both share, and down from there. Paths that share
nothing, not even the root, are left alone. -/
def relativeTo (path base : Path) : Path :=
  let (down, up) := dropCommon path.components base.components
  if path.rooted != base.rooted ∨ (¬ path.rooted ∧ down.length = path.components.length) then path
  else ⟨false, up.map (fun _ => .parent) ++ down⟩

def stripBase? (path base : Path) : Option Path :=
  if base = ⟨false, []⟩ then some path
  else if path.rooted = base.rooted ∧ base.components <+: path.components then
    some ⟨false, path.components.drop base.components.length⟩
  else none

/-- What paths are compared by: single dots do not count, but for one that a relative path begins with. -/
def key (path : Path) : Path :=
  match path.rooted, path.components with
  | false, .current :: rest => ⟨false, .current :: rest.filter (· ≠ .current)⟩
  | rooted, components => ⟨rooted, components.filter (· ≠ .current)⟩

def fileName? (path : Path) : Option String :=
  match path.key.components.getLast? with
  | some (.name text) => some text
  | _ => none

end Path

end DebugBridge.Source
