import DebugBridge.Source.Path

/-! Translation between the source paths of a client and those of the engine.

The client names files by absolute paths. The engine names them relative to the game's root directory,
which lies somewhere below, or beside, the client's workspace. Backslashes count as slashes. -/

set_option autoImplicit false

namespace DebugBridge.Source

def slashed (text : String) : String :=
  String.ofList (text.toList.map fun c => if c = '\\' then '/' else c)

def normalized (text : String) : Path := (Path.ofString (slashed text)).normalize

structure Resolver where
  workspace : Path
  root : Option Path
  deriving DecidableEq, Repr

namespace Resolver

/-- An empty root directory is none. -/
def new (workspace : String) (root : Option String) : Resolver :=
  ⟨normalized workspace, (root.filter fun dir => dir != "").map normalized⟩

def toEngine (r : Resolver) (clientPath : String) : String :=
  let path := normalized clientPath
  match r.root with
  | some root =>
    ((r.workspace.join path).normalize.relativeTo (r.workspace.join root).normalize).text
  | none => ((path.stripBase? r.workspace).getD path).text

def toClient (r : Resolver) (engineFile : String) : Path :=
  let base := match r.root with
    | some root => r.workspace.join root
    | none => r.workspace
  (base.join (Path.ofString (slashed engineFile))).normalize

end Resolver

end DebugBridge.Source
