import DebugBridge.Scope.FileScopes
import DebugBridge.Script.Parser
import DebugBridge.Source.Files
import DebugBridge.Text.Utf8

/-! The variables of the source files a session has looked at.

A file is read when it is first asked for and never again; one that could not be read is tried anew. -/

set_option autoImplicit false

namespace DebugBridge.Scope

open Source

structure Cache where
  entries : List (Path × FileScopes)
  deriving DecidableEq, Repr

inductive Finding where
  | known (scopes : FileScopes)
  | parsed (scopes : FileScopes)
  /-- A file that does not parse counts as having no variables. -/
  | unparsable (fault : Script.Fault)
  | unreadable (fault : FileFault)
  deriving DecidableEq, Repr

def Finding.scopes? : Finding → Option FileScopes
  | .known scopes | .parsed scopes => some scopes
  | .unparsable _ => some .empty
  | .unreadable _ => none

namespace Cache

def empty : Cache := ⟨[]⟩

def lookup (cache : Cache) (path : String) : Option FileScopes := cache.entries.lookup (Path.ofString path).key

def isCached (cache : Cache) (path : String) : Bool := (cache.lookup path).isSome

def insert (cache : Cache) (path : String) (scopes : FileScopes) : Cache :=
  ⟨((Path.ofString path).key, scopes) :: cache.entries⟩

def readText (read : String → Except FileFault (List UInt8)) (path : String) : Except FileFault String :=
  match read path with
  | .error fault => .error fault
  | .ok octets =>
    match Text.Utf8.decode? octets with
    | some text => .ok text
    | none => .error .notText

def get (cache : Cache) (read : String → Except FileFault (List UInt8)) (path : String) : Finding × Cache :=
  match cache.lookup path with
  | some scopes => (.known scopes, cache)
  | none =>
    match readText read path with
    | .error fault => (.unreadable fault, cache)
    | .ok source =>
      match Script.parseSource source with
      -- remembered as well, so that it is not complained about at every stop
      | .error fault => (.unparsable fault, cache.insert path .empty)
      | .ok program => (.parsed (.collect program), cache.insert path (.collect program))

end Cache

end DebugBridge.Scope
