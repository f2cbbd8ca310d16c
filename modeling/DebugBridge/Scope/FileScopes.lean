import DebugBridge.Script.Syntax

/-! Which variables a source file mentions, by function.

The engine evaluates a variable by name but cannot list the variables of a frame, so that list is
recovered from the source. -/

set_option autoImplicit false

namespace DebugBridge.Scope

open Script

/-- Lower case of a character as far as names go. Names are ASCII, so of all letters only those matter
whose lower case is: `A` to `Z` and the Kelvin sign. -/
def foldChar (c : Char) : Char := if c = '\u212A' then 'k' else c.toLower

def foldName (name : String) : String := String.ofList (name.toList.map foldChar)

/-- Names carry their sigil, so that they can be evaluated as they stand. -/
structure FileScopes where
  /-- Variables by folded qualified function name; both levels in order of first occurrence. -/
  locals : List (String × List String)
  globals : List String
  deriving DecidableEq, Repr

namespace FileScopes

def empty : FileScopes := ⟨[], []⟩

def localsOf (scopes : FileScopes) (function : String) : List String :=
  (scopes.locals.lookup (foldName function)).getD []

end FileScopes

def insertNew (names : List String) (name : String) : List String :=
  if names.contains name then names else names ++ [name]

def insertLocal (function name : String) : List (String × List String) → List (String × List String)
  | [] => [(function, [name])]
  | (f, names) :: rest =>
    if f = function then (f, insertNew names name) :: rest
    else (f, names) :: insertLocal function name rest

def qualifiedName (head : FunctionHead) : String :=
  let inner := match head.qualifier with
    | some qualifier => qualifier.lexeme ++ "::" ++ head.name.lexeme
    | none => head.name.lexeme
  match head.package with
  | some package => package.lexeme ++ "::" ++ inner
  | none => inner

/-- Functions do not nest, so one name says where a walk is; before the first function it is empty. -/
structure Collector where
  scopes : FileScopes
  function : String

def Collector.step (c : Collector) : Visit → Collector
  | .function head => { c with function := foldName (qualifiedName head) }
  | .variable ⟨.functionLocal, name⟩ =>
    { c with scopes := { c.scopes with locals := insertLocal c.function ("%" ++ name.lexeme) c.scopes.locals } }
  | .variable ⟨.global, name⟩ =>
    { c with scopes := { c.scopes with globals := insertNew c.scopes.globals ("$" ++ name.lexeme) } }

def FileScopes.collect (program : List Statement) : FileScopes :=
  ((Statement.visitsOfAll program).foldl Collector.step ⟨.empty, ""⟩).scopes

end DebugBridge.Scope
