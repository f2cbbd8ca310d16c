import DebugBridge.Script.Token

/-! The part of a script's structure that tells which variables belong to which function. Of an
expression only its variable references are kept. -/

set_option autoImplicit false

namespace DebugBridge.Script

inductive VariableKind where
  | functionLocal
  | global
  deriving DecidableEq, Repr

structure Variable where
  kind : VariableKind
  name : Token
  deriving DecidableEq, Repr

structure FunctionHead where
  /-- The name token of the package around the declaration. -/
  package : Option Token
  /-- What stands before the last `::` of the declared name. -/
  qualifier : Option Token
  name : Token
  parameters : List Variable
  deriving DecidableEq, Repr

inductive Statement where
  | function (head : FunctionHead) (body : List Statement)
  | expression (mentions : List Variable)
  | block (body : List Statement)
  deriving Repr

inductive Visit where
  | function (head : FunctionHead)
  | variable (v : Variable)
  deriving DecidableEq, Repr

mutual

/-- A declaration comes before its parameters, and those before its body. -/
def Statement.visits : Statement → List Visit
  | .function head body => .function head :: (head.parameters.map .variable ++ Statement.visitsOfAll body)
  | .expression mentions => mentions.map .variable
  | .block body => Statement.visitsOfAll body

def Statement.visitsOfAll : List Statement → List Visit
  | [] => []
  | first :: rest => first.visits ++ Statement.visitsOfAll rest

end

end DebugBridge.Script
