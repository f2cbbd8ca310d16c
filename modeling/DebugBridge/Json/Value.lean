import DebugBridge.Json.Binary64

/-! JSON values. The members of an object are kept in the order of their keys, each key once. -/

set_option autoImplicit false

namespace DebugBridge

inductive Json where
  | null
  | boolean (b : Bool)
  /-- A number without fraction and exponent between `-2 ^ 63` and `2 ^ 64 - 1`. -/
  | integer (i : Int)
  /-- Any other number. -/
  | real (x : Json.Binary64)
  | string (text : String)
  | array (items : List Json)
  | object (members : List (String × Json))
  deriving Repr

namespace Json

/-- Put a member at the place of its key; a later value replaces an earlier one. -/
def insertMember (key : String) (value : Json) : List (String × Json) → List (String × Json)
  | [] => [(key, value)]
  | (k, v) :: rest =>
    if key < k then (key, value) :: (k, v) :: rest
    else if key = k then (key, value) :: rest
    else (k, v) :: insertMember key value rest

def ofMembers (members : List (String × Json)) : Json :=
  .object (members.foldl (fun done (key, value) => insertMember key value done) [])

def member? (key : String) : Json → Option Json
  | .object members => members.lookup key
  | _ => none

def string? : Json → Option String
  | .string text => some text
  | _ => none

def integer? : Json → Option Int
  | .integer i => some i
  | _ => none

def boolean? : Json → Option Bool
  | .boolean b => some b
  | _ => none

def items? : Json → Option (List Json)
  | .array items => some items
  | _ => none

def ofString? (text : Option String) : Json := (text.map .string).getD .null

def ofNat (n : Nat) : Json := .integer n

end Json

end DebugBridge
