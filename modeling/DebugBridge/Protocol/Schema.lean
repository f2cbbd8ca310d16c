import DebugBridge.Json.Printer
import DebugBridge.Text.Visible

/-! The shapes that JSON values are expected to have.

A record may be given as an object or, field by field, as an array. A value that conforms is returned in
one form, an object with every field of its record in order. -/

set_option autoImplicit false

namespace DebugBridge.Protocol

inductive WordKind where
  | signed64
  | unsigned64
  | unsigned16
  deriving DecidableEq, Repr

def WordKind.name : WordKind → String
  | .signed64 => "i64"
  | .unsigned64 => "usize"
  | .unsigned16 => "u16"

def WordKind.holds (kind : WordKind) (i : Int) : Bool :=
  match kind with
  | .signed64 => -0x8000000000000000 ≤ i && i ≤ 0x7FFFFFFFFFFFFFFF
  | .unsigned64 => 0 ≤ i && i ≤ 0xFFFFFFFFFFFFFFFF
  | .unsigned16 => 0 ≤ i && i ≤ 0xFFFF

/-- What an absent field amounts to. An optional one counts as null in an object, but must be given in an
array. -/
inductive Need where
  | required
  | optional
  | default (value : Json)

mutual

inductive Schema where
  | any
  | text
  | path
  | flag
  | word (kind : WordKind)
  | nullable (inner : Schema)
  | list (inner : Schema)
  | record (name : String) (fields : Fields)

inductive Fields where
  | nil
  | field (key : String) (need : Need) (schema : Schema) (rest : Fields)

end

inductive SchemaFault where
  | wrongType (found : Json) (expected : String)
  | wrongValue (found : Int) (expected : String)
  | missingField (name : String)
  | tooShort (length : Nat) (record : String) (fields : Nat)
  | tooLong (length : Nat)
  deriving Repr

def describe : Json → String
  | .null => "null"
  | .boolean b => "boolean `" ++ (if b then "true" else "false") ++ "`"
  | .integer i => "integer `" ++ Text.Decimal.showInt i ++ "`"
  | .real x => "floating point `" ++ String.ofList x.text ++ "`"
  | .string text => "string " ++ Text.quoted text
  | .array _ => "sequence"
  | .object _ => "map"

def SchemaFault.message : SchemaFault → String
  | .wrongType found expected => "invalid type: " ++ describe found ++ ", expected " ++ expected
  | .wrongValue found expected => "invalid value: " ++ describe (.integer found) ++ ", expected " ++ expected
  | .missingField name => "missing field `" ++ name ++ "`"
  | .tooShort length record fields =>
    "invalid length " ++ Text.Decimal.showNat length ++ ", expected struct " ++ record ++ " with " ++
      Text.Decimal.showNat fields ++ (if fields = 1 then " element" else " elements")
  | .tooLong length =>
    "invalid length " ++ Text.Decimal.showNat length ++ ", expected fewer elements in array"

namespace Fields

def count : Fields → Nat
  | .nil => 0
  | .field _ _ _ rest => rest.count + 1

def complete (found : List (String × Json)) : Fields → Except SchemaFault (List (String × Json))
  | .nil => .ok []
  | .field key need _ rest =>
    match found.lookup key, need with
    | some value, _ | none, .default value => (complete found rest).map ((key, value) :: ·)
    | none, .optional => (complete found rest).map ((key, .null) :: ·)
    | none, .required => .error (.missingField key)

end Fields

mutual

/-- A value in its one form, or the first thing wrong with it. The members of an object are judged in the
order of their keys and before any that is missing; members that the record does not know are ignored. -/
def Schema.conform : Schema → Json → Except SchemaFault Json
  | .any, value => .ok value
  | .text, value => match value with
    | .string _ => .ok value
    | other => .error (.wrongType other "a string")
  | .path, value => match value with
    | .string _ => .ok value
    | other => .error (.wrongType other "path string")
  | .flag, value => match value with
    | .boolean _ => .ok value
    | other => .error (.wrongType other "a boolean")
  | .word kind, value => match value with
    | .integer i => if kind.holds i then .ok value else .error (.wrongValue i kind.name)
    | other => .error (.wrongType other kind.name)
  | .nullable inner, value => match value with
    | .null => .ok .null
    | other => inner.conform other
  | .list inner, value => match value with
    | .array items => (items.mapM inner.conform).map .array
    | other => .error (.wrongType other "a sequence")
  | .record name fields, value => match value with
    | .object members =>
      -- what is there is judged before what is missing
      match members.mapM fun (key, value) => (fields.conformMember key value).map (key, ·) with
      | .error fault => .error fault
      | .ok found => (fields.complete found).map .object
    | .array items => (fields.conformItems name fields.count items.length items 0).map .object
    | other => .error (.wrongType other ("struct " ++ name))

def Fields.conformMember : Fields → String → Json → Except SchemaFault Json
  | .nil, _, value => .ok value
  | .field key _ schema rest, name, value =>
    if key = name then schema.conform value else rest.conformMember name value

def Fields.conformItems (record : String) (count length : Nat) :
    Fields → List Json → Nat → Except SchemaFault (List (String × Json))
  | .nil, [], _ => .ok []
  | .nil, _ :: _, _ => .error (.tooLong length)
  | .field key _ schema rest, item :: items, index =>
    match schema.conform item with
    | .error fault => .error fault
    | .ok value => (Fields.conformItems record count length rest items (index + 1)).map ((key, value) :: ·)
  | .field key (.default value) _ rest, [], index =>
    (Fields.conformItems record count length rest [] (index + 1)).map ((key, value) :: ·)
  | .field _ _ _ _, [], index => .error (.tooShort index record count)

end

end DebugBridge.Protocol
