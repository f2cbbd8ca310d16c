import DebugBridge.Json.Lexer

/-! Reading a JSON text.

The reader takes one token at a time and keeps the containers that are still open. The end of the text
is a fault of its own kind wherever something is still due. -/

set_option autoImplicit false

namespace DebugBridge.Json

inductive Container where
  | array (items : List Json)
  /-- The members so far and the key whose value is being read. -/
  | object (members : List (String × Json)) (key : String)

inductive Due where
  | value
  | firstItem
  | firstKey
  | key (members : List (String × Json))
  | colon (members : List (String × Json)) (key : String)
  | separator (value : Json)

structure Reader where
  due : Due
  /-- Innermost first. -/
  openContainers : List Container

namespace Reader

def initial : Reader := ⟨.value, []⟩

def depthLimit : Nat := 128

/-- A token where a value is due. An opening bracket counts as a container from here on. -/
def readValue (r : Reader) : Lexeme → Except Fault Reader
  | .string text => .ok { r with due := .separator (.string text) }
  | .scalar value => .ok { r with due := .separator value }
  | .openBracket =>
    if r.openContainers.length + 1 < depthLimit then .ok ⟨.firstItem, .array [] :: r.openContainers⟩
    else .error .malformed
  | .openBrace =>
    if r.openContainers.length + 1 < depthLimit then .ok { r with due := .firstKey } else .error .malformed
  | .badString fault | .badScalar fault => .error fault
  | .closeBracket | .closeBrace | .comma | .colon => .error .malformed

def readKey (r : Reader) (members : List (String × Json)) : Lexeme → Except Fault Reader
  | .string key => .ok { r with due := .colon members key }
  | .badString fault => .error fault
  | _ => .error .malformed

def readSeparator (r : Reader) (value : Json) (lexeme : Lexeme) : Except Fault Reader :=
  match r.openContainers, lexeme with
  | .array items :: outer, .comma => .ok ⟨.value, .array (value :: items) :: outer⟩
  | .array items :: outer, .closeBracket => .ok ⟨.separator (.array (value :: items).reverse), outer⟩
  | .object members key :: outer, .comma => .ok ⟨.key (insertMember key value members), outer⟩
  | .object members key :: outer, .closeBrace =>
    .ok ⟨.separator (.object (insertMember key value members)), outer⟩
  | _, _ => .error .malformed

def step (r : Reader) (lexeme : Lexeme) : Except Fault Reader :=
  match r.due, lexeme with
  | .value, lexeme => r.readValue lexeme
  | .firstItem, .closeBracket => .ok ⟨.separator (.array []), r.openContainers.tail⟩
  | .firstItem, lexeme => r.readValue lexeme
  | .firstKey, .closeBrace => .ok { r with due := .separator (.object []) }
  | .firstKey, lexeme => r.readKey [] lexeme
  | .key members, lexeme => r.readKey members lexeme
  | .colon members key, .colon => .ok ⟨.value, .object members key :: r.openContainers⟩
  | .colon _ _, _ => .error .malformed
  | .separator value, lexeme => r.readSeparator value lexeme

def finish (r : Reader) : Except Fault Json :=
  match r.due, r.openContainers with
  | .separator value, [] => .ok value
  | _, _ => .error .truncated

end Reader

def parse (octets : List UInt8) : Except Fault Json :=
  match (lexemes octets).foldlM Reader.step Reader.initial with
  | .error fault => .error fault
  | .ok r => r.finish

end DebugBridge.Json
