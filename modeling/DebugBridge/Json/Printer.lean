import DebugBridge.Json.Value

/-! The compact text of a JSON value. -/

set_option autoImplicit false

namespace DebugBridge.Json

/-- Only quotes, backslashes and control characters are escaped. -/
def escapeChar (c : Char) : List Char :=
  match c with
  | '"' => ['\\', '"']
  | '\\' => ['\\', '\\']
  | '\n' => ['\\', 'n']
  | '\r' => ['\\', 'r']
  | '\t' => ['\\', 't']
  | '\x08' => ['\\', 'b']
  | '\x0c' => ['\\', 'f']
  | c =>
    if c.toNat < 0x20 then
      ['\\', 'u', '0', '0', Nat.digitChar (c.toNat / 16), Nat.digitChar (c.toNat % 16)]
    else [c]

def renderString (text : String) : List Char := '"' :: (text.toList.flatMap escapeChar ++ ['"'])

mutual

def render : Json → List Char
  | .null => ['n', 'u', 'l', 'l']
  | .boolean true => ['t', 'r', 'u', 'e']
  | .boolean false => ['f', 'a', 'l', 's', 'e']
  | .integer i => (Text.Decimal.showInt i).toList
  | .real x => x.text
  | .string text => renderString text
  | .array items => '[' :: (renderItems items ++ [']'])
  | .object members => '\x7b' :: (renderMembers members ++ ['\x7d'])

def renderItems : List Json → List Char
  | [] => []
  | [last] => render last
  | first :: second :: rest => render first ++ ',' :: renderItems (second :: rest)

def renderMembers : List (String × Json) → List Char
  | [] => []
  | [(key, value)] => renderString key ++ ':' :: render value
  | (key, value) :: second :: rest =>
    renderString key ++ ':' :: (render value ++ ',' :: renderMembers (second :: rest))

end

def text (value : Json) : String := String.ofList value.render

end DebugBridge.Json
