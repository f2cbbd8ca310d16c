import DebugBridge.Engine.Handshake

/-! A simulated engine. It answers evaluations from a table of values and is silent about all else. -/

set_option autoImplicit false

namespace DebugBridge.Engine

structure Greeting where
  reply : List UInt8
  closes : Bool
  deriving DecidableEq, Repr

structure Simulated where
  port : UInt16
  values : List (String × String)
  assigns : Bool
  /-- So many answers are held back and then sent latest first. -/
  holds : Nat
  /-- What it answers to one password after the other; the last answer stays. -/
  greetings : List Greeting
  greeted : Bool
  speaking : Bool
  /-- Answers not yet sent, latest first. -/
  held : List String
  received : List String

namespace Simulated

def welcome : Greeting := ⟨Text.Utf8.encode "PASS Connected.\r\n", false⟩

def new (port : UInt16) (values : List (String × String)) (assigns : Bool) (holds : Nat)
    (greetings : List Greeting) : Simulated :=
  { port := port
    values := values
    assigns := assigns
    holds := holds
    greetings := greetings
    greeted := false
    speaking := false
    held := []
    received := [] }

def setValue (engine : Simulated) (name : String) (value : Option String) : Simulated :=
  let others := engine.values.filter fun entry => entry.1 != name
  { engine with values := (value.map fun v => (name, v)).toList ++ others }

def linesOf (text : List Char) : List (List Char) := (Text.split '\n' text).dropLast

def splitLastLine (octets : List UInt8) : List (List UInt8) :=
  [(octets.take (upToLast octets)), octets.drop (upToLast octets)].filter fun part => ! part.isEmpty
where
  upToLast : List UInt8 → Nat
    | [] => 0
    | octet :: rest =>
      let inner := upToLast rest
      if inner ≠ 0 then inner + 1
      else if octet = 0x0D ∧ rest.head? = some 0x0A then 2
      else 0

def flush (engine : Simulated) : List (List UInt8) × Simulated :=
  (engine.held.map Text.Utf8.encode, { engine with held := [] })

def reply (engine : Simulated) (answer : String) : List (List UInt8) × Simulated :=
  let engine := { engine with held := answer :: engine.held }
  if engine.held.length < engine.holds then ([], engine) else engine.flush

def value (engine : Simulated) (expression : List Char) : Option String × Simulated :=
  let name := expression.takeWhile (· ≠ '=')
  match expression.dropWhile (· ≠ '=') with
  | _ :: assigned =>
    if engine.assigns then
      (some (String.ofList assigned), engine.setValue (String.ofList name) (some (String.ofList assigned)))
    else (engine.values.lookup (String.ofList expression), engine)
  | [] => (engine.values.lookup (String.ofList expression), engine)

def evaluation? (line : List Char) : Option (List Char × List Char) :=
  match Text.split ' ' line with
  | verb :: tag :: _frame :: first :: rest =>
    if verb = "EVAL".toList then some (tag, Text.join ' ' (first :: rest)) else none
  | _ => none

def greet (engine : Simulated) : Incoming × Simulated :=
  let greeting := engine.greetings.head?.getD welcome
  (⟨splitLastLine greeting.reply, if greeting.closes then .closed else .silent⟩,
    { engine with
      greetings := if engine.greetings.length < 2 then engine.greetings else engine.greetings.tail
      greeted := true
      speaking := ! greeting.closes })

/-- A line from the bridge. The first one is the password. -/
def hear (engine : Simulated) (line : List Char) : Incoming × Simulated :=
  let engine := { engine with received := engine.received ++ [String.ofList line] }
  if ! engine.greeted then engine.greet
  -- it goes on listening after it has closed its side
  else if ! engine.speaking then (.nothing, engine)
  else
    match evaluation? line with
    | none => (.nothing, engine)
    | some (tag, expression) =>
      match engine.value expression with
      | (none, engine) => (.nothing, engine)
      | (some value, engine) =>
        let (sent, engine) := engine.reply ("EVALOUT " ++ String.ofList tag ++ " " ++ value ++ "\r\n")
        (⟨sent, .silent⟩, engine)

def hearAll (engine : Simulated) : List (List Char) → Incoming × Simulated
  | [] => (.nothing, engine)
  | line :: rest =>
    let (now, engine) := engine.hear line
    let (later, engine) := hearAll engine rest
    (⟨now.chunks ++ later.chunks, if now.ending = .silent then later.ending else now.ending⟩, engine)

def accept (engine : Simulated) : Simulated := { engine with greeted := false, speaking := true, held := [] }

def tell (engine : Simulated) (text : String) : Incoming × Simulated := engine.hearAll (linesOf text.toList)

def linger (engine : Simulated) : Incoming × Simulated :=
  let (sent, engine) := engine.flush
  (⟨sent, .silent⟩, engine)

end Simulated

end DebugBridge.Engine
