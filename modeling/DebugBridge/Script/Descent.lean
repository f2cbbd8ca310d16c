import DebugBridge.Script.Parser

/-! Reading by descent: one procedure for each construct, which calls those of the constructs in it, and a position in
the list of tokens. Every loop looks at the token at the position to tell whether it goes on.

The positions and the turns of the loops are kept, so that they can be spoken of. -/

set_option autoImplicit false

namespace DebugBridge.Script

namespace Descent

inductive Loop where
  | program
  | package
  | parameters
  | block
  | statement
  deriving DecidableEq, Repr

structure Turn where
  loop : Loop
  start : Nat
  next : Nat
  deriving DecidableEq, Repr

structure Cursor where
  tokens : List Token
  position : Nat
  package : Option Token
  path : List Nat
  /-- Every turn so far, by its loop and the position where it began. -/
  begun : List (Loop × Nat)
  /-- Those of them after which the loop went on. -/
  repeated : List Turn
  deriving DecidableEq, Repr

/-- What ends a descent before its time: a script that cannot be read, or else a look at a token that is not there, or
more turns than were allowed. -/
inductive Halt where
  | fault (fault : Fault)
  | outOfRange
  | exhausted
  deriving DecidableEq, Repr

end Descent

abbrev Descent := ExceptT Descent.Halt (StateM Descent.Cursor)

namespace Descent

def look : Descent Token := do
  let cursor ← get
  match cursor.tokens[cursor.position]? with
  | some token => pure token
  | none => throw .outOfRange

def Cursor.move (cursor : Cursor) (position : Nat) : Cursor :=
  { cursor with position := position, path := position :: cursor.path }

def Cursor.inPackage (cursor : Cursor) (package : Option Token) : Cursor := { cursor with package := package }

/-- Take the token at the position. The end of file is looked at and not taken. -/
def advance : Descent Token := do
  let token ← look
  modify fun cursor => cursor.move (if token.kind = .endOfFile then cursor.position else cursor.position + 1)
  pure token

def skip : Descent Unit := do
  let _ ← advance
  pure ()

def Cursor.enter (cursor : Cursor) (loop : Loop) : Cursor :=
  { cursor with begun := (loop, cursor.position) :: cursor.begun }

def enter (loop : Loop) : Descent Nat := do
  modify fun cursor => cursor.enter loop
  return (← get).position

def Cursor.again (cursor : Cursor) (loop : Loop) (start : Nat) : Cursor :=
  { cursor with repeated := ⟨loop, start, cursor.position⟩ :: cursor.repeated }

def again (loop : Loop) (start : Nat) : Descent Unit := modify fun cursor => cursor.again loop start

def atEnd : Descent Bool := return (← look).kind = .endOfFile

def isPunctuation (mark : String) : Descent Bool := return (← look).isPunctuation mark

def isKeyword (word : String) : Descent Bool := return (← look).isKeyword word

def fault {α : Type} (fault : Fault) : Descent α := throw (.fault fault)

def unexpected {α : Type} (expected : Expectation) : Descent α := do
  let token ← look
  fault (if token.kind = .endOfFile then .unexpectedEnd expected else Reader.unexpected token expected)

def expect (mark : String) (expected : Expectation) : Descent Unit := do
  if ← isPunctuation mark then skip else unexpected expected

def allow (mark : String) : Descent Unit := do
  if ← isPunctuation mark then skip else pure ()

inductive Move where
  /-- The token is left to what is around the statement. -/
  | stop
  | finish
  | nest
  | onward (mentions : List Variable) (depth : Nat)
  | refuse (expected : Expectation)

def move (mentions : List Variable) (depth : Nat) (token : Token) : Move :=
  match token.kind with
  | .endOfFile => if depth = 0 then .stop else .refuse .closeParen
  | .punctuation =>
    if token.lexeme = ";" ∧ depth = 0 then .finish
    else if token.lexeme = "\x7b" ∧ depth = 0 then .nest
    else if token.lexeme = "\x7d" ∧ depth = 0 then .stop
    else if token.lexeme = "(" then .onward mentions (depth + 1)
    else if token.lexeme = ")" then if depth = 0 then .refuse .expression else .onward mentions (depth - 1)
    else .onward mentions depth
  | .localVariable => .onward (⟨.functionLocal, token⟩ :: mentions) depth
  | .globalVariable => .onward (⟨.global, token⟩ :: mentions) depth
  | _ => .onward mentions depth

mutual

def readStatement : Nat → List Variable → Nat → Descent Statement
  | 0, _, _ => throw .exhausted
  | allowance + 1, mentions, depth => do
    let start ← enter .statement
    match move mentions depth (← look) with
    | .stop => pure (.expression mentions.reverse)
    | .finish => do
      skip
      pure (.expression mentions.reverse)
    | .nest => do
      skip
      let body ← readBlock allowance []
      pure (if mentions.isEmpty then .block body else .block [.expression mentions.reverse, .block body])
    | .onward mentions depth => do
      skip
      again .statement start
      readStatement allowance mentions depth
    | .refuse expected => unexpected expected

def readBlock : Nat → List Statement → Descent (List Statement)
  | 0, _ => throw .exhausted
  | allowance + 1, done => do
    let start ← enter .block
    if ← isPunctuation "\x7d" then do
      skip
      pure done.reverse
    else if ← atEnd then unexpected .closeBrace
    -- in the middle of a statement both words are passed over like any other
    else if ← isKeyword "function" then unexpected .statement
    else if ← isKeyword "package" then unexpected .statement
    else do
      let s ← readStatement allowance [] 0
      again .block start
      readBlock allowance (s :: done)

end

def readParameters : Nat → List Variable → Descent (List Variable)
  | 0, _ => throw .exhausted
  | allowance + 1, found => do
    if ← isPunctuation ")" then pure found.reverse
    else do
      let start ← enter .parameters
      let token ← advance
      match token.kind with
      | .localVariable => do
        again .parameters start
        readParameters allowance (⟨.functionLocal, token⟩ :: found)
      | .endOfFile => fault (.unexpectedEnd .closeParen)
      | _ => do
        again .parameters start
        readParameters allowance found

def readFunction (allowance : Nat) : Descent Statement := do
  skip
  let name ← advance
  if name.kind = .identifier then do
    expect "(" .openParen
    let parameters ← readParameters allowance []
    skip
    expect "\x7b" .openBrace
    let body ← readBlock allowance []
    return .function (Reader.headOf (← get).package name parameters) body
  else fault (Reader.unexpected name .functionName)

def readDeclaration (allowance : Nat) : Descent Statement := do
  if ← isKeyword "function" then readFunction allowance else readStatement allowance [] 0

def readPackageBody : Nat → List Statement → Descent (List Statement)
  | 0, _ => throw .exhausted
  | allowance + 1, done => do
    if ← isPunctuation "\x7d" then pure done.reverse
    else do
      let start ← enter .package
      if ← atEnd then unexpected .closeBrace
      else if ← isKeyword "package" then unexpected .functionDeclaration
      else do
        let s ← readDeclaration allowance
        again .package start
        readPackageBody allowance (s :: done)

def readPackage (allowance : Nat) : Descent Statement := do
  skip
  let name ← advance
  if name.kind = .identifier then do
    expect "\x7b" .openBrace
    modify fun cursor => cursor.inPackage (some name)
    let body ← readPackageBody allowance []
    modify fun cursor => cursor.inPackage none
    skip
    -- not an empty statement behind the package
    allow ";"
    pure (.block body)
  else fault (Reader.unexpected name .packageName)

def readProgram : Nat → List Statement → Descent (List Statement)
  | 0, _ => throw .exhausted
  | allowance + 1, done => do
    if ← atEnd then pure done.reverse
    else do
      let start ← enter .program
      if ← isKeyword "package" then do
        let s ← readPackage allowance
        again .program start
        readProgram allowance (s :: done)
      else if ← isPunctuation "\x7d" then unexpected .statement
      else do
        let s ← readDeclaration allowance
        again .program start
        readProgram allowance (s :: done)

end Descent

/-- A list of tokens that does not end with the end of file is ended by one. -/
def closed (tokens : List Token) : List Token :=
  if tokens.getLast?.map Token.kind = some .endOfFile then tokens
  else tokens ++ [⟨.endOfFile, "", (tokens.getLast?.map Token.line).getD 1⟩]

def descend (allowance : Nat) (tokens : List Token) : Except Descent.Halt (List Statement) × Descent.Cursor :=
  (Descent.readProgram allowance []).run.run ⟨closed tokens, 0, none, [0], [], []⟩

end DebugBridge.Script
