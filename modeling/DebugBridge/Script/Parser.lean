import DebugBridge.Script.Lexer
import DebugBridge.Script.Syntax

/-! Reading tokens into statements.

The reader takes one token at a time. Its state is the stack of constructs whose closing brace is still
to come, and what the next token is read as. The end of file is judged by `finish`. -/

set_option autoImplicit false

namespace DebugBridge.Script

/-- A construct that is still open, with the statements read in it, latest first. -/
inductive Enclosing where
  | package (name : Token) (done : List Statement)
  | function (head : FunctionHead) (done : List Statement)
  /-- A nested block and the variables of the statement it belongs to. -/
  | block (leading : List Variable) (done : List Statement)

inductive Mode where
  | boundary
  /-- After the closing brace of a package, where one `;` still belongs to it. -/
  | packageEnd
  /-- Inside a statement: its variables, latest first, and the parentheses open in it. -/
  | statement (mentions : List Variable) (depth : Nat)
  | packageName
  | packageBrace (name : Token)
  | functionName
  | functionParen (name : Token)
  | parameters (name : Token) (found : List Variable)
  | functionBrace (name : Token) (found : List Variable)

structure Reader where
  mode : Mode
  /-- Innermost first. -/
  enclosing : List Enclosing
  /-- The statements of the program, latest first. -/
  program : List Statement

namespace Reader

def initial : Reader := ⟨.boundary, [], []⟩

def splitQualified (name : List Char) : Option (List Char × List Char) :=
  let rec split : List Char → List Char → Option (List Char × List Char)
    | after, ':' :: ':' :: before => some (before.reverse, after)
    | after, c :: before => split (c :: after) before
    | _, [] => none
  split [] name.reverse

def headOf (package : Option Token) (name : Token) (parameters : List Variable) : FunctionHead :=
  match splitQualified name.lexeme.toList with
  | some (qualifier, last) =>
    ⟨package, some { name with lexeme := String.ofList qualifier },
      { name with lexeme := String.ofList last }, parameters⟩
  | none => ⟨package, none, name, parameters⟩

/-- Functions stand at the top or directly in a package, so only the innermost construct matters. -/
def package? (r : Reader) : Option Token :=
  match r.enclosing with
  | .package name _ :: _ => some name
  | _ => none

def unexpected (token : Token) (expected : Expectation) : Fault :=
  .unexpected token.line expected token.lexeme

def add (r : Reader) (s : Statement) : Reader :=
  match r.enclosing with
  | [] => { r with mode := .boundary, program := s :: r.program }
  | .package name done :: outer => { r with mode := .boundary, enclosing := .package name (s :: done) :: outer }
  | .function head done :: outer => { r with mode := .boundary, enclosing := .function head (s :: done) :: outer }
  | .block leading done :: outer => { r with mode := .boundary, enclosing := .block leading (s :: done) :: outer }

def close (r : Reader) (brace : Token) : Except Fault Reader :=
  match r.enclosing with
  | [] => .error (unexpected brace .statement)
  | .package _ done :: outer =>
    -- its functions know their package, so that a block is all that is left of it
    .ok { ({ r with enclosing := outer }).add (.block done.reverse) with mode := .packageEnd }
  | .function head done :: outer => .ok (({ r with enclosing := outer }).add (.function head done.reverse))
  | .block leading done :: outer =>
    let inner := Statement.block done.reverse
    .ok (({ r with enclosing := outer }).add
      (if leading.isEmpty then inner else .block [.expression leading, inner]))

/-- A token of a statement. It ends at a `;` outside of parentheses, after a nested block, or before the
brace that closes the construct around it. -/
def inStatement (r : Reader) (mentions : List Variable) (depth : Nat) (token : Token) :
    Except Fault Reader :=
  let stay (mentions : List Variable) (depth : Nat) : Except Fault Reader :=
    .ok { r with mode := .statement mentions depth }
  match token.kind with
  | .localVariable => stay (⟨.functionLocal, token⟩ :: mentions) depth
  | .globalVariable => stay (⟨.global, token⟩ :: mentions) depth
  | .punctuation =>
    -- inside parentheses semicolons and braces mean nothing
    if token.lexeme = ";" ∧ depth = 0 then .ok (r.add (.expression mentions.reverse))
    else if token.lexeme = "\x7b" ∧ depth = 0 then
      .ok { r with mode := .boundary, enclosing := .block mentions.reverse [] :: r.enclosing }
    else if token.lexeme = "\x7d" ∧ depth = 0 then (r.add (.expression mentions.reverse)).close token
    else if token.lexeme = "(" then stay mentions (depth + 1)
    else if token.lexeme = ")" then
      if depth = 0 then .error (unexpected token .expression) else stay mentions (depth - 1)
    else stay mentions depth
  | _ => stay mentions depth

/-- The first token after a statement. Packages open only at the top, functions also in a package. -/
def atBoundary (r : Reader) (token : Token) : Except Fault Reader :=
  if token.isPunctuation "\x7d" then r.close token
  else if token.isKeyword "package" then
    match r.enclosing with
    | [] => .ok { r with mode := .packageName }
    | .package _ _ :: _ => .error (unexpected token .functionDeclaration)
    | _ => .error (unexpected token .statement)
  else if token.isKeyword "function" then
    match r.enclosing with
    | [] | .package _ _ :: _ => .ok { r with mode := .functionName }
    | _ => .error (unexpected token .statement)
  else r.inStatement [] 0 token

def step (r : Reader) (token : Token) : Except Fault Reader :=
  match r.mode with
  | .boundary => r.atBoundary token
  | .packageEnd =>
    if token.isPunctuation ";" then .ok { r with mode := .boundary } else r.atBoundary token
  | .statement mentions depth => r.inStatement mentions depth token
  | .packageName =>
    if token.kind = .identifier then .ok { r with mode := .packageBrace token }
    else .error (unexpected token .packageName)
  | .packageBrace name =>
    if token.isPunctuation "\x7b" then
      .ok { r with mode := .boundary, enclosing := .package name [] :: r.enclosing }
    else .error (unexpected token .openBrace)
  | .functionName =>
    if token.kind = .identifier then .ok { r with mode := .functionParen token }
    else .error (unexpected token .functionName)
  | .functionParen name =>
    if token.isPunctuation "(" then .ok { r with mode := .parameters name [] }
    else .error (unexpected token .openParen)
  | .parameters name found =>
    if token.isPunctuation ")" then .ok { r with mode := .functionBrace name found }
    else if token.kind = .localVariable then
      .ok { r with mode := .parameters name (⟨.functionLocal, token⟩ :: found) }
    -- commas, and whatever else stands between the parentheses, are passed over
    else .ok r
  | .functionBrace name found =>
    if token.isPunctuation "\x7b" then
      let head := headOf r.package? name found.reverse
      .ok { r with mode := .boundary, enclosing := .function head [] :: r.enclosing }
    else .error (unexpected token .openBrace)

def whole (r : Reader) : Except Fault (List Statement) :=
  if r.enclosing.isEmpty then .ok r.program.reverse else .error (.unexpectedEnd .closeBrace)

/-- The end of file. Where a name is due it counts as a token that is no name. -/
def finish (r : Reader) (endOfFile : Token) : Except Fault (List Statement) :=
  match r.mode with
  | .boundary | .packageEnd => r.whole
  | .statement mentions depth =>
    if depth = 0 then (r.add (.expression mentions.reverse)).whole else .error (.unexpectedEnd .closeParen)
  | .packageName => .error (unexpected endOfFile .packageName)
  | .functionName => .error (unexpected endOfFile .functionName)
  | .packageBrace _ | .functionBrace _ _ => .error (.unexpectedEnd .openBrace)
  | .functionParen _ => .error (.unexpectedEnd .openParen)
  | .parameters _ _ => .error (.unexpectedEnd .closeParen)

end Reader

def code (tokens : List Token) : List Token := tokens.takeWhile (·.kind != .endOfFile)

theorem code_append {tokens : List Token} (endless : ∀ token ∈ tokens, token.kind ≠ .endOfFile) (rest : List Token) :
    code (tokens ++ rest) = tokens ++ code rest :=
  List.takeWhile_append_of_pos fun token member => bne_iff_ne.mpr (endless token member)

theorem code_endless {tokens : List Token} (endless : ∀ token ∈ tokens, token.kind ≠ .endOfFile) :
    code tokens = tokens := by
  have same := code_append endless []
  rw [List.append_nil] at same
  exact same.trans (List.append_nil tokens)

/-- The first end of file; a list without one ends on the line of its last token. -/
def endOf (tokens : List Token) : Token :=
  (tokens.find? (·.kind == .endOfFile)).getD
    ⟨.endOfFile, "", (tokens.getLast?.map Token.line).getD 1⟩

def parse (tokens : List Token) : Except Fault (List Statement) :=
  match (code tokens).foldlM Reader.step Reader.initial with
  | .error fault => .error fault
  | .ok r => r.finish (endOf tokens)

def parseSource (source : String) : Except Fault (List Statement) :=
  match tokenize source with
  | .error fault => .error fault
  | .ok tokens => parse tokens

end DebugBridge.Script
