import DebugBridge.Session.Machine

/-! Requests about a stopped engine: its stack, its variables and expressions. -/

set_option autoImplicit false

namespace DebugBridge.Session.Machine

open Protocol

variable {ω : Type}

def stackTrace (m : Machine ω) (request : Request) : Machine ω :=
  match request.argumentsAs StackTraceArguments.schema StackTraceArguments.ofConformed with
  | .error fault => m.refuse request (.invalidArguments request.command fault)
  | .ok arguments =>
    let start := arguments.startFrame.getD 0
    let levels := (arguments.levels.filter (0 < ·)).getD State.defaultLevels
    let shown := m.state.window start levels
    -- the client counts frames from here until it asks for another window
    { m with state := { m.state with windowStart := start } }.succeed request (.stack shown)

def scopes (m : Machine ω) (request : Request) : Machine ω :=
  match request.argumentsAs ScopesArguments.schema ScopesArguments.ofConformed with
  | .error fault => m.refuse request (.invalidArguments request.command fault)
  | .ok arguments =>
    match ScopeReference.encode ⟨arguments.frameId, .locals⟩,
      ScopeReference.encode ⟨arguments.frameId, .globals⟩ with
    | .error fault, _ | _, .error fault => m.refuse request (.badReference fault)
    | .ok locals, .ok globals =>
      let source := (m.state.viewFrame? arguments.frameId).map fun frame => m.state.sourceView frame.file
      m.succeed request (.scopes source locals globals)

def logFinding (m : Machine ω) (path : String) : Scope.Finding → Machine ω
  | .known _ => m
  | .parsed scopes => m.log .debug "scope" (counts scopes)
  | .unparsable fault =>
    (m.log .warn "scope" ("parse " ++ path ++ ": " ++ fault.message)).log .debug "scope" (counts .empty)
  | .unreadable fault => m.log .warn "scope" ("read " ++ path ++ ": " ++ fault.message)
where
  counts (scopes : Scope.FileScopes) : String :=
    path ++ ": " ++ Text.Decimal.showNat scopes.locals.length ++ " function scopes, " ++
      Text.Decimal.showNat scopes.globals.length ++ " globals"

def namesIn (host : Host ω) (m : Machine ω) (frame : Engine.Frame) (kind : ScopeKind) :
    List String × Machine ω :=
  let path := (m.state.resolver.toClient frame.file).text
  let (finding, cache) := m.state.scopes.get (host.read m.world) path
  let m := { m with state := { m.state with scopes := cache } }.logFinding path finding
  match finding.scopes?, kind with
  | some scopes, .locals => (scopes.localsOf frame.function, m)
  | some scopes, .globals => (scopes.globals, m)
  | none, _ => ([], m)

def evaluateAll (host : Host ω) (m : Machine ω) (frame : Nat) : List String → List UInt64 × Machine ω
  | [] => ([], m)
  | name :: rest =>
    let (tag, m) := m.evaluate host frame name
    let (tags, m) := evaluateAll host m frame rest
    (tag :: tags, m)

def awaitAll (host : Host ω) (m : Machine ω) : List UInt64 → List (Option String) × Machine ω
  | [] => ([], m)
  | tag :: rest =>
    let (answer, m) := m.await host tag
    let (answers, m) := awaitAll host m rest
    (answer :: answers, m)

def evaluationsInFlight : Nat := 64

/-- Evaluate names, so many at a time, and keep their order. -/
def fetch (host : Host ω) (m : Machine ω) (frame : Nat) (names : List String) :
    List (Option String) × Machine ω :=
  if names.isEmpty then ([], m)
  else
    let (tags, m) := m.evaluateAll host frame (names.take evaluationsInFlight)
    let (answers, m) := m.awaitAll host tags
    let (more, m) := fetch host m frame (names.drop evaluationsInFlight)
    (answers ++ more, m)
termination_by names.length
decreasing_by
  cases names with
  | nil => simp_all
  | cons => simp only [evaluationsInFlight, List.length_drop, List.length_cons]; omega

def notFetched : String := "Failed to fetch!"

def unsetValue : String := "\"\""

def shownVariables (names : List String) (answers : List (Option String)) : List VariableView :=
  ((names.zip answers).map fun (name, answer) => ⟨name, answer.getD notFetched⟩).filter
    fun v => v.value != unsetValue

def showVariables (host : Host ω) (m : Machine ω) (request : Request) : Machine ω :=
  match request.argumentsAs VariablesArguments.schema VariablesArguments.ofConformed with
  | .error fault => m.refuse request (.invalidArguments request.command fault)
  | .ok arguments =>
    match ScopeReference.decode arguments.variablesReference with
    | .error fault => m.refuse request (.badReference fault)
    | .ok scope =>
      match m.state.viewFrame? scope.frame with
      | none =>
        (m.log .debug "dap" ("variables of unknown frame " ++ Text.Decimal.showNat scope.frame)).succeed
          request (.variableList [])
      | some frame =>
        let (names, m) := m.namesIn host frame scope.kind
        let (answers, m) := m.fetch host (m.state.engineFrame scope.frame) names
        m.succeed request (.variableList (shownVariables names answers))

/-- The engine is told to assign and then asked for the value it has made of it. -/
def setVariable (host : Host ω) (m : Machine ω) (request : Request) : Machine ω :=
  match request.argumentsAs SetVariableArguments.schema SetVariableArguments.ofConformed with
  | .error fault => m.refuse request (.invalidArguments request.command fault)
  | .ok arguments =>
    match ScopeReference.decode arguments.variablesReference with
    | .error fault => m.refuse request (.badReference fault)
    | .ok scope =>
      let frame := m.state.engineFrame scope.frame
      let (assignment, m) := m.evaluate host frame (arguments.name ++ "=" ++ arguments.value)
      -- what the engine answers to the assignment itself is of no interest
      let (question, m) := (m.forget assignment).evaluate host frame arguments.name
      let (answer, m) := m.await host question
      m.succeed request (.variableValue (answer.getD notFetched))

/-- What is typed at the console is answered by console output, all else by an evaluation. -/
def evaluateExpression (host : Host ω) (m : Machine ω) (request : Request) : Machine ω :=
  match request.argumentsAs EvaluateArguments.schema EvaluateArguments.ofConformed with
  | .error fault => m.refuse request (.invalidArguments request.command fault)
  | .ok arguments =>
    if arguments.context = .repl then
      match m.send host (.evaluateOnConsole arguments.expression) with
      | (.ok (), m) => m.succeed request (.result "")
      | (.error fault, m) => m.refuse request (.consoleNotReached fault)
    else
      let frame := m.state.engineFrame (arguments.frameId.getD 0)
      let (tag, m) := m.evaluate host frame arguments.expression
      match m.await host tag with
      | (some answer, m) => m.succeed request (.result answer)
      | (none, m) =>
        m.refuse request (if arguments.context = .hover then .nothingToShow else .notEvaluated)

end DebugBridge.Session.Machine
