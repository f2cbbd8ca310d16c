import DebugBridge.Proofs.Script.Visits
import DebugBridge.Scope.FileScopes

/-! The layout of a script: which braces are open at each segment of its outline, and what they belong to, by the
tokens alone. So a token tells the package and the declaration that it stands in. -/

set_option autoImplicit false

namespace DebugBridge.Script

/-- A brace that is open, with what it belongs to: a package, a declaration of some qualified name, or neither. -/
inductive Brace where
  | package (name : Token)
  | function (name : String)
  | block

inductive Due where
  | nothing
  | name
  | brace (opens : Brace)

def Due.opened : Due → Brace
  | .brace opens => opens
  | _ => .block

def Place.isLevel : Place → Bool
  | .boundary => true
  | .within depth => depth = 0

structure Spot where
  place : Place
  /-- Innermost first. -/
  braces : List Brace
  due : Due

namespace Spot

def start : Spot := ⟨.boundary, [], .nothing⟩

def package? (spot : Spot) : Option Token :=
  spot.braces.findSome? fun
    | .package name => some name
    | _ => none

def function? (spot : Spot) : Option String :=
  spot.braces.findSome? fun
    | .function name => some name
    | _ => none

def qualified (spot : Spot) (name : Token) : String :=
  match spot.package? with
  | some package => package.lexeme ++ "::" ++ name.lexeme
  | none => name.lexeme

def bracesAfter (level : Bool) (due : Due) (token : Token) (braces : List Brace) : List Brace :=
  if level && token.isPunctuation "\x7b" then due.opened :: braces
  else if level && token.isPunctuation "\x7d" then braces.tail
  else braces

def next (spot : Spot) (token : Token) : Spot where
  place := spot.place.next token
  braces := bracesAfter spot.place.isLevel spot.due token spot.braces
  due := match spot.place, spot.due with
    | .boundary, _ => if token.isKeyword "package" then .name else .nothing
    | .within _, .name => .brace (.package token)
    | .within _, _ => .nothing

def declare (spot : Spot) (h : Heading) : Spot :=
  ⟨.within 0, spot.braces, .brace (.function (spot.qualified h.name))⟩

end Spot

/-- Segments, each with the spot where it begins. -/
def layout (spot : Spot) : List Segment → List (Spot × Segment)
  | [] => []
  | .heading h :: rest => (spot, .heading h) :: layout (spot.declare h) rest
  | .single token :: rest => (spot, .single token) :: layout (spot.next token) rest

def layoutOf (text : List Token) : List (Spot × Segment) :=
  layout .start (outline .boundary text)

def visitsAt : Spot × Segment → List Visit
  | (spot, .heading h) =>
    .function (Reader.headOf spot.package? h.name h.parameters) :: h.parameters.map .variable
  | (_, .single token) => token.reference?.toList.map .variable

/-! ## Names -/

theorem splitName_plain (text : List Char) : ∀ c ∈ (splitName text).1, isNamePart c = true ∨ c = ':' := by
  fun_induction splitName text with
  | case1 rest ih => simpa using ih
  | case2 c rest _ isPart ih => simpa [isPart] using ih
  | case3 => exact fun _ member => absurd member List.not_mem_nil
  | case4 => exact fun _ member => absurd member List.not_mem_nil

theorem cut_plain {line : Nat} {c : Char} {rest lexeme : List Char} {k : Cut} (read : cut line c rest = .ok k)
    (isWord : k.token = some (.identifier, lexeme)) : ∀ c ∈ lexeme, isNamePart c = true ∨ c = ':' := by
  have named : lexeme = (splitName (c :: rest)).1 := by
    unfold cut at read
    repeat' (first | split at read | cases read)
    all_goals simp at isWord
    exact isWord.symm
  rw [named]
  exact splitName_plain _

theorem tokensFrom_plain {line : Nat} {text : List Char} {tokens : List Token}
    (read : tokensFrom line text = .ok tokens) :
    ∀ token ∈ tokens, token.kind = .identifier → ∀ c ∈ token.lexeme.toList, isNamePart c = true ∨ c = ':' := by
  fun_induction tokensFrom line text generalizing tokens with
  | case1 line =>
    obtain rfl := Except.ok.inj read
    intro token member isWord
    obtain rfl := List.mem_singleton.mp member
    cases isWord
  | case2 => cases read
  | case3 => cases read
  | case4 line c rest k cut later found gap ih =>
    obtain rfl := Except.ok.inj read
    exact ih found
  | case5 line c rest k cut later found kind lexeme token ih =>
    obtain rfl := Except.ok.inj read
    rw [List.forall_mem_cons]
    refine ⟨fun isWord => ?_, ih found⟩
    obtain rfl : kind = .identifier := isWord
    rw [String.toList_ofList]
    exact cut_plain cut token

namespace Reader

theorem split_append {after before qualifier last : List Char}
    (divided : splitQualified.split after before = some (qualifier, last)) :
    before.reverse ++ after = qualifier ++ ':' :: ':' :: last := by
  fun_induction splitQualified.split after before with
  | case1 after before =>
    obtain ⟨rfl, rfl⟩ := Prod.mk.inj (Option.some.inj divided)
    simp
  | case2 after c before _ ih => rw [← ih divided]; simp
  | case3 => cases divided

theorem qualifiedName_headOf (package : Option Token) (name : Token) (parameters : List Variable) :
    Scope.qualifiedName (headOf package name parameters) =
      match package with
      | some package => package.lexeme ++ "::" ++ name.lexeme
      | none => name.lexeme := by
  unfold headOf
  split
  · next qualifier last divided =>
    have whole : String.ofList qualifier ++ "::" ++ String.ofList last = name.lexeme := by
      have joined := split_append divided
      rw [List.reverse_reverse, List.append_nil] at joined
      apply String.toList_inj.mp
      rw [joined]
      simp
    cases package with
    | none => exact whole
    | some package => exact congrArg (package.lexeme ++ "::" ++ ·) whole
  · rfl

end Reader

/-! ## Braces -/

namespace Spot

def Holds (spot : Spot) (brace : Brace) : Prop := brace ∈ spot.braces ∨ spot.due = .brace brace

variable {spot : Spot} {token : Token} {brace : Brace}

theorem not_holds_start : ¬ start.Holds brace := by
  rintro (member | due)
  · cases member
  · cases due

theorem holds_package {name : Token} (inside : spot.package? = some name) : spot.Holds (.package name) := by
  obtain ⟨brace, member, found⟩ := List.exists_of_findSome?_eq_some inside
  cases brace with
  | package other => exact .inl (Option.some.inj found ▸ member)
  | function | block => cases found

theorem holds_function {name : String} (inside : spot.function? = some name) : spot.Holds (.function name) := by
  obtain ⟨brace, member, found⟩ := List.exists_of_findSome?_eq_some inside
  cases brace with
  | function other => exact .inl (Option.some.inj found ▸ member)
  | package | block => cases found

theorem bracesAfter_word (isWord : token.kind = .identifier) (level : Bool) (due : Due) (braces : List Brace) :
    bracesAfter level due token braces = braces := by
  simp [bracesAfter, Token.isPunctuation, isWord]

theorem braces_next (spot : Spot) (token : Token) :
    (spot.next token).braces = spot.due.opened :: spot.braces ∨ (spot.next token).braces = spot.braces.tail ∨
      (spot.next token).braces = spot.braces := by
  unfold Spot.next bracesAfter
  dsimp only
  split
  · exact .inl rfl
  split
  · exact .inr (.inl rfl)
  · exact .inr (.inr rfl)

theorem due_name (due : (spot.next token).due = .name) :
    spot.place = .boundary ∧ token.isKeyword "package" = true := by
  unfold Spot.next at due
  dsimp only at due
  split at due
  · next boundary =>
    split at due
    · next keyword => exact ⟨boundary, keyword⟩
    · cases due
  · cases due
  · cases due

theorem due_brace (due : (spot.next token).due = .brace brace) : spot.due = .name ∧ brace = .package token := by
  unfold Spot.next at due
  dsimp only at due
  split at due
  · split at due <;> cases due
  · next named => exact ⟨named, (Due.brace.inj due).symm⟩
  · cases due

theorem opened_holds : spot.due.opened = .block ∨ spot.due = .brace spot.due.opened := by
  cases spot.due with
  | brace opens => exact .inr rfl
  | nothing | name => exact .inl rfl

/-- Only a package is announced by a single token. -/
theorem holds_next (holds : (spot.next token).Holds brace) :
    spot.Holds brace ∨ brace = .block ∨ spot.due = .name ∧ brace = .package token := by
  rcases holds with member | due
  · rcases braces_next spot token with opened | closed | same
    · rw [opened] at member
      rcases List.mem_cons.mp member with rfl | member
      · exact opened_holds.symm.imp .inr .inl
      · exact .inl (.inl member)
    · rw [closed] at member
      exact .inl (.inl (List.mem_of_mem_tail member))
    · rw [same] at member
      exact .inl (.inl member)
  · exact .inr (.inr (due_brace due))

theorem holds_declare {h : Heading} (holds : (spot.declare h).Holds brace) :
    brace ∈ spot.braces ∨ brace = .function (spot.qualified h.name) :=
  holds.imp_right fun due => (Due.brace.inj due).symm

structure Grounded (spot : Spot) : Prop where
  outermost : ∀ name, .package name ∉ spot.braces.dropLast
  free : (spot.due = .name ∨ ∃ name, spot.due = .brace (.package name)) → spot.braces = []
  named : ∀ name, spot.Holds (.package name) → name.kind = .identifier

theorem Grounded.next (grounded : spot.Grounded)
    (top : spot.place = .boundary → token.isKeyword "package" = true → spot.braces = [])
    (word : spot.due = .name → token.kind = .identifier) : (spot.next token).Grounded where
  outermost name member := by
    have lower := grounded.outermost name
    rcases braces_next spot token with opened | closed | same
    -- only an opening brace can put something below, and nothing is open where a package begins
    · rw [opened] at member
      cases braces : spot.braces with
      | nil =>
        rw [braces] at member
        cases member
      | cons inner outer =>
        rw [braces, List.dropLast_cons_cons] at member
        rcases List.mem_cons.mp member with package | member
        · rcases opened_holds with block | due
          · cases package.trans block
          · cases (grounded.free (.inr ⟨name, package ▸ due⟩)).symm.trans braces
        · exact lower (braces ▸ member)
    · rw [closed, ← List.tail_dropLast] at member
      exact lower (List.mem_of_mem_tail member)
    · rw [same] at member
      exact lower member
  free := by
    rintro (named | ⟨name, opening⟩)
    · obtain ⟨boundary, keyword⟩ := due_name named
      exact (bracesAfter_word (keyword_word keyword) _ _ _).trans (top boundary keyword)
    · obtain ⟨named, -⟩ := due_brace opening
      exact (bracesAfter_word (word named) _ _ _).trans (grounded.free (.inl named))
  named name holds := by
    rcases holds_next holds with before | block | ⟨named, package⟩
    · exact grounded.named name before
    · cases block
    · obtain rfl := Brace.package.inj package
      exact word named

theorem Grounded.declare (grounded : spot.Grounded) (h : Heading) : (spot.declare h).Grounded where
  outermost := grounded.outermost
  free := by rintro (named | ⟨name, opening⟩) <;> cases ‹_›
  named name holds := by
    rcases holds_declare holds with member | function
    · exact grounded.named name (.inl member)
    · cases function

end Spot

namespace Reader

/-! ## Constructs and their braces -/

def braceOf : Enclosing → Brace
  | .package name _ => .package name
  | .function head _ => .function (Scope.qualifiedName head)
  | .block _ _ => .block

def braces (r : Reader) : List Brace := r.enclosing.map braceOf

def due (r : Reader) : Due :=
  match r.mode with
  | .packageName => .name
  | .packageBrace name => .brace (.package name)
  | .functionBrace name found => .brace (.function (Scope.qualifiedName (headOf r.package? name found.reverse)))
  | _ => .nothing

section

variable {r r' : Reader} {token : Token} {spot : Spot}

theorem due_between (between : r.mode = .boundary ∨ r.mode = .packageEnd) : r.due = .nothing := by
  rcases between with mode | mode <;> rw [due, mode]

theorem add_braces (r : Reader) (s : Statement) : (r.add s).braces = r.braces := by
  unfold add
  split <;> simp [braces, braceOf, *]

theorem close_braces (closed : r.close token = .ok r') : r'.braces = r.braces.tail := by
  obtain ⟨mode, enclosing, program⟩ := r
  cases enclosing with
  | nil => cases closed
  | cons innermost outer =>
    cases innermost <;>
      · obtain rfl := Except.ok.inj closed
        exact add_braces ⟨mode, outer, program⟩ _

theorem inStatement_braces {mentions : List Variable} {depth : Nat}
    (read : r.inStatement mentions depth token = .ok r') :
    r'.braces = Spot.bracesAfter (depth = 0) .nothing token r.braces ∧ r'.due = .nothing := by
  have boundary := (add_settled r (.expression mentions.reverse)).2
  have added := add_braces r (.expression mentions.reverse)
  unfold inStatement at read
  extract_lets stay at read
  -- the statement goes on, and no brace counts
  have goesOn {mentions : List Variable} {deeper : Nat} (staying : stay mentions deeper = .ok r')
      (uncounted : depth = 0 → token.isPunctuation "\x7b" = false ∧ token.isPunctuation "\x7d" = false) :
      r'.braces = Spot.bracesAfter (depth = 0) .nothing token r.braces ∧ r'.due = .nothing := by
    obtain rfl := Except.ok.inj staying
    refine ⟨?_, rfl⟩
    by_cases level : depth = 0
    · simp [Spot.bracesAfter, uncounted level, braces]
    · simp [Spot.bracesAfter, level, braces]
  split at read
  · next kind => exact goesOn read fun _ => by simp [Token.isPunctuation, kind]
  · next kind => exact goesOn read fun _ => by simp [Token.isPunctuation, kind]
  · next kind =>
    split at read
    · next semicolon =>
      obtain rfl := Except.ok.inj read
      rw [added, due_between (.inl boundary)]
      simp [Spot.bracesAfter, Token.isPunctuation, semicolon]
    split at read
    · next opening =>
      obtain rfl := Except.ok.inj read
      simp [Spot.bracesAfter, Token.isPunctuation, kind, opening, braces, braceOf, Due.opened, due]
    split at read
    · next closing =>
      rw [close_braces read, added, due_between (close_settled read).2]
      simp [Spot.bracesAfter, Token.isPunctuation, kind, closing]
    next semicolon opening closing =>
    have uncounted (level : depth = 0) :
        token.isPunctuation "\x7b" = false ∧ token.isPunctuation "\x7d" = false := by
      simp only [Token.isPunctuation, kind, BEq.rfl, Bool.true_and, beq_eq_false_iff_ne]
      exact ⟨fun mark => opening ⟨mark, level⟩, fun mark => closing ⟨mark, level⟩⟩
    split at read
    · exact goesOn read uncounted
    split at read
    · split at read
      · cases read
      · exact goesOn read uncounted
    · exact goesOn read uncounted
  · next noLocal noGlobal noMark =>
    exact goesOn read fun _ => by simp [Token.isPunctuation, beq_eq_false_iff_ne.mpr noMark]

/-- A token is read as the layout has it: it opens and closes the same braces and lets the same follow. Packages
begin outside of all braces, with a plain name. -/
structure Moves (spot : Spot) (token : Token) (r' : Reader) : Prop where
  braces : r'.braces = (spot.next token).braces
  due : r'.due = (spot.next token).due
  top : spot.place = .boundary → token.isKeyword "package" = true → spot.braces = []
  word : spot.due = .name → token.kind = .identifier

theorem separator_plain {mark : String} (isMark : token.isPunctuation mark = true) (word : String) :
    token.isKeyword word = false := by
  simp only [Token.isPunctuation, Bool.and_eq_true, beq_iff_eq] at isMark
  simp [Token.isKeyword, isMark.1]

theorem close_moves (boundary : spot.place = .boundary) (braces : r.braces = spot.braces)
    (undue : spot.due = .nothing) (brace : token.isPunctuation "\x7d" = true) (read : r.close token = .ok r') :
    Moves spot token r' := by
  have noKeyword := separator_plain brace "package"
  have mark : token.isPunctuation "\x7b" = false := by
    simp only [Token.isPunctuation, Bool.and_eq_true, beq_iff_eq] at brace
    simp [Token.isPunctuation, brace.2]
  constructor
  case braces =>
    rw [close_braces read, braces]
    simp [Spot.next, Spot.bracesAfter, boundary, Place.isLevel, mark, brace]
  case due =>
    rw [due_between (close_settled read).2]
    simp [Spot.next, boundary, noKeyword]
  case top =>
    intro _ keyword
    cases noKeyword.symm.trans keyword
  case word =>
    intro named
    cases undue.symm.trans named

theorem inStatement_moves {depth : Nat} {mentions : List Variable} (level : spot.place.isLevel = decide (depth = 0))
    (unpackaged : spot.place = .boundary → token.isKeyword "package" = false)
    (braces : r.braces = spot.braces) (undue : spot.due = .nothing)
    (read : r.inStatement mentions depth token = .ok r') : Moves spot token r' := by
  obtain ⟨after, due⟩ := inStatement_braces read
  constructor
  case braces => rw [after, braces, Spot.next, level, undue]
  case due =>
    rw [due, Spot.next, undue]
    cases place : spot.place with
    | boundary => simp [unpackaged place]
    | within => rfl
  case top =>
    intro boundary keyword
    cases (unpackaged boundary).symm.trans keyword
  case word =>
    intro named
    cases undue.symm.trans named

theorem atBoundary_moves (boundary : spot.place = .boundary) (braces : r.braces = spot.braces)
    (undue : spot.due = .nothing) (unheaded : token.isKeyword "function" = false)
    (read : r.atBoundary token = .ok r') : Moves spot token r' := by
  unfold atBoundary at read
  split at read
  · next brace => exact close_moves boundary braces undue brace read
  split at read
  · next keyword =>
    have isWord := keyword_word keyword
    split at read
    · next outside =>
      obtain rfl := Except.ok.inj read
      have empty : spot.braces = [] := by rw [← braces, Reader.braces, outside]; rfl
      refine ⟨?_, ?_, fun _ _ => empty, fun _ => isWord⟩
      · exact braces.trans (Spot.bracesAfter_word isWord _ _ _).symm
      · simp [Spot.next, boundary, keyword, due]
    · cases read
    · cases read
  · next plain =>
    rw [if_neg (by simp [unheaded])] at read
    refine inStatement_moves ?_ (fun _ => Bool.eq_false_iff.mpr plain) braces undue read
    rw [boundary]
    rfl

structure Tracks (spot : Spot) (r : Reader) : Prop where
  placed : place? r.mode = some spot.place
  braces : r.braces = spot.braces
  due : r.due = spot.due
  grounded : spot.Grounded

theorem tracks_initial : Tracks .start initial :=
  ⟨rfl, rfl, rfl, nofun, fun _ => rfl, fun _ holds => (Spot.not_holds_start holds).elim⟩

theorem step_moves (tracks : Tracks spot r) (unheaded : spot.place = .boundary → token.isKeyword "function" = false)
    (read : r.step token = .ok r') : Moves spot token r' := by
  have placed := tracks.placed
  have due := tracks.due
  have braces := tracks.braces
  -- the brace of a package or of a declaration
  have opens {innermost : Enclosing} (within : spot.place = .within 0) (brace : token.isPunctuation "\x7b" = true)
      (begun : r.due = .brace (braceOf innermost)) :
      Moves spot token { r with mode := .boundary, enclosing := innermost :: r.enclosing } := by
    rw [due] at begun
    refine ⟨?_, ?_, ?_, ?_⟩
    · have opened : (spot.next token).braces = braceOf innermost :: spot.braces := by
        simp [Spot.next, Spot.bracesAfter, within, Place.isLevel, brace, begun, Due.opened]
      rw [opened, ← braces]
      rfl
    · simp [Spot.next, within, begun, Reader.due]
    · intro boundary
      cases within.symm.trans boundary
    · intro named
      cases begun.symm.trans named
  unfold step at read
  split at read
  · next mode =>
    rw [mode] at placed
    rw [due_between (.inl mode)] at due
    have boundary := (Option.some.inj placed).symm
    exact atBoundary_moves boundary braces due.symm (unheaded boundary) read
  · next mode =>
    rw [mode] at placed
    rw [due_between (.inr mode)] at due
    have boundary := (Option.some.inj placed).symm
    split at read
    · next semicolon =>
      obtain rfl := Except.ok.inj read
      have noKeyword := separator_plain semicolon "package"
      have mark : token.lexeme = ";" := by
        simp only [Token.isPunctuation, Bool.and_eq_true, beq_iff_eq] at semicolon
        exact semicolon.2
      refine ⟨?_, ?_, fun _ keyword => ?_, ?_⟩
      · refine Eq.trans braces (Eq.symm ?_)
        simp [Spot.next, Spot.bracesAfter, Token.isPunctuation, mark]
      · simp [Spot.next, boundary, noKeyword, Reader.due]
      · cases noKeyword.symm.trans keyword
      · intro named
        cases due.trans named
    · exact atBoundary_moves boundary braces due.symm (unheaded boundary) read
  · next mentions depth mode =>
    rw [mode] at placed
    have within := (Option.some.inj placed).symm
    refine inStatement_moves ?_ ?_ braces ?_ read
    · rw [within]
      rfl
    · intro boundary
      cases within.symm.trans boundary
    · rw [← due, Reader.due, mode]
  · next mode =>
    rw [mode] at placed
    have within := (Option.some.inj placed).symm
    split at read
    · next isWord =>
      obtain rfl := Except.ok.inj read
      have named : spot.due = .name := by rw [← due, Reader.due, mode]
      refine ⟨?_, ?_, ?_, fun _ => isWord⟩
      · exact braces.trans (Spot.bracesAfter_word isWord _ _ _).symm
      · simp [Spot.next, within, named, Reader.due]
      · intro boundary
        cases within.symm.trans boundary
    · cases read
  · next name mode =>
    rw [mode] at placed
    split at read
    · next brace =>
      obtain rfl := Except.ok.inj read
      exact opens (Option.some.inj placed).symm brace (by rw [Reader.due, mode]; rfl)
    · cases read
  · next mode =>
    rw [mode] at placed
    cases placed
  · next mode =>
    rw [mode] at placed
    cases placed
  · next mode =>
    rw [mode] at placed
    cases placed
  · next name found mode =>
    rw [mode] at placed
    split at read
    · next brace =>
      obtain rfl := Except.ok.inj read
      exact opens (Option.some.inj placed).symm brace (by rw [Reader.due, mode]; rfl)
    · cases read

theorem declaration_enclosing (placed : place? r.mode = some .boundary) (keyword : token.isKeyword "function" = true)
    (read : r.step token = .ok r') :
    r.enclosing = [] ∨ ∃ name done outer, r.enclosing = .package name done :: outer := by
  have isWord := keyword_word keyword
  have noBrace : token.isPunctuation "\x7d" = false := by simp [Token.isPunctuation, isWord]
  have noSemicolon : token.isPunctuation ";" = false := by simp [Token.isPunctuation, isWord]
  have noPackage : token.isKeyword "package" = false := by
    simp only [Token.isKeyword, Bool.and_eq_true, beq_iff_eq] at keyword
    rw [Token.isKeyword, keyword.2]
    simp
  have atBoundary : r.atBoundary token = .ok r' := by
    unfold step at read
    split at read
    · exact read
    · rwa [if_neg (by simp [noSemicolon])] at read
    all_goals (next mode => rw [mode] at placed; cases placed)
  rw [Reader.atBoundary, if_neg (by simp [noBrace]), if_neg (by simp [noPackage]), if_pos keyword] at atBoundary
  split at atBoundary
  · next none => exact .inl none
  · next name done outer inside => exact .inr ⟨name, done, outer, inside⟩
  · cases atBoundary

/-- The package that the reader has for a declaration is the one that is open around it. -/
theorem declaration_outside (tracks : Tracks spot r) (boundary : spot.place = .boundary)
    (keyword : token.isKeyword "function" = true) (read : r.step token = .ok r') :
    r.package? = spot.package? ∧ spot.function? = none := by
  have braces := tracks.braces
  rcases declaration_enclosing (boundary ▸ tracks.placed) keyword read with none | ⟨name, done, outer, inside⟩
  · have empty : spot.braces = [] := by rw [← braces, Reader.braces, none]; rfl
    rw [Reader.package?, none, Spot.package?, Spot.function?, empty]
    exact ⟨rfl, rfl⟩
  · have packaged : spot.braces = .package name :: outer.map braceOf := by rw [← braces, Reader.braces, inside]; rfl
    -- nothing is around a package
    have last : outer.map braceOf = [] := by
      cases low : outer.map braceOf with
      | nil => rfl
      | cons next rest =>
        rw [low] at packaged
        exact absurd (packaged ▸ List.mem_cons_self) (tracks.grounded.outermost name)
    rw [Reader.package?, inside, Spot.package?, Spot.function?, packaged, last]
    exact ⟨rfl, rfl⟩

theorem step_tracks (tracks : Tracks spot r) (read : r.step token = .ok r') :
    (spot.place = .boundary ∧ token.isKeyword "function" = true ∧ r' = { r with mode := .functionName }) ∨
      Tracks (spot.next token) r' ∧ r'.visits = r.visits ++ token.reference?.toList.map .variable := by
  refine (step_visits tracks.placed read).imp_right fun advances => ⟨?_, advances.visited⟩
  have moves := step_moves tracks advances.single read
  exact ⟨advances.placed, moves.braces, moves.due, tracks.grounded.next moves.top moves.word⟩

theorem due_heading {name : Token} {found : List Variable} {qualified : String}
    (mode : r.mode = .functionBrace name found)
    (named : Scope.qualifiedName (headOf r.package? name found.reverse) = qualified) :
    r.due = .brace (.function qualified) := by
  rw [due, mode, ← named]

theorem heading_tracks (h : Heading) (tracks : Tracks spot r) (packaged : r.package? = spot.package?) :
    Tracks (spot.declare h) { r with mode := .functionBrace h.name h.parameters.reverse } where
  placed := rfl
  braces := tracks.braces
  due := by
    refine due_heading rfl ?_
    rw [show package? { r with mode := .functionBrace h.name h.parameters.reverse } = spot.package? from packaged,
      qualifiedName_headOf]
    rfl
  grounded := tracks.grounded.declare h

/-! ## Whole scripts -/

/-- What is read and what the layout says of the rest make up the whole. Declarations stand outside of each other. -/
theorem run_layout {text : List Token} {last : Reader} {endOfFile : Token} {program : List Statement}
    (tracks : Tracks spot r) (ran : text.foldlM step r = .ok last) (finished : last.finish endOfFile = .ok program) :
    Statement.visitsOfAll program = r.visits ++ (layout spot (outline spot.place text)).flatMap visitsAt ∧
      ∀ outer h, (outer, .heading h) ∈ layout spot (outline spot.place text) →
        outer.Grounded ∧ outer.function? = none := by
  generalize at_ : spot.place = place
  -- a heading is read as a whole, any other token by itself
  fun_induction outline place text generalizing r spot with
  | case1 place =>
    obtain rfl := Except.ok.inj ran
    rw [layout]
    exact ⟨by simp [finish_visits finished], fun _ _ member => (List.not_mem_nil member).elim⟩
  | case2 place token rest h after found ih =>
    obtain ⟨rfl, rfl⟩ : token = h.keyword ∧ rest = (h.name :: h.opening :: (h.between ++ [h.closing])) ++ after :=
      List.cons.inj (Place.tokens_heading? found)
    obtain rfl : place = .boundary := by
      cases place with
      | boundary => rfl
      | within => cases found
    obtain ⟨next, read, ran⟩ := run_cons_ok ran
    obtain ⟨packaged, outside⟩ := declaration_outside tracks at_ h.isKeyword read
    rcases step_visits tracks.placed read with ⟨-, -, rfl⟩ | advances
    · rw [List.foldlM_append, heading_run h rfl] at ran
      obtain ⟨visits, headings⟩ := ih (heading_tracks h tracks packaged) ran rfl
      refine ⟨?_, fun outer inner member => ?_⟩
      · have before : r.visits = r.settled := visits_boundary (at_ ▸ tracks.placed)
        have heading := visits_heading r h
        rw [packaged] at heading
        rw [visits, heading, before, layout, List.flatMap_cons, List.append_assoc]
        rfl
      · rcases List.mem_cons.mp member with here | later
        · cases here
          exact ⟨tracks.grounded, outside⟩
        · exact headings outer inner later
    · exact absurd h.isKeyword (by simp [advances.single at_])
  | case3 place token rest none ih =>
    obtain ⟨next, read, ran⟩ := run_cons_ok ran
    rcases step_tracks tracks read with ⟨boundary, isKeyword, rfl⟩ | ⟨moved, visited⟩
    · obtain ⟨h, after, found⟩ := heading_complete isKeyword rfl ran finished
      rw [← at_, boundary, Place.heading?, found] at none
      cases none
    · obtain ⟨visits, headings⟩ := ih moved ran (by rw [← at_]; rfl)
      refine ⟨?_, fun outer inner member => ?_⟩
      · rw [visits, visited, layout, List.flatMap_cons, List.append_assoc]
        rfl
      · rcases List.mem_cons.mp member with here | later
        · cases here
        · exact headings outer inner later

end

end Reader

/-- A walk over the statements of a script comes upon what its tokens say, and on each declaration in the package
that is open around it. -/
theorem parse_layout {tokens : List Token} {program : List Statement} (accepted : parse tokens = .ok program) :
    Statement.visitsOfAll program = (layoutOf (code tokens)).flatMap visitsAt ∧
      ∀ outer h, (outer, .heading h) ∈ layoutOf (code tokens) → outer.Grounded ∧ outer.function? = none := by
  unfold parse at accepted
  split at accepted
  · cases accepted
  · next last ran => exact Reader.run_layout Reader.tracks_initial ran accepted

theorem mem_layout {text : List Segment} {spot outer : Spot} {segment : Segment}
    (member : (outer, segment) ∈ layout spot text) : segment ∈ text := by
  induction text generalizing spot with
  | nil => cases member
  | cons first rest ih =>
    cases first with
    | heading | single =>
      rcases List.mem_cons.mp member with here | later
      · cases here
        exact List.mem_cons_self
      · exact List.mem_cons_of_mem _ (ih later)

theorem holds_layout {text : List Segment} {spot outer : Spot} {segment : Segment} {brace : Brace}
    (member : (outer, segment) ∈ layout spot text) (holds : outer.Holds brace) :
    spot.Holds brace ∨ brace = .block ∨ (∃ name ∈ text.flatMap Segment.tokens, brace = .package name) ∨
      ∃ declared h, (declared, .heading h) ∈ layout spot text ∧ brace = .function (declared.qualified h.name) := by
  induction text generalizing spot with
  | nil => cases member
  | cons first rest ih =>
    cases first with
    | heading h =>
      rcases List.mem_cons.mp member with here | later
      · cases here
        exact .inl holds
      rcases ih later with before | block | ⟨name, named, package⟩ | ⟨declared, inner, member, function⟩
      · rcases Spot.holds_declare before with around | function
        · exact .inl (.inl around)
        · exact .inr (.inr (.inr ⟨spot, h, List.mem_cons_self, function⟩))
      · exact .inr (.inl block)
      · exact .inr (.inr (.inl ⟨name, List.mem_append_right _ named, package⟩))
      · exact .inr (.inr (.inr ⟨declared, inner, List.mem_cons_of_mem _ member, function⟩))
    | single token =>
      rcases List.mem_cons.mp member with here | later
      · cases here
        exact .inl holds
      rcases ih later with before | block | ⟨name, named, package⟩ | ⟨declared, inner, member, function⟩
      · rcases Spot.holds_next before with before | block | ⟨-, package⟩
        · exact .inl before
        · exact .inr (.inl block)
        · exact .inr (.inr (.inl ⟨token, List.mem_cons_self, package⟩))
      · exact .inr (.inl block)
      · exact .inr (.inr (.inl ⟨name, List.mem_cons_of_mem _ named, package⟩))
      · exact .inr (.inr (.inr ⟨declared, inner, List.mem_cons_of_mem _ member, function⟩))

theorem mem_layoutOf {text : List Token} {outer : Spot} {segment : Segment} {token : Token}
    (member : (outer, segment) ∈ layoutOf text) (part : token ∈ segment.tokens) : token ∈ text := by
  rw [← tokens_outline .boundary text]
  exact List.mem_flatMap.mpr ⟨segment, mem_layout member, part⟩

theorem holds_layoutOf {text : List Token} {outer : Spot} {segment : Segment} {brace : Brace}
    (member : (outer, segment) ∈ layoutOf text) (holds : outer.Holds brace) :
    brace = .block ∨ (∃ name ∈ text, brace = .package name) ∨
      ∃ declared h, (declared, .heading h) ∈ layoutOf text ∧ brace = .function (declared.qualified h.name) := by
  have known := holds_layout member holds
  rw [tokens_outline] at known
  exact known.resolve_left Spot.not_holds_start

end DebugBridge.Script
