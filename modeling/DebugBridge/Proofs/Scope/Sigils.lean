import DebugBridge.Proofs.Script.Layout
import DebugBridge.Proofs.Script.Respelling

/-! Names of variables. A sigil begins a variable before any colon, but colons are part of a name in pairs only. So a
sigil is a variable of no name where a single colon follows it, and nowhere else. A walk that comes upon it collects
the bare sigil. -/

set_option autoImplicit false

namespace DebugBridge.Script

/-! ## Tokens -/

/-- A sigil before a single colon where a token may begin, behind whole tokens and a gap. -/
def LoneSigil (text : List Char) : Prop :=
  ∃ stretches gap sigil after, text = textOf stretches ++ (gap ++ sigil :: ':' :: after) ∧
    Divided 1 stretches (gap ++ sigil :: ':' :: after) ∧ Gap gap (sigil :: ':' :: after) ∧
    (sigil = '%' ∨ sigil = '$') ∧ after.head? ≠ some ':'

theorem textOf_append (stretches later : List Stretch) :
    textOf (stretches ++ later) = textOf stretches ++ textOf later :=
  List.flatMap_append

theorem Divided.earlier {line : Nat} {stretches later : List Stretch} {tail : List Char}
    (divided : Divided line (stretches ++ later) tail) : Divided line stretches (textOf later ++ tail) := by
  intro before s after same
  have stands := divided before s (after ++ later) (by rw [same, List.append_assoc, List.cons_append])
  rwa [textOf_append, List.append_assoc] at stands

theorem endsName_colon {after : List Char} (single : after.head? ≠ some ':') : EndsName (':' :: after) where
  noPart c first := by
    obtain rfl := Option.some.inj first
    rfl
  noSeparator := by
    rintro ⟨rest, same⟩
    obtain ⟨-, rfl⟩ := List.cons.inj same
    exact single rfl

theorem exists_colon {kind : TokenKind} {spelling rest : List Char}
    (isVariable : kind = .localVariable ∨ kind = .globalVariable) (isSpelling : IsSpelling kind [] spelling)
    (ends : EndsBefore kind [] rest) : ∃ sigil after, spelling = [sigil] ∧ rest = ':' :: after ∧
      (sigil = '%' ∨ sigil = '$') ∧ after.head? ≠ some ':' := by
  have sigil : ∃ sigil, spelling = [sigil] ∧ (sigil = '%' ∨ sigil = '$') := by
    rcases isVariable with rfl | rfl
    · exact ⟨'%', isSpelling, .inl rfl⟩
    · exact ⟨'$', isSpelling, .inr rfl⟩
  have around : EndsName rest ∧ rest.head? = some ':' := by
    rcases isVariable with rfl | rfl <;> exact ends.imp_right fun colon => colon rfl
  obtain ⟨sigil, alone, isSigil⟩ := sigil
  obtain ⟨endsName, colon⟩ := around
  obtain ⟨after, rfl⟩ := List.head?_eq_some_iff.mp colon
  refine ⟨sigil, after, alone, rfl, isSigil, fun second => endsName.noSeparator ?_⟩
  obtain ⟨tail, rfl⟩ := List.head?_eq_some_iff.mp second
  exact ⟨tail, rfl⟩

/-- And a sigil before a single colon is a variable of no name. -/
theorem exists_piece {sigil : Char} {after : List Char} (isSigil : sigil = '%' ∨ sigil = '$')
    (single : after.head? ≠ some ':') : ∃ kind, (kind = .localVariable ∨ kind = .globalVariable) ∧
      Piece (some (kind, [])) [sigil] (':' :: after) := by
  have isLexeme : IsName [] ∧ ∀ c ∈ ([] : List Char).head?, isNameStart c = true ∨ c = ':' :=
    ⟨.nil, fun _ first => by cases first⟩
  have ends : EndsName (':' :: after) ∧ (([] : List Char) = [] → (':' :: after).head? = some ':') :=
    ⟨endsName_colon single, fun _ => rfl⟩
  rcases isSigil with rfl | rfl
  · exact ⟨.localVariable, .inl rfl, .token isLexeme rfl ends⟩
  · exact ⟨.globalVariable, .inr rfl, .token isLexeme rfl ends⟩

section

variable {source : String} {tokens : List Token}

/-- All tokens but the end of file stand in the source. -/
theorem exists_stretch (read : tokenize source = .ok tokens) {token : Token} (member : token ∈ tokens)
    (inText : token.kind ≠ .endOfFile) : ∃ before s after tail, s.token = token ∧
      source.toList = textOf before ++ (textOf (s :: after) ++ tail) ∧ Divided 1 (before ++ s :: after) tail := by
  obtain ⟨stretches, last, ⟨whole, divided, -⟩, rfl⟩ := exists_division read
  rcases List.mem_append.mp member with stands | isEnd
  · obtain ⟨s, inside, rfl⟩ := List.mem_map.mp stands
    obtain ⟨before, after, rfl⟩ := List.append_of_mem inside
    exact ⟨before, s, after, last, rfl, by rw [whole, textOf_append, List.append_assoc], divided⟩
  · obtain rfl := List.mem_singleton.mp isEnd
    exact absurd rfl inText

theorem inText_of_variable {token : Token} (isVariable : token.kind = .localVariable ∨ token.kind = .globalVariable) :
    token.kind ≠ .endOfFile := by
  rcases isVariable with kind | kind <;> simp [kind]

theorem isName_lexeme (read : tokenize source = .ok tokens) {token : Token} (member : token ∈ tokens)
    (isVariable : token.kind = .localVariable ∨ token.kind = .globalVariable) : IsName token.lexeme.toList := by
  obtain ⟨before, s, after, tail, rfl, -, divided⟩ := exists_stretch read member (inText_of_variable isVariable)
  have isLexeme := (divided before s after rfl).isLexeme
  rcases isVariable with kind | kind <;>
    · rw [kind] at isLexeme
      exact isLexeme.1

theorem loneSigil_of_nameless (read : tokenize source = .ok tokens) {token : Token} (member : token ∈ tokens)
    (nameless : ¬ token.IsNamed) : LoneSigil source.toList := by
  obtain ⟨isVariable, empty⟩ := Classical.not_imp.mp nameless
  rw [Classical.not_not] at empty
  obtain ⟨before, s, after, tail, rfl, whole, divided⟩ := exists_stretch read member (inText_of_variable isVariable)
  obtain ⟨gap, -, isSpelling, ends, -⟩ := divided before s after rfl
  rw [empty, String.toList_empty] at isSpelling ends
  obtain ⟨sigil, behind, alone, colon, isSigil, single⟩ := exists_colon isVariable isSpelling ends
  have text : textOf (s :: after) ++ tail = s.gap ++ sigil :: ':' :: behind := by
    rw [textOf_cons, Stretch.text, alone, List.append_assoc, List.append_assoc, colon, List.singleton_append]
  rw [alone, colon] at gap
  exact ⟨before, s.gap, sigil, behind, by rw [whole, text], text ▸ divided.earlier, gap, isSigil, single⟩

theorem nameless_of_loneSigil (read : tokenize source = .ok tokens) (lone : LoneSigil source.toList) :
    ∃ token ∈ tokens, ¬ token.IsNamed := by
  obtain ⟨stretches, gap, sigil, after, whole, divided, isGap, isSigil, single⟩ := lone
  obtain ⟨kind, isVariable, piece⟩ := exists_piece isSigil single
  -- the text is read up to the sigil, then the sigil alone
  rw [tokenize, whole, tokensFrom_divided divided, tokensFrom_gap isGap] at read
  rw [show sigil :: ':' :: after = [sigil] ++ ':' :: after from rfl, tokensFrom_piece piece] at read
  generalize 1 + (textOf stretches).count '\n' + gap.count '\n' = line at read
  cases later : tokensFrom (line + [sigil].count '\n') (':' :: after) with
  | error fault =>
    rw [later] at read
    cases read
  | ok rest =>
    rw [later] at read
    obtain rfl := Except.ok.inj read
    exact ⟨⟨kind, "", line⟩, List.mem_append_right _ List.mem_cons_self, fun named => named isVariable rfl⟩

end

/-! ## Visits -/

theorem eq_of_reference {token : Token} {v : Variable} (reference : token.reference? = some v) :
    v.name = token ∧ (token.kind = .localVariable ∨ token.kind = .globalVariable) := by
  unfold Token.reference? at reference
  split at reference
  · next isLocal => exact ⟨(congrArg Variable.name (Option.some.inj reference)).symm, .inl isLocal⟩
  · next isGlobal => exact ⟨(congrArg Variable.name (Option.some.inj reference)).symm, .inr isGlobal⟩
  · cases reference

theorem mem_visits {tokens : List Token} {program : List Statement} (accepted : parse tokens = .ok program)
    {v : Variable} (visited : .variable v ∈ Statement.visitsOfAll program) :
    v.name ∈ tokens ∧ (v.name.kind = .localVariable ∨ v.name.kind = .globalVariable) := by
  rw [(parse_layout accepted).1] at visited
  obtain ⟨⟨spot, segment⟩, inLayout, member⟩ := List.mem_flatMap.mp visited
  have inSegment : v.name ∈ segment.tokens ∧ (v.name.kind = .localVariable ∨ v.name.kind = .globalVariable) := by
    cases segment with
    | heading h =>
      have parameter : v ∈ h.parameters := by simpa [visitsAt] using member
      obtain ⟨token, between, rfl⟩ := List.mem_map.mp parameter
      obtain ⟨inside, isLocal⟩ := List.mem_filter.mp between
      exact ⟨by simp [Segment.tokens, Heading.tokens, inside], .inl (of_decide_eq_true isLocal)⟩
    | single token =>
      have reference : token.reference? = some v := by simpa [visitsAt] using member
      obtain ⟨rfl, isVariable⟩ := eq_of_reference reference
      exact ⟨List.mem_singleton_self _, isVariable⟩
  exact ⟨List.takeWhile_subset _ (mem_layoutOf inLayout inSegment.1), inSegment.2⟩

end DebugBridge.Script

namespace DebugBridge.Scope

open Script

/-! ## Names of scopes -/

def FileScopes.names (scopes : FileScopes) : List String := scopes.locals.flatMap Prod.snd ++ scopes.globals

def written (v : Variable) : String :=
  match v.kind with
  | .functionLocal => "%" ++ v.name.lexeme
  | .global => "$" ++ v.name.lexeme

def IsNameOfVariable (name : String) : Prop :=
  ∃ sigil rest, name.toList = sigil :: rest ∧ (sigil = '%' ∨ sigil = '$') ∧ IsName rest ∧ rest ≠ []

theorem mem_insertNew {names : List String} {name other : String} :
    other ∈ insertNew names name ↔ other ∈ names ∨ other = name := by
  rw [insertNew]
  split
  · next known =>
    have present : name ∈ names := by simpa using known
    exact ⟨.inl, fun either => either.elim id fun same => same ▸ present⟩
  · simp

theorem mem_insertLocal {function name other : String} {entries : List (String × List String)} :
    other ∈ (insertLocal function name entries).flatMap Prod.snd ↔
      other ∈ entries.flatMap Prod.snd ∨ other = name := by
  induction entries with
  | nil => simp [insertLocal]
  | cons entry rest ih =>
    obtain ⟨f, names⟩ := entry
    rw [insertLocal]
    split
    · simp only [List.flatMap_cons, List.mem_append, mem_insertNew]
      exact or_right_comm
    · simp only [List.flatMap_cons, List.mem_append, ih, or_assoc]

theorem mem_names_step {c : Collector} {visit : Visit} {name : String} :
    name ∈ (c.step visit).scopes.names ↔ name ∈ c.scopes.names ∨ ∃ v, visit = .variable v ∧ name = written v := by
  rcases visit with head | ⟨kind, token⟩
  · simp [Collector.step]
  · cases kind with
    | functionLocal =>
      simp only [Collector.step, FileScopes.names, List.mem_append, mem_insertLocal, Visit.variable.injEq,
        exists_eq_left', written]
      exact or_right_comm
    | global =>
      simp only [Collector.step, FileScopes.names, List.mem_append, mem_insertNew, Visit.variable.injEq,
        exists_eq_left', written, or_assoc]

theorem mem_names_foldl {visits : List Visit} {c : Collector} {name : String} :
    name ∈ (visits.foldl Collector.step c).scopes.names ↔
      name ∈ c.scopes.names ∨ ∃ v, .variable v ∈ visits ∧ name = written v := by
  induction visits generalizing c with
  | nil => simp
  | cons visit rest ih =>
    rw [List.foldl_cons, ih, mem_names_step, or_assoc]
    simp only [List.mem_cons, or_and_right, exists_or, eq_comm]

theorem mem_names_collect {program : List Statement} {name : String} :
    name ∈ (FileScopes.collect program).names ↔
      ∃ v, .variable v ∈ Statement.visitsOfAll program ∧ name = written v := by
  rw [FileScopes.collect, mem_names_foldl]
  simp [FileScopes.names, FileScopes.empty]

theorem toList_written (v : Variable) :
    ∃ sigil, (written v).toList = sigil :: v.name.lexeme.toList ∧ (sigil = '%' ∨ sigil = '$') := by
  rcases v with ⟨kind, name⟩
  cases kind with
  | functionLocal => exact ⟨'%', String.toList_append, .inl rfl⟩
  | global => exact ⟨'$', String.toList_append, .inr rfl⟩

/-- A variable is collected under a name just if it has one. -/
theorem isNameOfVariable_written {v : Variable}
    (isVariable : v.name.kind = .localVariable ∨ v.name.kind = .globalVariable)
    (isName : IsName v.name.lexeme.toList) : IsNameOfVariable (written v) ↔ v.name.IsNamed := by
  obtain ⟨sigil, same, isSigil⟩ := toList_written v
  constructor
  · rintro ⟨_, rest, whole, -, -, filled⟩ - empty
    rw [same, empty] at whole
    exact filled (List.cons.inj whole).2.symm
  · intro named
    exact ⟨sigil, _, same, isSigil, isName, fun empty => named isVariable (String.toList_eq_nil_iff.mp empty)⟩

theorem names_named {source : String} {tokens : List Token} {program : List Statement}
    (read : tokenize source = .ok tokens) (accepted : parse tokens = .ok program) :
    (∀ name ∈ (FileScopes.collect program).names, IsNameOfVariable name) ↔
      ∀ v, .variable v ∈ Statement.visitsOfAll program → v.name.IsNamed := by
  have each (v : Variable) (visited : .variable v ∈ Statement.visitsOfAll program) :
      IsNameOfVariable (written v) ↔ v.name.IsNamed := by
    obtain ⟨member, isVariable⟩ := mem_visits accepted visited
    exact isNameOfVariable_written isVariable (isName_lexeme read member isVariable)
  constructor
  · intro names v visited
    exact (each v visited).mp (names _ (mem_names_collect.mpr ⟨v, visited, rfl⟩))
  · intro named name member
    obtain ⟨v, visited, rfl⟩ := mem_names_collect.mp member
    exact (each v visited).mpr (named v visited)

/-- Every variable has a name unless a sigil stands alone before a colon, and every collected name is one of a variable
unless a walk comes upon such a sigil. -/
theorem variables_named {source : String} {tokens : List Token} (read : tokenize source = .ok tokens) :
    (∀ token ∈ tokens, token.kind = .localVariable ∨ token.kind = .globalVariable → IsName token.lexeme.toList) ∧
      ((∀ token ∈ tokens, token.IsNamed) ↔ ¬ LoneSigil source.toList) ∧
      ∀ program, parse tokens = .ok program →
        ((∀ name ∈ (FileScopes.collect program).names, IsNameOfVariable name) ↔
          ∀ v, .variable v ∈ Statement.visitsOfAll program → v.name.IsNamed) ∧
        (¬ LoneSigil source.toList → ∀ name ∈ (FileScopes.collect program).names, IsNameOfVariable name) := by
  have named : (∀ token ∈ tokens, token.IsNamed) ↔ ¬ LoneSigil source.toList := by
    constructor
    · intro named lone
      obtain ⟨token, member, nameless⟩ := nameless_of_loneSigil read lone
      exact nameless (named token member)
    · intro noLone token member
      exact Classical.not_not.mp fun nameless => noLone (loneSigil_of_nameless read member nameless)
  refine ⟨fun token => isName_lexeme read, named, fun program accepted => ?_⟩
  have collected := names_named read accepted
  exact ⟨collected, fun noLone => collected.mpr fun v visited =>
    named.mpr noLone v.name (mem_visits accepted visited).1⟩

def mentioned : String := "%a = $b::c % \"%:\"; // $:"

theorem variables_named_mentioned : ∃ tokens program, tokenize mentioned = .ok tokens ∧ parse tokens = .ok program ∧
    ¬ LoneSigil mentioned.toList ∧ (FileScopes.collect program).names = ["%a", "$b::c"] ∧
    ∀ name ∈ (FileScopes.collect program).names, IsNameOfVariable name := by
  let tokens : List Token :=
    [⟨.localVariable, "a", 1⟩, ⟨.punctuation, "=", 1⟩, ⟨.globalVariable, "b::c", 1⟩, ⟨.punctuation, "%", 1⟩,
      ⟨.string, "%:", 1⟩, ⟨.punctuation, ";", 1⟩, ⟨.endOfFile, "", 1⟩]
  have read : tokenize mentioned = .ok tokens := by decide +kernel
  have named : ∀ token ∈ tokens, token.IsNamed := by decide
  obtain ⟨-, lone, collected⟩ := variables_named read
  refine ⟨tokens, _, read, rfl, lone.mp named, by decide +kernel, (collected _ rfl).2 (lone.mp named)⟩

/-- A bare sigil is a variable, and it is collected. -/
theorem variables_named_bare : ∃ tokens program, tokenize "%:;" = .ok tokens ∧ parse tokens = .ok program ∧
    ⟨.localVariable, "", 1⟩ ∈ tokens ∧ (FileScopes.collect program).names = ["%"] ∧
    ¬ ∀ name ∈ (FileScopes.collect program).names, IsNameOfVariable name := by
  let tokens : List Token :=
    [⟨.localVariable, "", 1⟩, ⟨.punctuation, ":", 1⟩, ⟨.punctuation, ";", 1⟩, ⟨.endOfFile, "", 1⟩]
  have read : tokenize "%:;" = .ok tokens := by decide +kernel
  refine ⟨tokens, _, read, rfl, List.mem_cons_self, by decide +kernel, fun named => ?_⟩
  obtain ⟨sigil, rest, whole, -, -, filled⟩ := named "%" (by decide +kernel)
  exact filled (List.cons.inj whole).2.symm

end DebugBridge.Scope
