import DebugBridge.Proofs.Script.Outline

/-! What a walk over the statements of a script comes upon is what the script's outline says: the reader drops no
variable, repeats none and keeps their order. -/

set_option autoImplicit false

namespace DebugBridge.Script

def Visit.unpackaged : Visit → Visit
  | .function head => .function { head with package := none }
  | .variable v => .variable v

theorem Statement.visitsOfAll_append (statements later : List Statement) :
    visitsOfAll (statements ++ later) = visitsOfAll statements ++ visitsOfAll later := by
  induction statements with
  | nil => rfl
  | cons first rest ih => rw [List.cons_append, visitsOfAll, visitsOfAll, ih, List.append_assoc]

theorem Statement.visitsOfAll_singleton (s : Statement) : visitsOfAll [s] = s.visits := by
  rw [visitsOfAll, visitsOfAll, List.append_nil]

def Enclosing.visits : Enclosing → List Visit
  | .package _ done => Statement.visitsOfAll done.reverse
  | .function head done =>
    .function head :: (head.parameters.map .variable ++ Statement.visitsOfAll done.reverse)
  | .block leading done => leading.map .variable ++ Statement.visitsOfAll done.reverse

namespace Reader

def settled (r : Reader) : List Visit :=
  Statement.visitsOfAll r.program.reverse ++ r.enclosing.reverse.flatMap Enclosing.visits

/-- The visits of what was read of the current statement, or of the declaration whose body is to follow. -/
def underway (r : Reader) : List Visit :=
  match r.mode with
  | .statement mentions _ => mentions.reverse.map .variable
  | .functionBrace name found => .function (headOf r.package? name found.reverse) :: found.reverse.map .variable
  | _ => []

def visits (r : Reader) : List Visit := r.settled ++ r.underway

theorem parameters_headOf (package : Option Token) (name : Token) (parameters : List Variable) :
    (headOf package name parameters).parameters = parameters := by
  unfold headOf
  split <;> rfl

theorem unpackaged_headOf (package : Option Token) (name : Token) (parameters : List Variable) :
    (Visit.function (headOf package name parameters)).unpackaged = .function (headOf none name parameters) := by
  unfold headOf
  split <;> rfl

/-! ## Statements -/

section

variable {r r' : Reader} {token : Token}

theorem add_settled (r : Reader) (s : Statement) :
    (r.add s).settled = r.settled ++ s.visits ∧ (r.add s).mode = .boundary := by
  unfold add
  split <;> simp [settled, *, Enclosing.visits, Statement.visitsOfAll_append, Statement.visitsOfAll_singleton]

theorem settled_enclosing (mode : Mode) (innermost : Enclosing) (outer : List Enclosing) (program : List Statement) :
    settled ⟨mode, innermost :: outer, program⟩ = settled ⟨mode, outer, program⟩ ++ innermost.visits := by
  simp [settled]

theorem close_settled (closed : r.close token = .ok r') :
    r'.settled = r.settled ∧ (r'.mode = .boundary ∨ r'.mode = .packageEnd) := by
  obtain ⟨mode, enclosing, program⟩ := r
  cases enclosing with
  | nil => cases closed
  | cons innermost outer =>
    rw [settled_enclosing]
    cases innermost with
    | package name done =>
      obtain rfl := Except.ok.inj closed
      exact ⟨(add_settled ⟨mode, outer, program⟩ (.block done.reverse)).1, .inr rfl⟩
    | function head done =>
      obtain rfl := Except.ok.inj closed
      obtain ⟨settled, boundary⟩ := add_settled ⟨mode, outer, program⟩ (.function head done.reverse)
      exact ⟨settled, .inl boundary⟩
    | block leading done =>
      obtain rfl := Except.ok.inj closed
      obtain ⟨settled, boundary⟩ := add_settled ⟨mode, outer, program⟩
        (if leading.isEmpty then .block done.reverse else .block [.expression leading, .block done.reverse])
      refine ⟨settled.trans ?_, .inl boundary⟩
      cases leading <;> simp [Enclosing.visits, Statement.visits, Statement.visitsOfAll]

/-! ## Single tokens -/

/-- Where a statement may be, seen from the tokens; nowhere in the midst of a heading. -/
def place? : Mode → Option Place
  | .boundary | .packageEnd => some .boundary
  | .statement _ depth => some (.within depth)
  | .packageName | .packageBrace _ | .functionBrace _ _ => some (.within 0)
  | .functionName | .functionParen _ | .parameters _ _ => none

theorem visits_settled (between : r.mode = .boundary ∨ r.mode = .packageEnd) : r.visits = r.settled := by
  rcases between with mode | mode <;> simp [visits, underway, mode]

theorem visits_boundary (placed : place? r.mode = some .boundary) : r.visits = r.settled := by
  apply visits_settled
  cases mode : r.mode <;> rw [mode] at placed <;> first | exact .inl rfl | exact .inr rfl | cases placed

theorem inStatement_visits {mentions : List Variable} {depth : Nat}
    (read : r.inStatement mentions depth token = .ok r') :
    place? r'.mode = some ((Place.within depth).next token) ∧
      r'.visits = r.settled ++ mentions.reverse.map .variable ++ token.reference?.toList.map .variable := by
  obtain ⟨added, boundary⟩ := add_settled r (.expression mentions.reverse)
  unfold inStatement at read
  extract_lets stay at read
  -- the statement goes on, with no further variable
  have goesOn {deeper : Nat} (staying : stay mentions deeper = .ok r') (unnamed : token.reference? = none) :
      place? r'.mode = some (.within deeper) ∧
        r'.visits = r.settled ++ mentions.reverse.map .variable ++ token.reference?.toList.map .variable := by
    obtain rfl := Except.ok.inj staying
    simp [place?, visits, underway, settled, unnamed]
  split at read
  · next kind =>
    obtain rfl := Except.ok.inj read
    simp [place?, Place.next, kind, visits, underway, settled, Token.reference?]
  · next kind =>
    obtain rfl := Except.ok.inj read
    simp [place?, Place.next, kind, visits, underway, settled, Token.reference?]
  · next kind =>
    have unnamed : token.reference? = none := by simp [Token.reference?, kind]
    split at read
    · next semicolon =>
      obtain rfl := Except.ok.inj read
      rw [visits_settled (.inl boundary), added, boundary, unnamed]
      simp [place?, Place.next, kind, semicolon, Statement.visits]
    split at read
    · next opening =>
      obtain rfl := Except.ok.inj read
      rw [visits_settled (.inl rfl), settled_enclosing, unnamed]
      simp [place?, Place.next, kind, opening, Enclosing.visits, Statement.visitsOfAll]
      rfl
    split at read
    · next closing =>
      obtain ⟨settled, between⟩ := close_settled read
      rw [visits_settled between, settled, added, unnamed]
      refine ⟨?_, by simp [Statement.visits]⟩
      rcases between with mode | mode <;> simp [mode, place?, Place.next, kind, closing]
    split at read
    · next opening =>
      have next : (Place.within depth).next token = .within (depth + 1) := by simp [Place.next, kind, opening]
      rw [next]
      exact goesOn read unnamed
    split at read
    · next closing =>
      have next : (Place.within depth).next token = .within (depth - 1) := by simp [Place.next, kind, closing]
      split at read
      · cases read
      · rw [next]
        exact goesOn read unnamed
    · next semicolon opening closing left right =>
      have inside : ¬ (depth = 0 ∧ token.lexeme ∈ [";", "\x7b", "\x7d"]) := by
        simp only [List.mem_cons, List.not_mem_nil, or_false]
        rintro ⟨outside, mark | mark | mark⟩
        · exact semicolon ⟨mark, outside⟩
        · exact opening ⟨mark, outside⟩
        · exact closing ⟨mark, outside⟩
      have next : (Place.within depth).next token = .within depth := by
        simp only [Place.next, kind, if_true, if_neg inside, if_neg left, if_neg right]
      rw [next]
      exact goesOn read unnamed
  · next noLocal noGlobal noMark =>
    have unnamed : token.reference? = none := by
      unfold Token.reference?
      split <;> simp_all
    have next : (Place.within depth).next token = .within depth := if_neg noMark
    rw [next]
    exact goesOn read unnamed

/-- A token is read as the outline has it: not as part of a heading. -/
structure Advances (place : Place) (r : Reader) (token : Token) (r' : Reader) : Prop where
  single : place = .boundary → token.isKeyword "function" = false
  placed : place? r'.mode = some (place.next token)
  visited : r'.visits = r.visits ++ token.reference?.toList.map .variable

theorem separator_only {mark : String} (isMark : token.isPunctuation mark = true)
    (separates : mark ∈ [";", "\x7b", "\x7d"]) :
    token.isKeyword "function" = false ∧ token.reference? = none ∧ (Place.within 0).next token = .boundary := by
  simp only [Token.isPunctuation, Bool.and_eq_true, beq_iff_eq] at isMark
  obtain ⟨kind, rfl⟩ := isMark
  refine ⟨by simp [Token.isKeyword, kind], by simp [Token.reference?, kind], ?_⟩
  rw [Place.next, if_pos kind, if_pos ⟨rfl, separates⟩]

theorem word_only (isWord : token.kind = .identifier) :
    token.reference? = none ∧ (Place.within 0).next token = .within 0 := by
  simp [Token.reference?, Place.next, isWord]

theorem keyword_only {word : String} (isWord : token.isKeyword word = true)
    (other : word.toList ≠ "function".toList) :
    token.kind = .identifier ∧ token.isKeyword "function" = false :=
  ⟨keyword_word isWord, keyword_other isWord other⟩

/-- A brace opens a construct whose beginning has been read. -/
theorem advances_into {innermost : Enclosing} (brace : token.isPunctuation "\x7b" = true)
    (begun : r.underway = innermost.visits) :
    Advances (.within 0) r token { r with mode := .boundary, enclosing := innermost :: r.enclosing } := by
  obtain ⟨-, unnamed, next⟩ := separator_only brace (by decide)
  refine ⟨fun outside => (by cases outside), congrArg some next.symm, ?_⟩
  rw [visits_settled (.inl rfl), settled_enclosing, visits, begun, unnamed]
  exact (List.append_nil _).symm

theorem atBoundary_visits (between : r.mode = .boundary ∨ r.mode = .packageEnd)
    (read : r.atBoundary token = .ok r') :
    (token.isKeyword "function" = true ∧ r' = { r with mode := .functionName }) ∨
      Advances .boundary r token r' := by
  have before := visits_settled between
  unfold atBoundary at read
  split at read
  -- a closing brace, then the two keywords, and everything else begins a statement
  · next brace =>
    obtain ⟨noKeyword, unnamed, next⟩ := separator_only brace (by decide)
    obtain ⟨settled, between⟩ := close_settled read
    refine .inr ⟨fun _ => noKeyword, ?_, by simp [before, visits_settled between, settled, unnamed]⟩
    refine Eq.trans ?_ (congrArg some next.symm)
    rcases between with mode | mode <;> rw [mode, place?]
  split at read
  · next keyword =>
    obtain ⟨kind, noKeyword⟩ := keyword_only keyword (by decide)
    obtain ⟨unnamed, next⟩ := word_only kind
    split at read
    · obtain rfl := Except.ok.inj read
      refine .inr ⟨fun _ => noKeyword, congrArg some next.symm, ?_⟩
      rw [before, unnamed]
      rfl
    · cases read
    · cases read
  split at read
  · next keyword =>
    split at read
    · exact .inl ⟨keyword, (Except.ok.inj read).symm⟩
    · exact .inl ⟨keyword, (Except.ok.inj read).symm⟩
    · cases read
  · next noKeyword =>
    obtain ⟨place, visits⟩ := inStatement_visits read
    exact .inr ⟨fun _ => by simpa using noKeyword, place, by simpa [before] using visits⟩

theorem step_visits {place : Place} (placed : place? r.mode = some place) (read : r.step token = .ok r') :
    (place = .boundary ∧ token.isKeyword "function" = true ∧ r' = { r with mode := .functionName }) ∨
      Advances place r token r' := by
  unfold step at read
  split at read
  · next mode =>
    rw [mode] at placed
    obtain rfl := Option.some.inj placed
    exact (atBoundary_visits (.inl mode) read).imp_left (And.intro rfl)
  · next mode =>
    rw [mode] at placed
    obtain rfl := Option.some.inj placed
    split at read
    · next semicolon =>
      obtain rfl := Except.ok.inj read
      obtain ⟨noKeyword, unnamed, next⟩ := separator_only semicolon (by decide)
      refine .inr ⟨fun _ => noKeyword, congrArg some next.symm, ?_⟩
      rw [visits_settled (.inr mode), unnamed]
      rfl
    · exact (atBoundary_visits (.inr mode) read).imp_left (And.intro rfl)
  · next mentions depth mode =>
    rw [mode] at placed
    obtain rfl := Option.some.inj placed
    obtain ⟨place, visits⟩ := inStatement_visits read
    exact .inr ⟨fun outside => (by cases outside), place, by simpa [Reader.visits, underway, mode] using visits⟩
  · next mode =>
    rw [mode] at placed
    obtain rfl := Option.some.inj placed
    split at read
    · next isWord =>
      obtain rfl := Except.ok.inj read
      obtain ⟨unnamed, next⟩ := word_only isWord
      refine .inr ⟨fun outside => (by cases outside), congrArg some next.symm, ?_⟩
      simp [visits, underway, settled, unnamed, mode]
    · cases read
  · next name mode =>
    rw [mode] at placed
    obtain rfl := Option.some.inj placed
    split at read
    · next brace =>
      obtain rfl := Except.ok.inj read
      exact .inr (advances_into brace (by simp [underway, mode, Enclosing.visits, Statement.visitsOfAll]))
    · cases read
  -- within a heading the reader is nowhere in the outline
  · next mode =>
    rw [mode] at placed
    cases placed
  · next mode =>
    rw [mode] at placed
    cases placed
  · next mode =>
    rw [mode] at placed
    cases placed
  · next name found mode =>
    rw [mode] at placed
    obtain rfl := Option.some.inj placed
    split at read
    · next brace =>
      obtain rfl := Except.ok.inj read
      refine .inr (advances_into brace ?_)
      simp [underway, mode, Enclosing.visits, Statement.visitsOfAll, parameters_headOf]
    · cases read

/-! ## Headings -/

theorem run_cons {rest : List Token} (read : r.step token = .ok r') :
    (token :: rest).foldlM step r = rest.foldlM step r' := by
  rw [List.foldlM_cons, read]
  rfl

theorem run_cons_ok {rest : List Token} {last : Reader} (ran : (token :: rest).foldlM step r = .ok last) :
    ∃ next, r.step token = .ok next ∧ rest.foldlM step next = .ok last := by
  rw [List.foldlM_cons] at ran
  cases read : r.step token with
  | error fault =>
    rw [read] at ran
    cases ran
  | ok next =>
    rw [read] at ran
    exact ⟨next, rfl, ran⟩

theorem parameters_run {name : Token} {found : List Variable} {between : List Token}
    (stays : ∀ token ∈ between, token.isPunctuation ")" = false) (mode : r.mode = .parameters name found) :
    between.foldlM step r = .ok { r with mode := .parameters name ((locals between).reverse ++ found) } := by
  induction between generalizing r found with
  | nil =>
    rw [locals, List.filter_nil, List.map_nil, List.reverse_nil, List.nil_append, ← mode]
    rfl
  | cons token rest ih =>
    rw [List.forall_mem_cons] at stays
    by_cases isLocal : token.kind = .localVariable
    · let taken : Reader := { r with mode := .parameters name (⟨.functionLocal, token⟩ :: found) }
      have read : r.step token = .ok taken := by simp [step, mode, stays.1, isLocal, taken]
      rw [run_cons read]
      simpa [locals, isLocal] using ih (r := taken) stays.2 rfl
    · have read : r.step token = .ok r := by simp [step, mode, stays.1, isLocal]
      rw [run_cons read]
      simpa [locals, isLocal] using ih stays.2 mode

theorem heading_run (h : Heading) (mode : r.mode = .functionName) :
    (h.name :: h.opening :: (h.between ++ [h.closing])).foldlM step r =
      .ok { r with mode := .functionBrace h.name h.parameters.reverse } := by
  have named : r.step h.name = .ok { r with mode := .functionParen h.name } := by
    simp [step, mode, h.isName]
  have opened : ({ r with mode := .functionParen h.name }).step h.opening =
      .ok { r with mode := .parameters h.name [] } := by
    simp [step, h.isOpening]
  have between : h.between.foldlM step { r with mode := .parameters h.name [] } =
      .ok { r with mode := .parameters h.name h.parameters.reverse } := by
    simpa [Heading.parameters] using parameters_run (r := { r with mode := .parameters h.name [] }) h.stays rfl
  have closed : ({ r with mode := .parameters h.name h.parameters.reverse }).step h.closing =
      .ok { r with mode := .functionBrace h.name h.parameters.reverse } := by
    simp [step, h.isClosing]
  rw [run_cons named, run_cons opened, List.foldlM_append, between]
  exact run_cons closed

theorem visits_heading (r : Reader) (h : Heading) :
    ({ r with mode := .functionBrace h.name h.parameters.reverse }).visits =
      r.settled ++ .function (headOf r.package? h.name h.parameters) :: h.parameters.map .variable := by
  simp [visits, underway, settled, package?]

theorem heading_complete {keyword endOfFile : Token} {rest : List Token} {last : Reader} {program : List Statement}
    (isKeyword : keyword.isKeyword "function" = true) (mode : r.mode = .functionName)
    (ran : rest.foldlM step r = .ok last) (finished : last.finish endOfFile = .ok program) :
    ∃ h after, Heading.read? (keyword :: rest) = some (h, after) := by
  cases rest with
  | nil =>
    obtain rfl := Except.ok.inj ran
    rw [finish, mode] at finished
    cases finished
  | cons name rest =>
    obtain ⟨named, read, ran⟩ := run_cons_ok ran
    simp only [step, mode] at read
    split at read
    · next isName =>
      obtain rfl := Except.ok.inj read
      cases rest with
      | nil =>
        obtain rfl := Except.ok.inj ran
        cases finished
      | cons opening rest =>
        obtain ⟨opened, read, ran⟩ := run_cons_ok ran
        simp only [step] at read
        split at read
        · next isOpening =>
          obtain rfl := Except.ok.inj read
          -- with no parenthesis that closes, all that follows is taken for parameters and the heading is still
          -- open at the end
          by_cases closes : ∃ token ∈ rest, token.isPunctuation ")" = true
          · exact Heading.exists_read? isKeyword isName isOpening closes
          · simp only [not_exists, not_and, Bool.not_eq_true] at closes
            rw [parameters_run closes rfl] at ran
            obtain rfl := Except.ok.inj ran
            cases finished
        · cases read
    · cases read

/-! ## Whole scripts -/

theorem whole_visits {program : List Statement} (closed : r.whole = .ok program) :
    Statement.visitsOfAll program = r.settled := by
  unfold whole at closed
  split at closed
  · next nothing =>
    obtain rfl := Except.ok.inj closed
    simp [settled, List.isEmpty_iff.mp nothing]
  · cases closed

theorem finish_visits {endOfFile : Token} {program : List Statement} (finished : r.finish endOfFile = .ok program) :
    Statement.visitsOfAll program = r.visits := by
  unfold finish at finished
  split at finished
  · next mode => rw [whole_visits finished, visits_settled (.inl mode)]
  · next mode => rw [whole_visits finished, visits_settled (.inr mode)]
  · next mentions depth mode =>
    split at finished
    · rw [whole_visits finished, (add_settled r _).1]
      simp [visits, underway, mode, Statement.visits]
    · cases finished
  all_goals cases finished

/-- What is read and what the outline says of the rest make up the whole. -/
theorem run_visits {place : Place} {text : List Token} {last : Reader} {endOfFile : Token} {program : List Statement}
    (placed : place? r.mode = some place) (ran : text.foldlM step r = .ok last)
    (finished : last.finish endOfFile = .ok program) :
    (Statement.visitsOfAll program).map Visit.unpackaged =
      r.visits.map Visit.unpackaged ++ (outline place text).flatMap Segment.visits := by
  fun_induction outline place text generalizing r with
  | case1 place =>
    obtain rfl := Except.ok.inj ran
    rw [finish_visits finished, List.flatMap_nil, List.append_nil]
  | case2 place token rest h after found ih =>
    obtain ⟨rfl, rfl⟩ : token = h.keyword ∧ rest = (h.name :: h.opening :: (h.between ++ [h.closing])) ++ after :=
      List.cons.inj (Place.tokens_heading? found)
    obtain ⟨next, read, ran⟩ := run_cons_ok ran
    -- the reader is at a heading just if the outline is, since a heading that is begun is read to its end
    rcases step_visits placed read with ⟨rfl, -, rfl⟩ | advances
    · rw [List.foldlM_append, heading_run h rfl] at ran
      rw [ih rfl ran, visits_boundary placed]
      have heading := visits_heading r h
      rw [heading, List.map_append, List.map_cons, unpackaged_headOf, List.map_map]
      simp only [List.flatMap_cons, Segment.visits, List.append_assoc, List.cons_append]
      rfl
    · cases place with
      | boundary => exact absurd h.isKeyword (by simp [advances.single rfl])
      | within depth => cases found
  | case3 place token rest none ih =>
    obtain ⟨next, read, ran⟩ := run_cons_ok ran
    rcases step_visits placed read with ⟨rfl, isKeyword, rfl⟩ | advances
    -- no heading is found here, and one that is begun would be read to its end
    · obtain ⟨h, after, found⟩ := heading_complete isKeyword rfl ran finished
      rw [Place.heading?, found] at none
      cases none
    · rw [ih advances.placed ran, advances.visited]
      simp [Segment.visits, Visit.unpackaged]

end

end Reader

/-- A walk over the statements of a script comes upon the variables of its tokens in their order, those kept out
of headings apart, and upon a declaration where its heading stands. -/
theorem parse_visits {tokens : List Token} {program : List Statement} (accepted : parse tokens = .ok program) :
    (outline .boundary (code tokens)).flatMap Segment.tokens = code tokens ∧
      (Statement.visitsOfAll program).map Visit.unpackaged =
        (outline .boundary (code tokens)).flatMap Segment.visits := by
  refine ⟨tokens_outline _ _, ?_⟩
  unfold parse at accepted
  split at accepted
  · cases accepted
  · next last ran => exact Reader.run_visits rfl ran accepted

def nested : List Token :=
  [word "Package", word "P", mark "\x7b", word "function", word "A::f", mark "(", loc "a", mark ",", glob "b",
    mark ",", loc "c", mark ")", mark "\x7b", loc "d", mark "(", glob "e", mark ";", mark "\x7b", loc "f",
    mark "\x7d", mark ")", mark "\x7b", glob "g", mark "\x7b", loc "h", mark "\x7d", mark "\x7d", loc "i",
    mark "\x7d", mark "\x7d", mark ";", glob "j", ⟨.endOfFile, "", 1⟩, loc "k"]
where
  word (text : String) : Token := ⟨.identifier, text, 1⟩
  mark (text : String) : Token := ⟨.punctuation, text, 1⟩
  loc (text : String) : Token := ⟨.localVariable, text, 1⟩
  glob (text : String) : Token := ⟨.globalVariable, text, 1⟩

theorem parse_visits_nested :
    ∃ program, parse nested = .ok program ∧
      (Statement.visitsOfAll program).map Visit.unpackaged =
        (outline .boundary (code nested)).flatMap Segment.visits ∧
      (Statement.visitsOfAll program).map (fun | .function head => head.name.lexeme | .variable v => v.name.lexeme) =
        ["f", "a", "c", "d", "e", "f", "g", "h", "i", "j"] :=
  ⟨_, rfl, (parse_visits rfl).2, by decide⟩

end DebugBridge.Script
