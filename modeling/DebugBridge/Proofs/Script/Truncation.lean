import DebugBridge.Proofs.Script.Layout

/-! Scripts that break off. A script that can be read is nowhere turned down before its end, wherever that end is cut
to; what is said of the end depends on whether the name of a package or of a function is due there. -/

set_option autoImplicit false

namespace DebugBridge.Script

def nameAfter : Spot × Segment → Option Expectation
  | (⟨.boundary, _, _⟩, .single token) =>
    if token.isKeyword "package" then some .packageName
    else if token.isKeyword "function" then some .functionName
    else none
  | _ => none

/-- The name that is due where a text ends. -/
def nameDue? (text : List Token) : Option Expectation := (layoutOf text).getLast?.bind nameAfter

theorem nameAfter_within {spot : Spot} {depth : Nat} (within : spot.place = .within depth) (segment : Segment) :
    nameAfter (spot, segment) = none := by
  obtain ⟨place, braces, due⟩ := spot
  obtain rfl : place = .within depth := within
  rfl

theorem nameAfter_heading (spot : Spot) (h : Heading) : nameAfter (spot, .heading h) = none := by
  obtain ⟨place, braces, due⟩ := spot
  cases place <;> rfl

theorem nameAfter_boundary {spot : Spot} (boundary : spot.place = .boundary) (token : Token) :
    nameAfter (spot, .single token) =
      if token.isKeyword "package" then some .packageName
      else if token.isKeyword "function" then some .functionName
      else none := by
  obtain ⟨place, braces, due⟩ := spot
  obtain rfl : place = .boundary := boundary
  rfl

theorem Place.next_open (depth : Nat) {token : Token} (stays : token.isPunctuation ")" = false) :
    ∃ deeper, (Place.within (depth + 1)).next token = .within (deeper + 1) := by
  unfold Place.next
  dsimp only
  split
  · next mark =>
    rw [if_neg (by simp)]
    split
    · exact ⟨depth + 1, rfl⟩
    · rw [if_neg fun closing => by simp [Token.isPunctuation, mark, closing] at stays]
      exact ⟨depth, rfl⟩
  · exact ⟨depth, rfl⟩

theorem Place.next_opening {depth : Nat} {token : Token} (opening : token.isPunctuation "(" = true) :
    (Place.within depth).next token = .within (depth + 1) := by
  simp only [Token.isPunctuation, Bool.and_eq_true, beq_iff_eq] at opening
  simp [Place.next, opening]

def Nameless (spot : Spot) (text : List Token) : Prop :=
  ∀ segment ∈ layout spot (outline spot.place text), nameAfter segment = none

theorem nameless_nil (spot : Spot) : Nameless spot [] := by
  intro segment member
  rw [outline] at member
  cases member

theorem nameless_cons {spot : Spot} {depth : Nat} {token : Token} {rest : List Token}
    (within : spot.place = .within depth) (others : Nameless (spot.next token) rest) :
    Nameless spot (token :: rest) := by
  have single : outline spot.place (token :: rest) = .single token :: outline (spot.place.next token) rest := by
    rw [within, outline]
    rfl
  intro segment member
  rw [single, layout] at member
  rcases List.mem_cons.mp member with rfl | later
  · exact nameAfter_within within _
  · exact others segment later

theorem layout_ne_nil {spot : Spot} {place : Place} {text : List Token} (some : text ≠ []) :
    layout spot (outline place text) ≠ [] := by
  fun_cases outline place text with
  | case1 => exact (some rfl).elim
  | case2 token rest h after => exact List.cons_ne_nil _ _
  | case3 token rest => exact List.cons_ne_nil _ _

theorem Nameless.getLast? {spot : Spot} {text : List Token} (nameless : Nameless spot text) (more : text ≠ [])
    (due : Option Expectation) :
    ((layout spot (outline spot.place text)).getLast?.map nameAfter).getD due = none := by
  have laidOut : layout spot (outline spot.place text) ≠ [] := layout_ne_nil more
  rw [List.getLast?_eq_some_getLast laidOut, Option.map_some, Option.getD_some]
  exact nameless _ (List.getLast_mem laidOut)

theorem nameless_open {spot : Spot} {depth : Nat} {text : List Token} (deep : spot.place = .within (depth + 1))
    (stays : ∀ token ∈ text, token.isPunctuation ")" = false) : Nameless spot text := by
  induction text generalizing spot depth with
  | nil => exact nameless_nil spot
  | cons token rest ih =>
    obtain ⟨here, later⟩ := List.forall_mem_cons.mp stays
    obtain ⟨deeper, next⟩ := Place.next_open depth here
    exact nameless_cons deep (ih ((congrArg (Place.next · token) deep).trans next) later)

namespace Reader

def nameDue? (r : Reader) : Option Expectation :=
  match r.mode with
  | .packageName => some .packageName
  | .functionName => some .functionName
  | _ => none

section

variable {r r' last : Reader} {token : Token} {spot : Spot}

/-! ## Declarations that break off -/

/-- A declaration of which no more is there than its keyword is still to be named; any more of it, and nothing in it
can be a declaration. -/
theorem heading_unfinished {keyword : Token} {rest : List Token} (isKeyword : keyword.isKeyword "function" = true)
    (mode : r.mode = .functionName) (ran : rest.foldlM step r = .ok last)
    (none : Heading.read? (keyword :: rest) = none) (within : spot.place = .within 0) :
    rest = [] ∧ last = r ∨ rest ≠ [] ∧ last.nameDue? = Option.none ∧ Nameless spot rest := by
  cases rest with
  | nil => exact .inl ⟨rfl, (Except.ok.inj ran).symm⟩
  | cons name rest =>
    refine .inr ⟨List.cons_ne_nil _ _, ?_⟩
    obtain ⟨named, read, ran⟩ := run_cons_ok ran
    simp only [step, mode] at read
    split at read
    · next isName =>
      obtain rfl := Except.ok.inj read
      have next : (spot.next name).place = .within 0 := by
        rw [Spot.next, within]
        exact (word_only isName).2
      cases rest with
      | nil =>
        obtain rfl := Except.ok.inj ran
        exact ⟨rfl, nameless_cons within (nameless_nil _)⟩
      | cons opening rest =>
        obtain ⟨opened, read, ran⟩ := run_cons_ok ran
        simp only [step] at read
        split at read
        · next isOpening =>
          obtain rfl := Except.ok.inj read
          -- a parenthesis that closes would have made a heading of it
          have stays : ∀ token ∈ rest, token.isPunctuation ")" = false := by
            intro token member
            rw [Bool.eq_false_iff]
            intro closes
            obtain ⟨h, after, found⟩ := Heading.exists_read? isKeyword isName isOpening ⟨token, member, closes⟩
            cases none.symm.trans found
          rw [parameters_run stays rfl] at ran
          obtain rfl := Except.ok.inj ran
          have opened : ((spot.next name).next opening).place = .within 1 := by
            rw [Spot.next, next]
            exact Place.next_opening isOpening
          exact ⟨rfl, nameless_cons within (nameless_cons next (nameless_open opened stays))⟩
        · cases read
    · cases read

/-! ## Single tokens -/

theorem nameDue?_tracks (tracks : Tracks spot r) :
    r.nameDue? = match spot.due with
      | .name => some .packageName
      | _ => none := by
  have placed := tracks.placed
  rw [← tracks.due, due, nameDue?]
  cases mode : r.mode with
  | functionName => rw [mode] at placed; cases placed
  | _ => rfl

/-- The layout tells which name is due where the reader reads on in it. -/
theorem nameAfter_tracks (tracks : Tracks (spot.next token) r)
    (unheaded : spot.place = .boundary → token.isKeyword "function" = false) :
    nameAfter (spot, .single token) = r.nameDue? := by
  rw [nameDue?_tracks tracks, Spot.next]
  dsimp only
  cases place : spot.place with
  | boundary =>
    rw [nameAfter_boundary place, unheaded place]
    cases token.isKeyword "package" <;> rfl
  | within depth =>
    rw [nameAfter_within place]
    cases spot.due <;> rfl

theorem getLast?_nameAfter (first : Spot × Segment) (others : List (Spot × Segment)) (due : Option Expectation) :
    ((first :: others).getLast?.map nameAfter).getD due = (others.getLast?.map nameAfter).getD (nameAfter first) := by
  rw [List.getLast?_cons]
  cases others.getLast? <;> rfl

theorem run_nameDue {text : List Token} (tracks : Tracks spot r) (ran : text.foldlM step r = .ok last) :
    ((layout spot (outline spot.place text)).getLast?.map nameAfter).getD r.nameDue? = last.nameDue? := by
  -- the last segment tells, and where there is none, what was due before
  generalize at_ : spot.place = place
  fun_induction outline place text generalizing r spot with
  | case1 place =>
    obtain rfl := Except.ok.inj ran
    rfl
  | case2 place token rest h after found ih =>
    obtain ⟨rfl, rfl⟩ : token = h.keyword ∧ rest = (h.name :: h.opening :: (h.between ++ [h.closing])) ++ after :=
      List.cons.inj (Place.tokens_heading? found)
    obtain rfl : place = .boundary := by
      cases place with
      | boundary => rfl
      | within => cases found
    obtain ⟨next, read, ran⟩ := run_cons_ok ran
    obtain ⟨packaged, -⟩ := declaration_outside tracks at_ h.isKeyword read
    rcases step_visits tracks.placed read with ⟨-, -, rfl⟩ | advances
    · rw [List.foldlM_append, heading_run h rfl] at ran
      rw [layout, getLast?_nameAfter, nameAfter_heading]
      exact ih (heading_tracks h tracks packaged) ran rfl
    · exact absurd h.isKeyword (by simp [advances.single at_])
  | case3 place token rest unheaded ih =>
    obtain ⟨next, read, ran⟩ := run_cons_ok ran
    rw [layout, getLast?_nameAfter]
    rcases step_visits tracks.placed read with ⟨boundary, isKeyword, rfl⟩ | advances
    · have within : (spot.next token).place = .within 0 := by
        rw [Spot.next, boundary]
        exact (word_only (keyword_word isKeyword)).2
      have unread : Heading.read? (token :: rest) = none := by rwa [← at_, boundary] at unheaded
      -- without its end a declaration is all that is left of the text
      rcases heading_unfinished isKeyword rfl ran unread within with ⟨rfl, rfl⟩ | ⟨more, unnamed, nameless⟩
      · have noPackage : token.isKeyword "package" = false := by
          rw [Bool.eq_false_iff]
          intro package
          cases (keyword_only package (by decide)).2.symm.trans isKeyword
        rw [outline, nameAfter_boundary boundary, noPackage, isKeyword]
        rfl
      · rw [unnamed, ← at_]
        exact nameless.getLast? more _
    · rcases step_tracks tracks read with ⟨boundary, isKeyword, -⟩ | ⟨moved, -⟩
      · exact absurd isKeyword (by simp [advances.single boundary])
      · rw [nameAfter_tracks moved advances.single]
        exact ih moved ran (by rw [← at_]; rfl)

theorem whole_ends (r : Reader) :
    (∃ program, r.whole = .ok program) ∨ ∃ expected, r.whole = .error (.unexpectedEnd expected) := by
  unfold whole
  split
  · exact .inl ⟨_, rfl⟩
  · exact .inr ⟨_, rfl⟩

theorem finish_nameDue (r : Reader) {endOfFile : Token} (empty : endOfFile.lexeme = "") :
    match r.nameDue? with
    | some name => r.finish endOfFile = .error (.unexpected endOfFile.line name "")
    | none => (∃ program, r.finish endOfFile = .ok program) ∨
        ∃ expected, r.finish endOfFile = .error (.unexpectedEnd expected) := by
  rw [← empty]
  unfold nameDue? finish
  cases r.mode with
  | boundary | packageEnd => exact whole_ends r
  | statement mentions depth =>
    dsimp only
    split
    · exact whole_ends _
    · exact .inr ⟨_, rfl⟩
  | packageName | functionName => rfl
  | packageBrace | functionBrace | functionParen | parameters => exact .inr ⟨_, rfl⟩

end

end Reader

theorem endOf_endless {tokens : List Token} (endless : ∀ token ∈ tokens, token.kind ≠ .endOfFile) :
    (endOf tokens).lexeme = "" := by
  have none : tokens.find? (·.kind == .endOfFile) = none :=
    List.find?_eq_none.mpr fun token member => by simpa using endless token member
  rw [endOf, none, Option.getD_none]

theorem exists_read {cut rest : List Token} {program : List Statement} (accepted : parse (cut ++ rest) = .ok program)
    (endless : ∀ token ∈ cut ++ rest, token.kind ≠ .endOfFile) :
    ∃ r, cut.foldlM Reader.step Reader.initial = .ok r ∧ parse cut = r.finish (endOf cut) := by
  have part : code cut = cut := code_endless fun token member => endless token (List.mem_append_left _ member)
  unfold parse at accepted ⊢
  rw [code_endless endless, List.foldlM_append] at accepted
  rw [part]
  cases read : cut.foldlM Reader.step Reader.initial with
  | error fault =>
    rw [read] at accepted
    cases accepted
  | ok r => exact ⟨r, rfl, rfl⟩

/-- A script that breaks off is turned down only for what is missing. It is not said to end where the name of a package
or of a function is due: there the end is taken for a token that is no name. -/
theorem parse_truncated {tokens cut : List Token} {program : List Statement} (accepted : parse tokens = .ok program)
    (endless : ∀ token ∈ tokens, token.kind ≠ .endOfFile) (shorter : cut <+: tokens) :
    match nameDue? cut with
    | some name => parse cut = .error (.unexpected (endOf cut).line name "")
    | none => (∃ program, parse cut = .ok program) ∨ ∃ expected, parse cut = .error (.unexpectedEnd expected) := by
  obtain ⟨rest, rfl⟩ := shorter
  obtain ⟨r, read, finished⟩ := exists_read accepted endless
  have due : nameDue? cut = r.nameDue? := by
    have ran : ((layoutOf cut).getLast?.map nameAfter).getD none = r.nameDue? :=
      Reader.run_nameDue Reader.tracks_initial read
    rw [← ran, nameDue?]
    cases (layoutOf cut).getLast? <;> rfl
  rw [due, finished]
  exact r.finish_nameDue (endOf_endless fun token member => endless token (List.mem_append_left _ member))

def packaged : List Token :=
  [word "package" 1, word "P" 1, mark "\x7b" 1, word "function" 2, word "f" 2, mark "(" 2, ⟨.localVariable, "a", 2⟩,
    mark ")" 2, mark "\x7b" 2, mark "\x7d" 3, mark "\x7d" 4]
where
  word (text : String) (line : Nat) : Token := ⟨.identifier, text, line⟩
  mark (text : String) (line : Nat) : Token := ⟨.punctuation, text, line⟩

theorem parse_truncated_packaged :
    (∃ program, parse packaged = .ok program) ∧ (∀ token ∈ packaged, token.kind ≠ .endOfFile) ∧
      packaged.take 4 <+: packaged ∧ parse (packaged.take 4) = .error (.unexpected 2 .functionName "") := by
  have endless : ∀ token ∈ packaged, token.kind ≠ .endOfFile := by decide
  have shorter : packaged.take 4 <+: packaged := List.take_prefix 4 packaged
  have due : nameDue? (packaged.take 4) = some .functionName := by decide +kernel
  have truncated := parse_truncated rfl endless shorter
  rw [due] at truncated
  exact ⟨⟨_, rfl⟩, endless, shorter, truncated⟩

/-- Not every end is reported as one: behind a keyword alone a name is missed. -/
theorem parse_unnamed : ¬ ∀ tokens cut program, parse tokens = .ok program →
    (∀ token ∈ tokens, token.kind ≠ .endOfFile) → cut <+: tokens →
    (∃ program, parse cut = .ok program) ∨ ∃ expected, parse cut = .error (.unexpectedEnd expected) := by
  intro ends
  have turnedDown : parse (packaged.take 1) = .error (.unexpected 1 .packageName "") := rfl
  rcases ends packaged (packaged.take 1) _ rfl (by decide) (List.take_prefix 1 packaged) with
    ⟨program, read⟩ | ⟨expected, ended⟩
  · cases turnedDown.symm.trans read
  · cases turnedDown.symm.trans ended

end DebugBridge.Script
