import DebugBridge.Proofs.Script.Layout

/-! Scripts without functions and packages are judged by their braces and parentheses alone. Two counts over the tokens
tell whether a script can be read, and what is wrong with it first if it cannot. -/

set_option autoImplicit false

namespace DebugBridge.Script

structure Depths where
  braces : Nat
  parens : Nat
  deriving DecidableEq, Repr

namespace Depths

/-- In parentheses braces mean nothing. -/
def next (d : Depths) (token : Token) : Except Fault Depths :=
  if token.isPunctuation "(" then .ok { d with parens := d.parens + 1 }
  else if token.isPunctuation ")" then
    if 0 < d.parens then .ok { d with parens := d.parens - 1 }
    else .error (.unexpected token.line .expression token.lexeme)
  else if 0 < d.parens then .ok d
  else if token.isPunctuation "\x7b" then .ok { d with braces := d.braces + 1 }
  else if token.isPunctuation "\x7d" then
    if 0 < d.braces then .ok { d with braces := d.braces - 1 }
    else .error (.unexpected token.line .statement token.lexeme)
  else .ok d

def finish (d : Depths) : Except Fault Unit :=
  if 0 < d.parens then .error (.unexpectedEnd .closeParen)
  else if 0 < d.braces then .error (.unexpectedEnd .closeBrace)
  else .ok ()

def judge (tokens : List Token) : Except Fault Unit :=
  match tokens.foldlM next ⟨0, 0⟩ with
  | .error fault => .error fault
  | .ok d => d.finish

end Depths

def Token.IsPlain (token : Token) : Prop :=
  token.isKeyword "function" = false ∧ token.isKeyword "package" = false

instance (token : Token) : Decidable token.IsPlain := inferInstanceAs (Decidable (_ ∧ _))

namespace Reader

structure Inside (r : Reader) (d : Depths) : Prop where
  braces : r.braces = List.replicate d.braces .block
  mode : r.mode = .boundary ∧ d.parens = 0 ∨ ∃ mentions, r.mode = .statement mentions d.parens

/-- The reader goes on where the counts do, and where they find a fault it finds the same. -/
inductive Follows : Except Fault Reader → Except Fault Depths → Prop where
  | fault (fault : Fault) : Follows (.error fault) (.error fault)
  | inside {r : Reader} {d : Depths} : r.Inside d → Follows (.ok r) (.ok d)

section

variable {r : Reader} {d : Depths} {token : Token}

theorem inside_initial : initial.Inside ⟨0, 0⟩ := ⟨rfl, .inl ⟨rfl, rfl⟩⟩

theorem inside_add {n : Nat} (blocks : r.braces = List.replicate n .block) (s : Statement) :
    (r.add s).Inside ⟨n, 0⟩ :=
  ⟨(add_braces r s).trans blocks, .inl ⟨(add_settled r s).2, rfl⟩⟩

theorem close_follows {n : Nat} (blocks : r.braces = List.replicate n .block) :
    Follows (r.close token)
      (if 0 < n then .ok ⟨n - 1, 0⟩ else .error (.unexpected token.line .statement token.lexeme)) := by
  obtain ⟨mode, enclosing, program⟩ := r
  cases enclosing with
  | nil =>
    have none : n = 0 := by simpa [braces] using blocks.symm
    subst none
    exact .fault _
  | cons innermost outer =>
    cases n with
    | zero => simp [braces] at blocks
    | succ n =>
      simp only [braces, List.map_cons, List.replicate_succ, List.cons.injEq] at blocks
      cases innermost with
      | package | function => cases blocks.1
      | block leading done => exact .inside (inside_add (r := ⟨mode, outer, program⟩) blocks.2 _)

theorem next_unmarked (d : Depths) (unmarked : token.kind ≠ .punctuation) : d.next token = .ok d := by
  simp [Depths.next, Token.isPunctuation, unmarked]

theorem next_marked (d : Depths) (marked : token.kind = .punctuation) : d.next token =
    if token.lexeme = "(" then .ok { d with parens := d.parens + 1 }
    else if token.lexeme = ")" then
      if 0 < d.parens then .ok { d with parens := d.parens - 1 }
      else .error (.unexpected token.line .expression token.lexeme)
    else if 0 < d.parens then .ok d
    else if token.lexeme = "\x7b" then .ok { d with braces := d.braces + 1 }
    else if token.lexeme = "\x7d" then
      if 0 < d.braces then .ok { d with braces := d.braces - 1 }
      else .error (.unexpected token.line .statement token.lexeme)
    else .ok d := by
  simp [Depths.next, Token.isPunctuation, marked]

theorem inStatement_follows {mentions : List Variable} (blocks : r.braces = List.replicate d.braces .block) :
    Follows (r.inStatement mentions d.parens token) (d.next token) := by
  have added := inside_add blocks (.expression mentions.reverse)
  unfold inStatement
  extract_lets stay
  have stays (mentions : List Variable) (depth : Nat) : Follows (stay mentions depth) (.ok ⟨d.braces, depth⟩) :=
    .inside ⟨blocks, .inr ⟨mentions, rfl⟩⟩
  split
  · next kind =>
    rw [next_unmarked d (by simp [kind])]
    exact stays _ _
  · next kind =>
    rw [next_unmarked d (by simp [kind])]
    exact stays _ _
  · next kind =>
    split
    · next semicolon =>
      have next : d.next token = .ok ⟨d.braces, 0⟩ := by
        obtain ⟨n, depth⟩ := d
        simp_all [next_marked]
      rw [next]
      exact .inside added
    -- a brace matters to both where no parenthesis is open, and to neither within one
    split
    · next opening =>
      have next : d.next token = .ok ⟨d.braces + 1, 0⟩ := by simp [next_marked d kind, opening]
      rw [next]
      exact .inside ⟨by simp [braces, braceOf, ← blocks, List.replicate_succ], .inl ⟨rfl, rfl⟩⟩
    split
    · next closing =>
      have next : d.next token = if 0 < d.braces then .ok ⟨d.braces - 1, 0⟩
          else .error (.unexpected token.line .statement token.lexeme) := by
        simp [next_marked d kind, closing]
      rw [next]
      exact close_follows added.braces
    split
    · next left =>
      have next : d.next token = .ok ⟨d.braces, d.parens + 1⟩ := by simp [next_marked d kind, left]
      rw [next]
      exact stays _ _
    split
    · next right =>
      have next : d.next token = if 0 < d.parens then .ok ⟨d.braces, d.parens - 1⟩
          else .error (.unexpected token.line .expression token.lexeme) := by
        simp [next_marked d kind, right]
      rw [next]
      by_cases level : d.parens = 0
      · simp only [level, if_true, Nat.lt_irrefl, if_false]
        exact .fault _
      · rw [if_neg level, if_pos (by omega)]
        exact stays _ _
    -- what is left are braces and semicolons within parentheses, and all other marks
    · next semicolon opening closing left right =>
      have next : d.next token = .ok ⟨d.braces, d.parens⟩ := by
        rw [next_marked d kind, if_neg left, if_neg right]
        by_cases deep : 0 < d.parens
        · rw [if_pos deep]
        · have level : d.parens = 0 := by omega
          rw [if_neg deep, if_neg fun brace => opening ⟨brace, level⟩, if_neg fun brace => closing ⟨brace, level⟩]
      rw [next]
      exact stays _ _
  · next noLocal noGlobal noMark =>
    rw [next_unmarked d noMark]
    exact stays _ _

theorem step_follows (inside : r.Inside d) (plain : token.IsPlain) : Follows (r.step token) (d.next token) := by
  obtain ⟨blocks, ⟨mode, level⟩ | ⟨mentions, mode⟩⟩ := inside
  · have within : Follows (r.inStatement [] 0 token) (d.next token) := level ▸ inStatement_follows blocks
    simp only [step, mode, atBoundary, plain.1, plain.2, Bool.false_eq_true, if_false]
    split
    · next brace =>
      -- a statement that the brace would end has nothing in it
      simp only [Token.isPunctuation, Bool.and_eq_true, beq_iff_eq] at brace
      have next : d.next token = if 0 < d.braces then .ok ⟨d.braces - 1, 0⟩
          else .error (.unexpected token.line .statement token.lexeme) := by
        simp [next_marked d brace.1, brace.2, level]
      rw [next]
      exact close_follows blocks
    · exact within
  · simp only [step, mode]
    exact inStatement_follows blocks

theorem run_follows {tokens : List Token} (plain : ∀ token ∈ tokens, token.IsPlain) (inside : r.Inside d) :
    Follows (tokens.foldlM step r) (tokens.foldlM Depths.next d) := by
  induction tokens generalizing r d with
  | nil => exact .inside inside
  | cons token rest ih =>
    rw [List.forall_mem_cons] at plain
    have first := step_follows inside plain.1
    rw [List.foldlM_cons, List.foldlM_cons]
    generalize r.step token = read, d.next token = counted at first
    cases first with
    | fault fault => exact .fault fault
    | inside inside => exact ih plain.2 inside

theorem whole_follows (blocks : r.braces = List.replicate d.braces .block) (level : d.parens = 0) :
    r.whole.map (fun _ => ()) = d.finish := by
  have empty : r.enclosing.isEmpty = true ↔ d.braces = 0 := by
    have length := congrArg List.length blocks
    simp only [braces, List.length_map, List.length_replicate] at length
    rw [← length, List.isEmpty_iff, List.length_eq_zero_iff]
  unfold whole Depths.finish
  by_cases closed : d.braces = 0
  · rw [if_pos (empty.mpr closed), if_neg (by omega), if_neg (by omega)]
    rfl
  · rw [if_neg (mt empty.mp closed), if_neg (by omega), if_pos (by omega)]
    rfl

theorem finish_follows (inside : r.Inside d) (endOfFile : Token) :
    (r.finish endOfFile).map (fun _ => ()) = d.finish := by
  obtain ⟨blocks, ⟨mode, level⟩ | ⟨mentions, mode⟩⟩ := inside
  · simp only [finish, mode]
    exact whole_follows blocks level
  · simp only [finish, mode]
    split
    · next level => exact whole_follows ((add_braces r _).trans blocks) level
    · next deep =>
      rw [Depths.finish, if_pos (by omega)]
      rfl

end

end Reader

/-- A script without functions and packages is accepted just if all its parentheses, and all its braces outside of
them, are matched. Otherwise it is turned down for the first token that has no partner before it, or at its end for
what is still open. -/
theorem parse_balanced {tokens : List Token} (plain : ∀ token ∈ tokens, token.IsPlain) :
    (parse tokens).map (fun _ => ()) = Depths.judge (code tokens) := by
  have within : ∀ token ∈ code tokens, token.IsPlain := fun token member =>
    plain token (List.takeWhile_subset _ member)
  have run := Reader.run_follows within Reader.inside_initial
  unfold parse Depths.judge
  generalize (code tokens).foldlM Reader.step Reader.initial = read,
    (code tokens).foldlM Depths.next ⟨0, 0⟩ = counted at run
  cases run with
  | fault fault => rfl
  | inside inside => exact Reader.finish_follows inside (endOf tokens)

def stray : List Token :=
  [word "f", mark "\x7b", word "functions", mark "(", mark "\x7d", mark ";", mark ")", mark "\x7d",
    ⟨.punctuation, "\x7d", 2⟩, ⟨.endOfFile, "", 2⟩, mark ")"]
where
  word (text : String) : Token := ⟨.identifier, text, 1⟩
  mark (text : String) : Token := ⟨.punctuation, text, 1⟩

theorem parse_balanced_stray :
    (∀ token ∈ stray, token.IsPlain) ∧
      (parse stray).map (fun _ => ()) = .error (.unexpected 2 .statement "\x7d") :=
  have plain : ∀ token ∈ stray, token.IsPlain := by decide
  ⟨plain, (parse_balanced plain).trans rfl⟩

end DebugBridge.Script
