import DebugBridge.Proofs.Script.Statements

/-! Declarations and the statements beside them. What a descent makes of one keeps the package that it was read in, and
its body declares nothing. -/

set_option autoImplicit false

namespace DebugBridge.Script

theorem Reader.package_headOf (package : Option Token) (name : Token) (parameters : List Variable) :
    (headOf package name parameters).package = package := by
  unfold headOf
  split <;> rfl

inductive Part (package : Option Token) : List Token → Statement → Prop where
  | function {keyword : Token} {rest : List Token} {head : FunctionHead} {body : List Statement}
      (declares : keyword.isKeyword "function" = true) (placed : head.package = package) (free : ∀ s ∈ body, s.Free) :
      Part package (keyword :: rest) (.function head body)
  | statement {first : Token} {rest : List Token} {s : Statement} (declaresNot : first.isKeyword "function" = false)
      (free : s.Free) : Part package (first :: rest) s

namespace Descent

open Reader (Reads)

section

variable {script : List Token} {allowance : Nat} {cursor : Cursor} {token : Token} {r : Reader}

/-! ## Names and marks that must be there -/

/-- Behind a keyword an identifier is due. The end of file is turned down like any other token that is none. -/
theorem Meets.named {α : Type} {f : Token → Descent α} {post : α → Cursor → Prop} {expected : Expectation}
    (sound : Sound script cursor) (faces : Faces script cursor.position token) (plain : token.kind ≠ .endOfFile)
    (reads : Reads script r (cursor.position + 1))
    (steps : ∀ name : Token, name.kind ≠ .identifier → r.step name = .error (Reader.unexpected name expected))
    (finishes : ∀ name, r.finish name = .error (Reader.unexpected name expected))
    (named : ∀ name : Token, name.kind = .identifier → Faces script (cursor.position + 1) name →
      Sound script ((cursor.move (cursor.position + 1)).move (cursor.position + 2)) →
      Meets script (f name) ((cursor.move (cursor.position + 1)).move (cursor.position + 2)) post) :
    Meets script (do
      skip
      let name ← advance
      if name.kind = .identifier then f name else Descent.fault (Reader.unexpected name expected)) cursor post := by
  have behind := sound.next faces plain
  obtain ⟨name, facing⟩ : ∃ name, Faces script (cursor.position + 1) name := exists_faces behind.position
  refine .after (run_skip sound.tokens faces plain) ?_
  by_cases ends : name.kind = .endOfFile
  · refine .after (run_advance_end behind.tokens facing ends) ?_
    rw [if_neg (by rw [ends]; decide)]
    exact .fault behind.stay ((reads.finish facing ends).trans (finishes name))
  · refine .after (run_advance behind.tokens facing ends) ?_
    by_cases word : name.kind = .identifier
    · rw [if_pos word]
      exact named name word facing (behind.next facing ends)
    · rw [if_neg word]
      exact .fault (behind.next facing ends) (reads.fault facing ends (steps name word))

theorem wants_mark {mark : String} {expected : Expectation} {position : Nat} {next : Reader}
    (faces : Faces script position token) (reads : Reads script r position)
    (step : r.step token = if token.isPunctuation mark then .ok next else .error (Reader.unexpected token expected))
    (finish : r.finish token = .error (.unexpectedEnd expected)) (unmarked : token.isPunctuation mark = false) :
    parse script = .error
      (if token.kind = .endOfFile then .unexpectedEnd expected else Reader.unexpected token expected) := by
  by_cases ends : token.kind = .endOfFile
  · rw [if_pos ends, reads.finish faces ends, finish]
  · rw [if_neg ends]
    exact reads.fault faces ends (step.trans (if_neg (by simp [unmarked])))

/-! ## Parameters -/

/-- What a list of parameters comes to: the reader is at the parenthesis that closes it. -/
structure Listed (script : List Token) (r : Reader) (name : Token) (cursor : Cursor) (parameters : List Variable)
    (next : Cursor) : Prop where
  reads : Reads script { r with mode := .parameters name parameters.reverse } next.position
  closes : ∃ token, Faces script next.position token ∧ token.isPunctuation ")" = true
  spent : next.spent ≤ 2 * next.position
  kept : cursor.position ≤ next.position
  package : next.package = cursor.package

theorem readParameters_meets {name : Token} {found : List Variable} (sound : Sound script cursor)
    (reads : Reads script { r with mode := .parameters name found } cursor.position)
    (spent : cursor.spent ≤ 2 * cursor.position) (enough : firstEnd script - cursor.position < allowance) :
    Meets script (readParameters allowance found) cursor (Listed script r name cursor) := by
  induction allowance generalizing cursor found with
  | zero => exact absurd enough (Nat.not_lt_zero _)
  | succ allowance ih =>
    obtain ⟨token, faces⟩ := exists_faces sound.position
    rw [readParameters]
    refine .branch (run_isPunctuation sound.tokens faces _) (fun closing => ?_) fun noParenthesis => ?_
    · refine .pure sound ⟨?_, ⟨token, faces, closing⟩, spent, Nat.le_refl _, rfl⟩
      rw [List.reverse_reverse]
      exact reads
    have entered := sound.enter .parameters (by omega)
    refine .after (run_enter ..) ?_
    by_cases ends : token.kind = .endOfFile
    · refine .after (run_advance_end entered.tokens faces ends) ?_
      rw [ends]
      exact .fault entered.stay ((reads.finish faces ends).trans rfl)
    · refine .after (run_advance entered.tokens faces ends) ?_
      have advanced := (entered.next faces ends).again .parameters (Nat.lt_succ_self cursor.position)
      have before := (faces.within ends).1
      -- whatever the token is, the list goes on behind it
      have onward {found' : List Variable}
          (read : ({ r with mode := .parameters name found } : Reader).step token =
            .ok { r with mode := .parameters name found' }) :
          Meets script (again .parameters cursor.position >>= fun _ => readParameters allowance found')
            ((cursor.enter .parameters).move (cursor.position + 1)) (Listed script r name cursor) := by
        refine .after (run_again ..) ((ih advanced (reads.next faces ends read) ?_ ?_).mono fun _ _ listed => ?_)
        · show cursor.spent + 1 ≤ 2 * (cursor.position + 1)
          omega
        · show firstEnd script - (cursor.position + 1) < allowance
          omega
        · have kept : cursor.position + 1 ≤ _ := listed.kept
          exact ⟨listed.reads, listed.closes, listed.spent, by omega, listed.package⟩
      have read : ({ r with mode := .parameters name found } : Reader).step token =
          if token.kind = .localVariable then .ok { r with mode := .parameters name (⟨.functionLocal, token⟩ :: found) }
          else .ok { r with mode := .parameters name found } := if_neg (by simp [noParenthesis])
      cases kind : token.kind with
      | endOfFile => exact absurd kind ends
      | localVariable => exact onward (read.trans (if_pos kind))
      | identifier | globalVariable | number | string | punctuation =>
        exact onward (read.trans (if_neg (by simp [kind])))

/-! ## Declarations -/

/-- Where declarations may stand: at the top, or directly in a package, whose name the descent knows. -/
structure Outside (r : Reader) (cursor : Cursor) : Prop where
  mode : r.mode = .boundary
  outer : r.enclosing = [] ∨ ∃ name done, r.enclosing = [.package name done]
  package : cursor.package = r.package?

theorem Outside.step_function (outside : Outside r cursor) (keyword : token.isKeyword "function" = true) :
    r.step token = .ok { r with mode := .functionName } := by
  unfold Reader.step
  rw [outside.mode]
  unfold Reader.atBoundary
  rw [word_unmarked (keyword_word keyword), keyword_other keyword (by decide), keyword]
  rcases outside.outer with outer | ⟨name, done, outer⟩ <;> rw [outer] <;> rfl

theorem readFunction_meets (sound : Sound script cursor) (outside : Outside r cursor)
    (faces : Faces script cursor.position token) (keyword : token.isKeyword "function" = true)
    (reads : Reads script r cursor.position) (spent : cursor.spent ≤ 2 * cursor.position + 1)
    (enough : 2 * (firstEnd script - cursor.position) < allowance) :
    Meets script (readFunction allowance) cursor fun s next =>
      Ended script r cursor s next ∧ Part cursor.package (slice script cursor.position next.position) s := by
  have plain := plain_word (keyword_word keyword)
  have begun := reads.next faces plain (outside.step_function keyword)
  refine .named sound faces plain begun (fun _ noWord => if_neg noWord) (fun _ => rfl) fun name word facing sound => ?_
  -- the parenthesis that opens the parameters
  obtain ⟨opening, facing⟩ := exists_faces sound.position
  have headed := begun.next ‹_› (plain_word word) (if_pos word)
  refine .expect sound facing (fun opens => ?_) (wants_mark facing headed rfl rfl)
  have opened := sound.next facing (plain_mark opens)
  have within : cursor.position + 3 ≤ firstEnd script := opened.position
  refine .bind (readParameters_meets (r := r) opened (headed.next facing (plain_mark opens) (if_pos opens)) ?_ ?_)
    fun parameters next sound listed => ?_
  · show cursor.spent ≤ 2 * (cursor.position + 3)
    omega
  · show firstEnd script - (cursor.position + 3) < allowance
    omega
  have kept : cursor.position + 3 ≤ next.position := listed.kept
  have paid := listed.spent
  -- the parenthesis that closes them, and the brace that opens the body
  obtain ⟨closing, facing, closes⟩ := listed.closes
  have closed := sound.next facing (plain_mark closes)
  have complete := listed.reads.next facing (plain_mark closes) (if_pos closes)
  refine .after (run_skip sound.tokens facing (plain_mark closes)) ?_
  obtain ⟨brace, facing⟩ := exists_faces closed.position
  refine .expect closed facing (fun opens => ?_) (wants_mark facing complete rfl rfl)
  have inside := closed.next facing (plain_mark opens)
  have body := complete.next facing (plain_mark opens) (if_pos opens)
  rw [List.reverse_reverse] at body
  refine .bind ((statement_block_meet script allowance).2 (.function (Reader.headOf r.package? name parameters))
    inside body (by simp) ?_ ?_)
    fun body last sound ⟨done, free⟩ => ?_
  · show next.spent ≤ 2 * (next.position + 2) + due script (next.position + 2)
    omega
  · have within : next.position + 2 ≤ firstEnd script := inside.position
    show 2 * (firstEnd script - (next.position + 2)) + 1 < allowance
    omega
  have beyond : next.position + 2 < last.position := done.advanced
  have cost := done.spent
  have package : last.package = r.package? := (done.package.trans listed.package).trans outside.package
  have found : (get : Descent Cursor).run.run last = (.ok last, last) := rfl
  refine .after found ?_
  rw [package]
  refine .pure sound ⟨⟨done.reads, by omega, by omega, fun _ => by omega, package.trans outside.package.symm⟩, ?_⟩
  rw [slice_cons faces plain (by omega)]
  exact .function keyword ((Reader.package_headOf ..).trans outside.package.symm) free

theorem readDeclaration_meets (sound : Sound script cursor) (outside : Outside r cursor)
    (faces : Faces script cursor.position token) (goesOn : stops token = false)
    (noPackage : token.isKeyword "package" = false) (reads : Reads script r cursor.position)
    (spent : cursor.spent ≤ 2 * cursor.position + 1) (enough : 2 * (firstEnd script - cursor.position) < allowance) :
    Meets script (readDeclaration allowance) cursor fun s next =>
      Ended script r cursor s next ∧ Part cursor.package (slice script cursor.position next.position) s := by
  obtain ⟨noBrace, plain⟩ : token.isPunctuation "\x7d" = false ∧ token.kind ≠ .endOfFile := by
    simpa [stops] using goesOn
  unfold readDeclaration
  refine .branch (run_isKeyword sound.tokens faces _)
    (fun keyword => readFunction_meets sound outside faces keyword reads spent enough) fun noFunction => ?_
  have undue := due_goesOn faces goesOn
  have begins := step_begins outside.mode noBrace noPackage noFunction
  have begun := reads.alike faces (fun _ => begins) fun ends => absurd ends plain
  refine ((statement_block_meet script allowance).1 sound rfl begun (by omega) enough).mono ?_
  rintro s next ⟨ended, free⟩
  refine ⟨⟨ended.reads, ended.spent, ended.kept, ended.advanced, ended.package⟩, ?_⟩
  rw [slice_cons faces plain (ended.advanced undue)]
  exact .statement noFunction free

end

end Descent

end DebugBridge.Script
