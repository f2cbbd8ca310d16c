import DebugBridge.Proofs.Script.Cursors
import DebugBridge.Proofs.Script.Visits

/-! Statements and blocks, which the descent reads by two procedures that call each other. Each comes to what the reader
makes of the same tokens, and neither reads a declaration. -/

set_option autoImplicit false

namespace DebugBridge.Script

inductive Statement.Free : Statement → Prop where
  | expression (mentions : List Variable) : Free (.expression mentions)
  | block {body : List Statement} (each : ∀ s ∈ body, Free s) : Free (.block body)

theorem Statement.Free.unvisited {s : Statement} (free : s.Free) (head : FunctionHead) :
    Visit.function head ∉ s.visits := by
  induction free with
  | expression mentions => simp [visits]
  | @block body each ih =>
    show _ ∉ visitsOfAll body
    clear each
    induction body with
    | nil => exact List.not_mem_nil
    | cons first rest behind =>
      obtain ⟨here, there⟩ := List.forall_mem_cons.mp ih
      rw [visitsOfAll, List.mem_append, not_or]
      exact ⟨here, behind there⟩

mutual

theorem Statement.free_of_unvisited : (s : Statement) → (∀ head, Visit.function head ∉ s.visits) → s.Free
  | .function head _, unvisited => absurd List.mem_cons_self (unvisited head)
  | .expression mentions, _ => .expression mentions
  | .block body, unvisited => .block (Statement.all_free_of_unvisited body unvisited)

theorem Statement.all_free_of_unvisited : (body : List Statement) →
    (∀ head, Visit.function head ∉ Statement.visitsOfAll body) → ∀ s ∈ body, s.Free
  | [], _ => List.forall_mem_nil _
  | first :: rest, unvisited => by
    have apart head : Visit.function head ∉ first.visits ∧ Visit.function head ∉ Statement.visitsOfAll rest := by
      simpa [Statement.visitsOfAll] using unvisited head
    exact List.forall_mem_cons.mpr ⟨Statement.free_of_unvisited first fun head => (apart head).1,
      Statement.all_free_of_unvisited rest fun head => (apart head).2⟩

end

/-- A statement is free of declarations if a walk over it comes upon none. -/
theorem Statement.free_iff {s : Statement} : s.Free ↔ ∀ head, Visit.function head ∉ s.visits :=
  ⟨Statement.Free.unvisited, Statement.free_of_unvisited s⟩

namespace Descent

open Reader (Reads)

/-! ## One token of a statement -/

section

variable {r : Reader} {token : Token} {mentions : List Variable} {depth : Nat}

def stops (token : Token) : Bool := token.isPunctuation "\x7d" || token.kind == .endOfFile

theorem stops_end (ends : token.kind = .endOfFile) : stops token = true := by simp [stops, ends]

theorem stops_plain (plain : token.kind ≠ .endOfFile) : stops token = token.isPunctuation "\x7d" := by
  simp [stops, plain]

theorem step_added (r : Reader) (s : Statement) {brace : Token} (closing : brace.isPunctuation "\x7d" = true) :
    (r.add s).step brace = (r.add s).close brace := by
  unfold Reader.step
  rw [(Reader.add_settled r s).2]
  exact if_pos closing

def Move.Reads (mentions : List Variable) (token : Token) (r : Reader) : Move → Prop
  | .stop => stops token = true ∧ r.step token = (r.add (.expression mentions.reverse)).step token
  | .finish => r.step token = .ok (r.add (.expression mentions.reverse))
  | .nest => r.step token =
    .ok { r with mode := .boundary, enclosing := .block mentions.reverse [] :: r.enclosing }
  | .onward mentions depth => r.step token = .ok { r with mode := .statement mentions depth }
  | .refuse expected => r.step token = .error (Reader.unexpected token expected)

theorem move_reads (mode : r.mode = .statement mentions depth) (plain : token.kind ≠ .endOfFile) :
    (move mentions depth token).Reads mentions token r := by
  have read : r.step token = r.inStatement mentions depth token := by
    unfold Reader.step
    rw [mode]
  unfold move
  cases kind : token.kind with
  | endOfFile => exact absurd kind plain
  | localVariable | globalVariable | identifier | number | string =>
    refine read.trans ?_
    unfold Reader.inStatement
    rw [kind]
  | punctuation =>
    -- the tests come in the same order on both sides, so that they are taken one by one
    rw [Reader.inStatement, kind] at read
    dsimp only at read ⊢
    split
    · next semicolon => exact read.trans (if_pos semicolon)
    next noSemicolon =>
    rw [if_neg noSemicolon] at read
    split
    · next opening => exact read.trans (if_pos opening)
    next noOpening =>
    rw [if_neg noOpening] at read
    split
    · next closing =>
      have brace : token.isPunctuation "\x7d" = true := by simp [Token.isPunctuation, kind, closing.1]
      refine ⟨(stops_plain plain).trans brace, ?_⟩
      rw [read, if_pos closing, step_added r _ brace]
    next noClosing =>
    rw [if_neg noClosing] at read
    split
    · next left => exact read.trans (if_pos left)
    next noLeft =>
    rw [if_neg noLeft] at read
    split
    · next right =>
      rw [if_pos right] at read
      split
      · next level => exact read.trans (if_pos level)
      · next deep => exact read.trans (if_neg deep)
    · next noRight => exact read.trans (if_neg noRight)

/-- At the end of file a statement stops, or it is not whole. -/
theorem move_finishes (mode : r.mode = .statement mentions depth) (ends : token.kind = .endOfFile) :
    move mentions depth token = .stop ∧ r.finish token = (r.add (.expression mentions.reverse)).finish token ∨
      move mentions depth token = .refuse .closeParen ∧ r.finish token = .error (.unexpectedEnd .closeParen) := by
  unfold move Reader.finish
  rw [ends, mode, (Reader.add_settled r _).2]
  dsimp only
  by_cases level : depth = 0
  · exact .inl ⟨if_pos level, if_pos level⟩
  · exact .inr ⟨if_neg level, if_neg level⟩

end

/-! ## Constructs in braces -/

inductive Opened where
  | function (head : FunctionHead)
  | block (leading : List Variable)

namespace Opened

def enclosing : Opened → List Statement → Enclosing
  | function head, done => .function head done
  | block leading, done => .block leading done

def statement : Opened → List Statement → Statement
  | function head, body => .function head body
  | block leading, body => if leading.isEmpty then .block body else .block [.expression leading, .block body]

variable {opened : Opened} {done : List Statement} {outer : List Enclosing} {program : List Statement} {token : Token}

theorem add_within (mode : Mode) (s : Statement) : (⟨mode, opened.enclosing done :: outer, program⟩ : Reader).add s =
    ⟨.boundary, opened.enclosing (s :: done) :: outer, program⟩ := by
  cases opened <;> rfl

theorem step_brace (closing : token.isPunctuation "\x7d" = true) :
    (⟨.boundary, opened.enclosing done :: outer, program⟩ : Reader).step token =
      .ok ((⟨.boundary, outer, program⟩ : Reader).add (opened.statement done.reverse)) := by
  unfold Reader.step Reader.atBoundary
  dsimp only
  rw [if_pos closing]
  cases opened <;> rfl

theorem step_keyword (keyword : token.isKeyword "function" = true ∨ token.isKeyword "package" = true) :
    (⟨.boundary, opened.enclosing done :: outer, program⟩ : Reader).step token =
      .error (Reader.unexpected token .statement) := by
  have word : token.kind = .identifier := keyword.elim keyword_word keyword_word
  unfold Reader.step Reader.atBoundary
  dsimp only
  rw [if_neg (by simp [word_unmarked word])]
  split
  · cases opened <;> rfl
  · next noPackage =>
    rw [if_pos (keyword.resolve_right noPackage)]
    cases opened <;> rfl

theorem block_free {leading : List Variable} {body : List Statement} (free : ∀ s ∈ body, s.Free) :
    ((Opened.block leading).statement body).Free := by
  show (if leading.isEmpty then Statement.block body else .block [.expression leading, .block body]).Free
  split
  · exact .block free
  · exact .block (by simp [Statement.Free.expression, Statement.Free.block free])

theorem finish_within : (⟨.boundary, opened.enclosing done :: outer, program⟩ : Reader).finish token =
    .error (.unexpectedEnd .closeBrace) := rfl

end Opened

/-- Where no declaration and no brace is due, a statement begins. -/
theorem step_begins {r : Reader} {token : Token} (mode : r.mode = .boundary)
    (noBrace : token.isPunctuation "\x7d" = false) (noPackage : token.isKeyword "package" = false)
    (noFunction : token.isKeyword "function" = false) :
    ({ r with mode := .statement [] 0 } : Reader).step token = r.step token := by
  unfold Reader.step
  rw [mode]
  dsimp only
  unfold Reader.atBoundary
  rw [noBrace, noPackage, noFunction]
  rfl

/-! ## Statements and blocks -/

def due (script : List Token) (position : Nat) : Nat := if ((closed script)[position]?).any stops then 1 else 0

section

variable {script : List Token} {position : Nat} {token : Token} (faces : Faces script position token)

include faces

theorem due_eq : due script position = if stops token then 1 else 0 := by
  rw [due, faces.seen, Option.any_some]

theorem due_stops (ends : stops token = true) : due script position = 1 := (due_eq faces).trans (if_pos ends)

theorem due_goesOn (goesOn : stops token = false) : due script position = 0 :=
  (due_eq faces).trans (if_neg (by simp [goesOn]))

end

theorem due_le (script : List Token) (position : Nat) : due script position ≤ 1 := by
  unfold due
  split <;> decide

/-- What a statement comes to. It takes at least one token unless there is none for it. -/
structure Ended (script : List Token) (r : Reader) (cursor : Cursor) (s : Statement) (next : Cursor) : Prop where
  reads : Reads script (r.add s) next.position
  spent : next.spent ≤ 2 * next.position + due script next.position
  kept : cursor.position ≤ next.position
  advanced : due script cursor.position = 0 → cursor.position < next.position
  package : next.package = cursor.package

theorem Ended.here {script : List Token} {r : Reader} {cursor : Cursor} {s : Statement}
    (reads : Reads script (r.add s) cursor.position) (stopped : due script cursor.position = 1)
    (spent : cursor.spent ≤ 2 * cursor.position) : Ended script r cursor s (cursor.enter .statement) where
  reads := reads
  spent := by
    show cursor.spent + 1 ≤ 2 * cursor.position + due script cursor.position
    omega
  kept := Nat.le_refl _
  advanced undue := by omega
  package := rfl

/-- A statement may leave its very first token to what is around it, which pays for that turn. -/
def StatementMeets (script : List Token) (allowance : Nat) : Prop :=
  ∀ {cursor : Cursor} {r : Reader} {mentions : List Variable} {depth : Nat}, Sound script cursor →
    r.mode = .statement mentions depth → Reads script r cursor.position →
    cursor.spent + due script cursor.position ≤ 2 * cursor.position + 1 →
    2 * (firstEnd script - cursor.position) < allowance →
    Meets script (readStatement allowance mentions depth) cursor fun s next => Ended script r cursor s next ∧ s.Free

structure Closed (script : List Token) (outer : Reader) (opened : Opened) (cursor : Cursor) (body : List Statement)
    (next : Cursor) : Prop where
  reads : Reads script (outer.add (opened.statement body)) next.position
  spent : next.spent ≤ 2 * next.position
  advanced : cursor.position < next.position
  package : next.package = cursor.package

/-- A block begins a turn at the position of each statement in it, so that it is allowed one more. -/
def BlockMeets (script : List Token) (allowance : Nat) : Prop :=
  ∀ {cursor : Cursor} {done : List Statement} {outer : List Enclosing} {program : List Statement} (opened : Opened),
    Sound script cursor → Reads script ⟨.boundary, opened.enclosing done :: outer, program⟩ cursor.position →
    (∀ s ∈ done, s.Free) → cursor.spent ≤ 2 * cursor.position + due script cursor.position →
    2 * (firstEnd script - cursor.position) + 1 < allowance →
    Meets script (readBlock allowance done) cursor fun body next =>
      Closed script ⟨.boundary, outer, program⟩ opened cursor body next ∧ ∀ s ∈ body, s.Free

section

variable {script : List Token} {allowance : Nat}

theorem statementMeets_zero : StatementMeets script 0 := fun _ _ _ _ enough => absurd enough (Nat.not_lt_zero _)

theorem blockMeets_zero : BlockMeets script 0 := fun _ _ _ _ _ enough => absurd enough (Nat.not_lt_zero _)

theorem statementMeets_succ (statement : StatementMeets script allowance) (block : BlockMeets script allowance) :
    StatementMeets script (allowance + 1) := by
  intro cursor r mentions depth sound mode reads spent enough
  obtain ⟨token, faces⟩ := exists_faces sound.position
  have bound := due_le script cursor.position
  have entered := sound.enter .statement (by omega)
  rw [readStatement]
  refine .after (run_enter .statement cursor) (.after (run_look entered.tokens faces) ?_)
  by_cases ends : token.kind = .endOfFile
  -- the end is left to what is around, unless a parenthesis is open
  · have stopped := due_stops faces (stops_end ends)
    rcases move_finishes mode ends with ⟨moved, finished⟩ | ⟨moved, finished⟩
    · rw [moved]
      have left := reads.alike faces (fun plain => absurd ends plain) fun _ => finished.symm
      exact .pure entered ⟨.here left stopped (by omega), .expression _⟩
    · rw [moved]
      refine .unexpected entered faces ?_
      rw [reads.finish faces ends, finished, if_pos ends]
  · have moved := move_reads mode ends
    have advanced := entered.next faces ends
    have before := (faces.within ends).1
    have after := due_le script (cursor.position + 1)
    have took := run_skip entered.tokens faces ends
    generalize move mentions depth token = m at moved
    cases m with
    | stop =>
      have stopped := due_stops faces moved.1
      have left := reads.alike faces (fun _ => moved.2.symm) fun finished => absurd finished ends
      exact .pure entered ⟨.here left stopped (by omega), .expression _⟩
    | finish =>
      refine .after took (.pure advanced
        ⟨⟨reads.next faces ends moved, ?_, Nat.le_succ _, fun _ => Nat.lt_succ_self _, rfl⟩, .expression _⟩)
      show cursor.spent + 1 ≤ 2 * (cursor.position + 1) + due script (cursor.position + 1)
      omega
    | nest =>
      refine .after took (.bind
        (block (.block mentions.reverse) advanced (reads.next faces ends moved) (by simp) ?_ ?_) ?_)
      · show cursor.spent + 1 ≤ 2 * (cursor.position + 1) + due script (cursor.position + 1)
        omega
      · show 2 * (firstEnd script - (cursor.position + 1)) + 1 < allowance
        omega
      · rintro body next sound ⟨closed, free⟩
        have beyond : cursor.position + 1 < next.position := closed.advanced
        have spent := closed.spent
        have nested : (Opened.block mentions.reverse).statement body =
            if mentions.isEmpty then .block body else .block [.expression mentions.reverse, .block body] := by
          rw [Opened.statement, List.isEmpty_reverse]
        rw [← nested]
        exact .pure sound
          ⟨⟨closed.reads, by omega, by omega, fun _ => by omega, closed.package⟩, Opened.block_free free⟩
    | onward mentions depth =>
      refine .after took (.after (run_again ..) ?_)
      have again := advanced.again .statement (Nat.lt_succ_self cursor.position)
      refine (statement again rfl (reads.next faces ends moved) ?_ ?_).mono fun s next ⟨ended, free⟩ => ?_
      · show cursor.spent + 1 + due script (cursor.position + 1) ≤ 2 * (cursor.position + 1) + 1
        omega
      · show 2 * (firstEnd script - (cursor.position + 1)) < allowance
        omega
      · have kept : cursor.position + 1 ≤ next.position := ended.kept
        exact ⟨⟨ended.reads, ended.spent, by omega, fun _ => by omega, ended.package⟩, free⟩
    | refuse expected =>
      refine .unexpected entered faces ?_
      rw [reads.fault faces ends moved, if_neg ends]

theorem blockMeets_succ (statement : StatementMeets script allowance) (block : BlockMeets script allowance) :
    BlockMeets script (allowance + 1) := by
  intro cursor done outer program opened sound reads free spent enough
  obtain ⟨token, faces⟩ := exists_faces sound.position
  have bound := due_le script cursor.position
  have entered := sound.enter .block (by omega)
  rw [readBlock]
  refine .after (run_enter .block cursor)
    (.branch (run_isPunctuation entered.tokens faces _) (fun closing => ?_) fun noBrace => ?_)
  · have plain := plain_mark closing
    have stopped := due_stops faces ((stops_plain plain).trans closing)
    refine .after (run_skip entered.tokens faces plain)
      (.pure (entered.next faces plain) ⟨⟨?_, ?_, ?_, rfl⟩, by simpa using free⟩)
    · exact reads.next faces plain (Opened.step_brace closing)
    · show cursor.spent + 1 ≤ 2 * (cursor.position + 1)
      omega
    · exact Nat.lt_succ_self cursor.position
  refine .ending entered faces (fun ends => .unexpected entered faces ?_) fun plain => ?_
  · rw [reads.finish faces ends, if_pos ends]
    exact Opened.finish_within
  have turnedDown (keyword : token.isKeyword "function" = true ∨ token.isKeyword "package" = true) :
      parse script = .error
        (if token.kind = .endOfFile then .unexpectedEnd .statement else Reader.unexpected token .statement) := by
    rw [reads.fault faces plain (Opened.step_keyword keyword), if_neg plain]
  refine .branch (run_isKeyword entered.tokens faces _)
    (fun keyword => .unexpected entered faces (turnedDown (.inl keyword))) fun noFunction => ?_
  refine .branch (run_isKeyword entered.tokens faces _)
    (fun keyword => .unexpected entered faces (turnedDown (.inr keyword))) fun noPackage => ?_
  -- neither a brace nor the end: the statement takes at least this token, which pays for the turn around it
  have undue := due_goesOn faces ((stops_plain plain).trans noBrace)
  have begins := step_begins (r := ⟨.boundary, opened.enclosing done :: outer, program⟩) rfl noBrace noPackage
    noFunction
  have begun := reads.alike faces (fun _ => begins) fun ends => absurd ends plain
  refine .bind (statement entered rfl begun ?_ ?_) fun s next sound ⟨ended, freed⟩ => ?_
  · show cursor.spent + 1 + due script cursor.position ≤ 2 * cursor.position + 1
    omega
  · show 2 * (firstEnd script - cursor.position) < allowance
    omega
  have advanced : cursor.position < next.position := ended.advanced undue
  have inside := sound.position
  have within := ended.reads
  rw [Opened.add_within] at within
  refine .after (run_again ..) ((block opened (sound.again .block advanced) within
    (List.forall_mem_cons.mpr ⟨freed, free⟩) ended.spent ?_).mono fun body last ⟨closed, free⟩ => ?_)
  · show 2 * (firstEnd script - next.position) + 1 < allowance
    omega
  · have onward : next.position < last.position := closed.advanced
    exact ⟨⟨closed.reads, closed.spent, by omega, closed.package.trans ended.package⟩, free⟩

/-- Statements and blocks, one in another, with as many turns as there are tokens twice over. -/
theorem statement_block_meet (script : List Token) (allowance : Nat) :
    StatementMeets script allowance ∧ BlockMeets script allowance := by
  induction allowance with
  | zero => exact ⟨statementMeets_zero, blockMeets_zero⟩
  | succ allowance ih => exact ⟨statementMeets_succ ih.1 ih.2, blockMeets_succ ih.1 ih.2⟩

end

end Descent

end DebugBridge.Script
