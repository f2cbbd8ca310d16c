import DebugBridge.Proofs.Script.Declarations

/-! Packages and whole programs. A descent comes to what the reader makes of the script, with an allowance of twice as
many turns as there are tokens, and what it read the parts of a program from are the parts of the script. -/

set_option autoImplicit false

namespace DebugBridge.Script

/-- What stands at the top of a program and the tokens it was read from: a package with its braces, and a semicolon
behind them if there is one, or else what may stand in a package too. -/
inductive Item : List Token → Statement → Prop where
  | package {keyword name opening closing : Token} {trailing : List Token} {parts : List (List Token × Statement)}
      (declares : keyword.isKeyword "package" = true) (named : name.kind = .identifier)
      (opens : opening.isPunctuation "\x7b" = true) (closes : closing.isPunctuation "\x7d" = true)
      (ends : ∀ token ∈ trailing, token.isPunctuation ";" = true) (once : trailing.length ≤ 1)
      (each : ∀ part ∈ parts, Part (some name) part.1 part.2) :
      Item (keyword :: name :: opening :: (parts.flatMap Prod.fst ++ closing :: trailing)) (.block (parts.map Prod.snd))
  | part {first : Token} {rest : List Token} {s : Statement} (declaresNot : first.isKeyword "package" = false)
      (part : Part none (first :: rest) s) : Item (first :: rest) s

namespace Descent

open Reader (Reads)

section

variable {script : List Token} {allowance : Nat} {cursor : Cursor} {token name : Token} {program : List Statement}

/-! ## Packages -/

theorem step_package {done : List Statement} (keyword : token.isKeyword "package" = true) :
    (⟨.boundary, [.package name done], program⟩ : Reader).step token =
      .error (Reader.unexpected token .functionDeclaration) := by
  unfold Reader.step Reader.atBoundary
  dsimp only
  rw [word_unmarked (keyword_word keyword), keyword]
  rfl

theorem step_package_outside (keyword : token.isKeyword "package" = true) :
    (⟨.boundary, [], program⟩ : Reader).step token = .ok ⟨.packageName, [], program⟩ := by
  unfold Reader.step Reader.atBoundary
  dsimp only
  rw [word_unmarked (keyword_word keyword), keyword]
  rfl

theorem step_package_brace {done : List Statement} (closing : token.isPunctuation "\x7d" = true) :
    (⟨.boundary, [.package name done], program⟩ : Reader).step token =
      .ok ⟨.packageEnd, [], .block done.reverse :: program⟩ := if_pos closing

theorem step_packageEnd (unmarked : token.isPunctuation ";" = false) :
    (⟨.boundary, [], program⟩ : Reader).step token = (⟨.packageEnd, [], program⟩ : Reader).step token :=
  (if_neg (by simp [unmarked])).symm

/-- What the inside of a package comes to, `done` having been read of it before: the descent is at the brace that closes
it. -/
structure Filled (script : List Token) (name : Token) (program done : List Statement) (cursor : Cursor)
    (body : List Statement) (next : Cursor) : Prop where
  reads : Reads script ⟨.boundary, [.package name body.reverse], program⟩ next.position
  closes : ∃ token, Faces script next.position token ∧ token.isPunctuation "\x7d" = true
  spent : next.spent ≤ 2 * next.position + 1
  kept : cursor.position ≤ next.position
  parts : ∃ parts : List (List Token × Statement), body = done.reverse ++ parts.map Prod.snd ∧
    slice script cursor.position next.position = parts.flatMap Prod.fst ∧
    ∀ part ∈ parts, Part (some name) part.1 part.2

theorem readPackageBody_meets {done : List Statement} (sound : Sound script cursor)
    (reads : Reads script ⟨.boundary, [.package name done], program⟩ cursor.position)
    (package : cursor.package = some name) (spent : cursor.spent ≤ 2 * cursor.position + due script cursor.position)
    (enough : 2 * (firstEnd script - cursor.position) + 1 < allowance) :
    Meets script (readPackageBody allowance done) cursor (Filled script name program done cursor) := by
  induction allowance generalizing cursor done with
  | zero => exact absurd enough (Nat.not_lt_zero _)
  | succ allowance ih =>
    obtain ⟨token, faces⟩ := exists_faces sound.position
    have bound := due_le script cursor.position
    rw [readPackageBody]
    refine .branch (run_isPunctuation sound.tokens faces _) (fun closing => ?_) fun noBrace => ?_
    · refine .pure sound
        ⟨?_, ⟨token, faces, closing⟩, by omega, Nat.le_refl _, [], by simp, slice_self .., List.forall_mem_nil _⟩
      rw [List.reverse_reverse]
      exact reads
    -- the turn is paid for by the token that it takes: the declaration ends behind where it began
    have entered := sound.enter .package (by omega)
    refine .after (run_enter ..)
      (.ending entered faces (fun ends => .unexpected entered faces ?_) fun plain => ?_)
    · rw [reads.finish faces ends, if_pos ends]
      rfl
    refine .branch (run_isKeyword entered.tokens faces _)
      (fun keyword => .unexpected entered faces ?_) fun noPackage => ?_
    · rw [reads.fault faces plain (step_package keyword), if_neg plain]
    have goesOn := (stops_plain plain).trans noBrace
    have undue := due_goesOn faces goesOn
    have outside : Outside ⟨.boundary, [.package name done], program⟩ (cursor.enter .package) :=
      ⟨rfl, .inr ⟨name, done, rfl⟩, package⟩
    refine .bind (readDeclaration_meets entered outside faces goesOn noPackage reads ?_ ?_)
      fun s next sound ⟨ended, part⟩ => ?_
    · show cursor.spent + 1 ≤ 2 * cursor.position + 1
      omega
    · show 2 * (firstEnd script - cursor.position) < allowance
      omega
    have advanced : cursor.position < next.position := ended.advanced undue
    have inside := sound.position
    have placed : Part (some name) (slice script cursor.position next.position) s := package ▸ part
    -- what the rest of the package comes to, with this part put in front
    refine .after (run_again ..)
      ((ih (sound.again .package advanced) ended.reads (ended.package.trans package) ended.spent ?_).mono ?_)
    · show 2 * (firstEnd script - next.position) + 1 < allowance
      omega
    · intro body last filled
      have kept : next.position ≤ last.position := filled.kept
      obtain ⟨parts, split, read, each⟩ := filled.parts
      refine ⟨filled.reads, filled.closes, filled.spent, by omega, (_, s) :: parts, ?_, ?_,
        List.forall_mem_cons.mpr ⟨placed, each⟩⟩
      · rw [split, List.reverse_cons, List.append_assoc]
        rfl
      · rw [← slice_append (Nat.le_of_lt advanced) kept, List.flatMap_cons]
        exact congrArg _ read

structure Shut (script : List Token) (program body : List Statement) (cursor : Cursor) (s : Statement)
    (next : Cursor) : Prop where
  block : s = .block body
  reads : Reads script ⟨.boundary, [], .block body :: program⟩ next.position
  spent : next.spent ≤ 2 * next.position + due script next.position
  advanced : cursor.position < next.position
  package : next.package = none
  marks : ∃ closing trailing, slice script cursor.position next.position = closing :: trailing ∧
    closing.isPunctuation "\x7d" = true ∧ (∀ token ∈ trailing, token.isPunctuation ";" = true) ∧ trailing.length ≤ 1

theorem closing_meets {body : List Statement} (sound : Sound script cursor) (faces : Faces script cursor.position token)
    (closes : token.isPunctuation "\x7d" = true)
    (reads : Reads script ⟨.boundary, [.package name body.reverse], program⟩ cursor.position)
    (spent : cursor.spent ≤ 2 * cursor.position + 1) :
    Meets script (do
      modify fun cursor => cursor.inPackage none
      skip
      allow ";"
      pure (Statement.block body)) cursor (Shut script program body cursor) := by
  have forgotten := sound.inPackage none
  have closed := forgotten.next faces (plain_mark closes)
  have done := reads.next faces (plain_mark closes) (step_package_brace closes)
  rw [List.reverse_reverse] at done
  have bound := due_le script (cursor.position + 1)
  refine .after rfl (.after (run_skip forgotten.tokens faces (plain_mark closes)) ?_)
  -- without a semicolon, the next token finds the reader as if it were at a boundary
  obtain ⟨behind, facing⟩ := exists_faces closed.position
  refine .allow closed facing (fun semicolon => ?_) (fun unmarked => ?_)
  · refine .pure (closed.next facing (plain_mark semicolon)) ⟨rfl, ?_, ?_, ?_, rfl, token, [behind], ?_, closes, ?_, ?_⟩
    · exact done.next facing (plain_mark semicolon) (if_pos semicolon)
    · show cursor.spent ≤ 2 * (cursor.position + 2) + due script (cursor.position + 2)
      omega
    · show cursor.position < cursor.position + 2
      omega
    · show slice script cursor.position (cursor.position + 2) = [token, behind]
      have whole := slice_cons facing (plain_mark semicolon) (Nat.lt_succ_self (cursor.position + 1))
      rw [slice_cons faces (plain_mark closes) (by omega)]
      exact congrArg (token :: ·) (whole.trans (congrArg (behind :: ·) (slice_self ..)))
    · exact List.forall_mem_singleton.mpr semicolon
    · exact Nat.le_refl 1
  · refine .pure closed ⟨rfl, ?_, ?_, Nat.lt_succ_self cursor.position, rfl, token, [], ?_, closes, ?_, Nat.zero_le 1⟩
    · exact done.alike facing (fun _ => step_packageEnd unmarked) fun _ => rfl
    · show cursor.spent ≤ 2 * (cursor.position + 1) + due script (cursor.position + 1)
      omega
    · exact (slice_cons faces (plain_mark closes) (Nat.lt_succ_self _)).trans (congrArg (token :: ·) (slice_self ..))
    · exact List.forall_mem_nil _

theorem readPackage_meets (sound : Sound script cursor) (faces : Faces script cursor.position token)
    (keyword : token.isKeyword "package" = true) (reads : Reads script ⟨.boundary, [], program⟩ cursor.position)
    (package : cursor.package = none) (spent : cursor.spent ≤ 2 * cursor.position + 1)
    (enough : 2 * (firstEnd script - cursor.position) < allowance) :
    Meets script (readPackage allowance) cursor fun s next =>
      Ended script ⟨.boundary, [], program⟩ cursor s next ∧ Item (slice script cursor.position next.position) s := by
  have plain := plain_word (keyword_word keyword)
  have begun := reads.next faces plain (step_package_outside keyword)
  refine .named sound faces plain begun (fun _ noWord => if_neg noWord) (fun _ => rfl) fun name word behind sound => ?_
  obtain ⟨brace, facing⟩ := exists_faces sound.position
  have headed := begun.next behind (plain_word word) (if_pos word)
  refine .expect sound facing (fun opens => ?_) (wants_mark facing headed rfl rfl)
  have opened := (sound.next facing (plain_mark opens)).inPackage (some name)
  have within : cursor.position + 3 ≤ firstEnd script := opened.position
  have inside := headed.next facing (plain_mark opens) (if_pos opens)
  refine .after rfl (.bind (readPackageBody_meets opened inside rfl ?_ ?_) fun body next sound filled => ?_)
  · show cursor.spent ≤ 2 * (cursor.position + 3) + due script (cursor.position + 3)
    omega
  · show 2 * (firstEnd script - (cursor.position + 3)) + 1 < allowance
    omega
  have kept : cursor.position + 3 ≤ next.position := filled.kept
  obtain ⟨parts, rfl, read, each⟩ := filled.parts
  obtain ⟨closing, last, closes⟩ := filled.closes
  refine (closing_meets sound last closes filled.reads filled.spent).mono fun s stop shut => ?_
  have beyond := shut.advanced
  obtain ⟨closing, trailing, tail, closes, ends, once⟩ := shut.marks
  have opening : slice script (cursor.position + 2) next.position = brace :: parts.flatMap Prod.fst :=
    (slice_cons facing (plain_mark opens) kept).trans (congrArg (brace :: ·) read)
  have front : slice script cursor.position next.position = token :: name :: brace :: parts.flatMap Prod.fst := by
    rw [slice_cons faces plain (by omega), slice_cons behind (plain_word word) (by omega), opening]
  rw [shut.block, ← slice_append (by omega) (Nat.le_of_lt beyond), front, tail]
  exact ⟨⟨shut.reads, shut.spent, by omega, fun _ => by omega, shut.package.trans package.symm⟩,
    .package keyword word opens closes ends once each⟩

/-! ## Programs -/

structure Complete (script : List Token) (done : List Statement) (cursor : Cursor) (whole : List Statement) : Prop where
  parses : parse script = .ok whole
  items : ∃ items : List (List Token × Statement), whole = done.reverse ++ items.map Prod.snd ∧
    (code script).drop cursor.position = items.flatMap Prod.fst ∧ ∀ item ∈ items, Item item.1 item.2

theorem readProgram_meets (sound : Sound script cursor) (reads : Reads script ⟨.boundary, [], program⟩ cursor.position)
    (package : cursor.package = none) (spent : cursor.spent ≤ 2 * cursor.position + due script cursor.position)
    (enough : 2 * (firstEnd script - cursor.position) + 1 < allowance) :
    Meets script (readProgram allowance program) cursor fun whole _ => Complete script program cursor whole := by
  induction allowance generalizing cursor program with
  | zero => exact absurd enough (Nat.not_lt_zero _)
  | succ allowance ih =>
    obtain ⟨token, faces⟩ := exists_faces sound.position
    have bound := due_le script cursor.position
    rw [readProgram]
    refine .ending sound faces (fun ends => ?_) fun plain => ?_
    · exact .pure sound
        ⟨reads.finish faces ends, [], (List.append_nil _).symm, (faces.ends ends).2.2, List.forall_mem_nil _⟩
    have entered := sound.enter .program (by omega)
    -- what was read of the program is read on behind the next part of it
    have onward {s : Statement} {next : Cursor} (sound : Sound script next) (advanced : cursor.position < next.position)
        (ended : Ended script ⟨.boundary, [], program⟩ (cursor.enter .program) s next)
        (item : Item (slice script cursor.position next.position) s) :
        Meets script (again .program cursor.position >>= fun _ => readProgram allowance (s :: program)) next
          fun whole _ => Complete script program cursor whole := by
      have inside := sound.position
      refine .after (run_again ..)
        ((ih (sound.again .program advanced) ended.reads (ended.package.trans package) ended.spent ?_).mono ?_)
      · show 2 * (firstEnd script - next.position) + 1 < allowance
        omega
      · rintro whole - ⟨parses, items, split, read, each⟩
        refine ⟨parses, (_, s) :: items, ?_, ?_, List.forall_mem_cons.mpr ⟨item, each⟩⟩
        · rw [split, List.reverse_cons, List.append_assoc]
          rfl
        · rw [List.flatMap_cons]
          exact (slice_drop (Nat.le_of_lt advanced)).symm.trans (congrArg (_ ++ ·) read)
    refine .after (run_enter ..)
      (.branch (run_isKeyword entered.tokens faces _) (fun keyword => ?_) fun noPackage => ?_)
    · have undue := due_goesOn faces ((stops_plain plain).trans (word_unmarked (keyword_word keyword) _))
      refine .bind (readPackage_meets entered faces keyword reads package ?_ ?_) fun s next sound ⟨ended, item⟩ =>
        onward sound (ended.advanced undue) ended item
      · show cursor.spent + 1 ≤ 2 * cursor.position + 1
        omega
      · show 2 * (firstEnd script - cursor.position) < allowance
        omega
    refine .branch (run_isPunctuation entered.tokens faces _)
      (fun closing => .unexpected entered faces ?_) fun noBrace => ?_
    · rw [reads.fault faces plain (if_pos closing), if_neg plain]
    have goesOn := (stops_plain plain).trans noBrace
    have undue := due_goesOn faces goesOn
    have outside : Outside ⟨.boundary, [], program⟩ (cursor.enter .program) := ⟨rfl, .inl rfl, package⟩
    refine .bind (readDeclaration_meets entered outside faces goesOn noPackage reads ?_ ?_)
      fun s next sound ⟨ended, part⟩ => ?_
    · show cursor.spent + 1 ≤ 2 * cursor.position + 1
      omega
    · show 2 * (firstEnd script - cursor.position) < allowance
      omega
    have advanced : cursor.position < next.position := ended.advanced undue
    refine onward sound advanced ended ?_
    have placed : Part none (slice script cursor.position next.position) s := package ▸ part
    rw [slice_cons faces plain advanced] at placed ⊢
    exact .part noPackage placed

end

end Descent

/-! ## Whole scripts -/

theorem descend_sound (tokens : List Token) {allowance : Nat} (enough : 2 * firstEnd tokens + 1 < allowance) :
    (descend allowance tokens).1 = (parse tokens).mapError .fault ∧ Descent.Sound tokens (descend allowance tokens).2 ∧
      ∀ program, parse tokens = .ok program → ∃ items : List (List Token × Statement),
        code tokens = items.flatMap Prod.fst ∧ program = items.map Prod.snd ∧ ∀ item ∈ items, Item item.1 item.2 := by
  have initial : Descent.Sound tokens ⟨closed tokens, 0, none, [0], [], []⟩ :=
    ⟨rfl, Nat.zero_le _, by simp, by simp, Nat.zero_le _⟩
  have meets := Descent.readProgram_meets initial (Reader.reads_initial tokens) rfl (Nat.zero_le _) enough
  unfold Descent.Meets at meets
  unfold descend
  generalize (Descent.readProgram allowance []).run.run ⟨closed tokens, 0, none, [0], [], []⟩ = ran at meets
  obtain ⟨halt | whole, next⟩ := ran
  · cases halt with
    | fault fault => exact ⟨by rw [meets.2]; rfl, meets.1, fun program accepted => by cases meets.2.symm.trans accepted⟩
    | outOfRange | exhausted => exact meets.elim
  · obtain ⟨sound, parses, items, split, read, each⟩ := meets
    refine ⟨by rw [parses]; rfl, sound, fun program accepted => ?_⟩
    cases parses.symm.trans accepted
    exact ⟨items, read, split, each⟩

/-- Nothing is declared but at the top and directly in a package: what a script is read into falls into the items that
its tokens fall into. -/
theorem declarations_placed {tokens : List Token} {program : List Statement} (accepted : parse tokens = .ok program) :
    ∃ items : List (List Token × Statement), code tokens = items.flatMap Prod.fst ∧ program = items.map Prod.snd ∧
      ∀ item ∈ items, Item item.1 item.2 :=
  (descend_sound tokens (Nat.lt_succ_self _)).2.2 program accepted

theorem declarations_placed_nested : ∃ head body mentions,
    parse nested = .ok [.block [.function head body], .expression mentions] ∧
      head.package = some ⟨.identifier, "P", 1⟩ ∧
      ∃ items : List (List Token × Statement), code nested = items.flatMap Prod.fst ∧
        [.block [.function head body], .expression mentions] = items.map Prod.snd ∧
        ∀ item ∈ items, Item item.1 item.2 :=
  ⟨_, _, _, rfl, rfl, declarations_placed rfl⟩

/-- A descent comes to what the reader does, without a look at a token that is not there. A loop that goes on has taken
a token, no position is behind the first end of file, and there are at most four turns for each token. -/
theorem descent_advances (tokens : List Token) {allowance : Nat} (enough : 2 * tokens.length + 2 ≤ allowance) :
    ∃ cursor, descend allowance tokens = ((parse tokens).mapError .fault, cursor) ∧
      (∀ turn ∈ cursor.repeated, turn.start < turn.next) ∧
      (∀ position ∈ cursor.path, position ≤ firstEnd tokens) ∧ firstEnd tokens < (closed tokens).length ∧
      cursor.begun.length ≤ 4 * tokens.length ∧
      ∀ before e after, (∀ token ∈ before, token.kind ≠ .endOfFile) → e.kind = .endOfFile →
        parse (before ++ e :: after) = parse (before ++ [e]) := by
  have bound := firstEnd_le tokens
  have allowed : 2 * firstEnd tokens + 1 < allowance := by omega
  obtain ⟨result, sound, -⟩ := descend_sound tokens allowed
  refine ⟨(descend allowance tokens).2, Prod.ext result rfl, sound.repeated, sound.path, firstEnd_lt tokens, ?_,
    fun before e after endless ends => parse_ended endless ends⟩
  cases tokens with
  | nil =>
    -- there is no token here to pay for a turn, and none is begun
    obtain ⟨allowance, rfl⟩ := Nat.exists_eq_add_of_le' (Nat.le_of_succ_le enough)
    exact Nat.le_refl 0
  | cons first rest =>
    have spent : (descend allowance (first :: rest)).2.begun.length ≤ _ := sound.spent
    have position := sound.position
    have some : 0 < (first :: rest).length := Nat.succ_pos _
    omega

theorem descent_advances_nested : 2 * (nested ++ nested).length + 2 ≤ 138 ∧
    ∃ cursor, descend 138 (nested ++ nested) = ((parse (nested ++ nested)).mapError .fault, cursor) ∧
      (∀ turn ∈ cursor.repeated, turn.start < turn.next) ∧
      (∀ position ∈ cursor.path, position ≤ firstEnd (nested ++ nested)) ∧ firstEnd (nested ++ nested) = 32 ∧
      cursor.begun.length = 32 ∧ cursor.repeated.length = 24 ∧ 32 ≤ 4 * (nested ++ nested).length ∧
      parse (nested ++ nested) = parse (nested.take 33) := by
  have enough : 2 * (nested ++ nested).length + 2 ≤ 138 := by decide
  obtain ⟨cursor, ran, repeated, path, -, begun, behind⟩ := descent_advances (nested ++ nested) enough
  have turns : (descend 138 (nested ++ nested)).2.begun.length = 32 ∧
      (descend 138 (nested ++ nested)).2.repeated.length = 24 := by decide +kernel
  rw [ran] at turns
  have same := behind (nested.take 32) ⟨.endOfFile, "", 1⟩ (nested.drop 33 ++ nested) (by decide) rfl
  exact ⟨enough, cursor, ran, repeated, path, by decide, turns.1, turns.2, turns.1 ▸ begun, same⟩

end DebugBridge.Script
