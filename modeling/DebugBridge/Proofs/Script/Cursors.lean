import DebugBridge.Proofs.Script.Positions

/-! How a descent is specified: from a sound cursor a procedure comes to a sound one, with a result or with the fault
for which the script is turned down. What each single step does to the cursor. -/

set_option autoImplicit false

namespace DebugBridge.Script

namespace Descent

open Reader (Reads)

def Cursor.spent (cursor : Cursor) : Nat := cursor.begun.length

/-- No position is behind the first end of file, and whatever loop went on had taken a token. Each token pays for two
turns, one of the loop around it and one of its own. -/
structure Sound (script : List Token) (cursor : Cursor) : Prop where
  tokens : cursor.tokens = closed script
  position : cursor.position ≤ firstEnd script
  path : ∀ position ∈ cursor.path, position ≤ firstEnd script
  repeated : ∀ turn ∈ cursor.repeated, turn.start < turn.next
  spent : cursor.spent ≤ 2 * cursor.position + 2

/-- From a sound cursor a procedure comes to a sound one: with a result such that `post` holds, or else with the fault
for which the script is turned down. -/
def Meets {α : Type} (script : List Token) (m : Descent α) (cursor : Cursor) (post : α → Cursor → Prop) : Prop :=
  match m.run.run cursor with
  | (.ok a, next) => Sound script next ∧ post a next
  | (.error (.fault fault), next) => Sound script next ∧ parse script = .error fault
  | (.error _, _) => False

section

variable {α β : Type} {script : List Token} {cursor : Cursor} {token : Token} {m : Descent α} {f : α → Descent β}
  {post : β → Cursor → Prop}

theorem run_bind (m : Descent α) (f : α → Descent β) (cursor : Cursor) : (m >>= f).run.run cursor =
    match m.run.run cursor with
    | (.ok a, next) => (f a).run.run next
    | (.error halt, next) => (.error halt, next) := by
  rw [ExceptT.run_bind, StateT.run_bind]
  change (match m.run.run cursor with | (result, next) => _) = _
  obtain ⟨result, next⟩ := m.run.run cursor
  cases result <;> rfl

theorem Meets.bind {q : α → Cursor → Prop} (first : Meets script m cursor q)
    (rest : ∀ a next, Sound script next → q a next → Meets script (f a) next post) :
    Meets script (m >>= f) cursor post := by
  unfold Meets at first ⊢
  rw [run_bind]
  generalize m.run.run cursor = ran at first
  obtain ⟨halt | a, next⟩ := ran
  · cases halt with
    | fault fault => exact first
    | outOfRange | exhausted => exact first.elim
  · exact rest a next first.1 first.2

theorem Meets.mono {post' : α → Cursor → Prop} {post : α → Cursor → Prop} (meets : Meets script m cursor post)
    (weaker : ∀ a next, post a next → post' a next) : Meets script m cursor post' := by
  unfold Meets at meets ⊢
  generalize m.run.run cursor = ran at meets
  obtain ⟨halt | a, next⟩ := ran
  · cases halt <;> exact meets
  · exact ⟨meets.1, weaker a next meets.2⟩

theorem Meets.after {a : α} {next : Cursor} (ran : m.run.run cursor = (.ok a, next))
    (rest : Meets script (f a) next post) : Meets script (m >>= f) cursor post := by
  unfold Meets
  rw [run_bind, ran]
  exact rest

theorem Meets.pure {a : α} {post : α → Cursor → Prop} (sound : Sound script cursor) (holds : post a cursor) :
    Meets script (Pure.pure a) cursor post := ⟨sound, holds⟩

theorem Meets.branch {α : Type} {test : Descent Bool} {yes no : Descent α} {post : α → Cursor → Prop} {b : Bool}
    (ran : test.run.run cursor = (.ok b, cursor)) (met : b = true → Meets script yes cursor post)
    (unmet : b = false → Meets script no cursor post) : Meets script (do if ← test then yes else no) cursor post := by
  refine .after ran ?_
  cases b with
  | true => exact met rfl
  | false => exact unmet rfl

theorem Meets.fault {fault : Fault} {post : α → Cursor → Prop} (sound : Sound script cursor)
    (turnedDown : parse script = .error fault) : Meets script (Descent.fault fault) cursor post := ⟨sound, turnedDown⟩

/-! ## Single steps -/

theorem run_look (tokens : cursor.tokens = closed script) (faces : Faces script cursor.position token) :
    look.run.run cursor = (.ok token, cursor) := by
  have seen : cursor.tokens[cursor.position]? = some token := tokens ▸ faces.seen
  have got : (get : Descent Cursor).run.run cursor = (.ok cursor, cursor) := rfl
  unfold look
  rw [run_bind, got]
  dsimp only
  rw [seen]
  rfl

theorem run_advance (tokens : cursor.tokens = closed script) (faces : Faces script cursor.position token)
    (plain : token.kind ≠ .endOfFile) : advance.run.run cursor = (.ok token, cursor.move (cursor.position + 1)) := by
  unfold advance
  rw [run_bind, run_look tokens faces]
  simp only [if_neg plain]
  rfl

theorem run_advance_end (tokens : cursor.tokens = closed script) (faces : Faces script cursor.position token)
    (ends : token.kind = .endOfFile) : advance.run.run cursor = (.ok token, cursor.move cursor.position) := by
  unfold advance
  rw [run_bind, run_look tokens faces]
  simp only [if_pos ends]
  rfl

theorem run_skip (tokens : cursor.tokens = closed script) (faces : Faces script cursor.position token)
    (plain : token.kind ≠ .endOfFile) : skip.run.run cursor = (.ok (), cursor.move (cursor.position + 1)) := by
  unfold skip
  rw [run_bind, run_advance tokens faces plain]
  rfl

theorem run_enter (loop : Loop) (cursor : Cursor) :
    (enter loop).run.run cursor = (.ok cursor.position, cursor.enter loop) := rfl

theorem run_again (loop : Loop) (start : Nat) (cursor : Cursor) :
    (again loop start).run.run cursor = (.ok (), cursor.again loop start) := rfl

theorem run_atEnd (tokens : cursor.tokens = closed script) (faces : Faces script cursor.position token) :
    atEnd.run.run cursor = (.ok (decide (token.kind = .endOfFile)), cursor) := by
  unfold atEnd
  rw [run_bind, run_look tokens faces]
  rfl

theorem run_isPunctuation (tokens : cursor.tokens = closed script) (faces : Faces script cursor.position token)
    (mark : String) : (isPunctuation mark).run.run cursor = (.ok (token.isPunctuation mark), cursor) := by
  unfold isPunctuation
  rw [run_bind, run_look tokens faces]
  rfl

theorem run_isKeyword (tokens : cursor.tokens = closed script) (faces : Faces script cursor.position token)
    (word : String) : (isKeyword word).run.run cursor = (.ok (token.isKeyword word), cursor) := by
  unfold isKeyword
  rw [run_bind, run_look tokens faces]
  rfl

theorem Meets.unexpected {expected : Expectation} {post : α → Cursor → Prop} (sound : Sound script cursor)
    (faces : Faces script cursor.position token)
    (turnedDown : parse script = .error
      (if token.kind = .endOfFile then .unexpectedEnd expected else Reader.unexpected token expected)) :
    Meets script (Descent.unexpected expected) cursor post :=
  .after (run_look sound.tokens faces) (.fault sound turnedDown)

theorem Meets.ending {yes no : Descent α} {post : α → Cursor → Prop} (sound : Sound script cursor)
    (faces : Faces script cursor.position token) (ends : token.kind = .endOfFile → Meets script yes cursor post)
    (goesOn : token.kind ≠ .endOfFile → Meets script no cursor post) :
    Meets script (do if ← atEnd then yes else no) cursor post :=
  .branch (run_atEnd sound.tokens faces) (fun met => ends (of_decide_eq_true met))
    fun unmet => goesOn (of_decide_eq_false unmet)

/-! ## Sound cursors -/

theorem Sound.enter (sound : Sound script cursor) (loop : Loop) (paid : cursor.spent ≤ 2 * cursor.position + 1) :
    Sound script (cursor.enter loop) :=
  ⟨sound.tokens, sound.position, sound.path, sound.repeated, Nat.succ_le_succ paid⟩

theorem Sound.next (sound : Sound script cursor) (faces : Faces script cursor.position token)
    (plain : token.kind ≠ .endOfFile) : Sound script (cursor.move (cursor.position + 1)) where
  tokens := sound.tokens
  position := (faces.within plain).1
  path := List.forall_mem_cons.mpr ⟨(faces.within plain).1, sound.path⟩
  repeated := sound.repeated
  spent := Nat.le_trans sound.spent (by show _ ≤ 2 * (cursor.position + 1) + 2; omega)

theorem Sound.stay (sound : Sound script cursor) : Sound script (cursor.move cursor.position) :=
  ⟨sound.tokens, sound.position, List.forall_mem_cons.mpr ⟨sound.position, sound.path⟩, sound.repeated, sound.spent⟩

theorem Sound.inPackage (sound : Sound script cursor) (package : Option Token) :
    Sound script (cursor.inPackage package) :=
  ⟨sound.tokens, sound.position, sound.path, sound.repeated, sound.spent⟩

theorem Sound.again {start : Nat} (sound : Sound script cursor) (loop : Loop) (advanced : start < cursor.position) :
    Sound script (cursor.again loop start) :=
  ⟨sound.tokens, sound.position, sound.path, List.forall_mem_cons.mpr ⟨advanced, sound.repeated⟩, sound.spent⟩

/-! ## Marks -/

theorem plain_mark {mark : String} (marked : token.isPunctuation mark = true) : token.kind ≠ .endOfFile := by
  rw [mark_kind marked]
  decide

theorem plain_word (word : token.kind = .identifier) : token.kind ≠ .endOfFile := by
  rw [word]
  decide

theorem Meets.expect {f : Unit → Descent α} {post : α → Cursor → Prop} {mark : String} {expected : Expectation}
    (sound : Sound script cursor) (faces : Faces script cursor.position token)
    (met : token.isPunctuation mark = true → Meets script (f ()) (cursor.move (cursor.position + 1)) post)
    (turnedDown : token.isPunctuation mark = false → parse script = .error
      (if token.kind = .endOfFile then .unexpectedEnd expected else Reader.unexpected token expected)) :
    Meets script (expect mark expected >>= f) cursor post := by
  refine .bind (q := fun _ next => token.isPunctuation mark = true ∧ next = cursor.move (cursor.position + 1)) ?_ ?_
  · refine .branch (run_isPunctuation sound.tokens faces mark) (fun marked => ?_)
      fun unmarked => .unexpected sound faces (turnedDown unmarked)
    unfold Meets
    rw [run_skip sound.tokens faces (plain_mark marked)]
    exact ⟨sound.next faces (plain_mark marked), marked, rfl⟩
  · rintro _ _ - ⟨marked, rfl⟩
    exact met marked

theorem Meets.allow {f : Unit → Descent α} {post : α → Cursor → Prop} {mark : String}
    (sound : Sound script cursor) (faces : Faces script cursor.position token)
    (met : token.isPunctuation mark = true → Meets script (f ()) (cursor.move (cursor.position + 1)) post)
    (unmet : token.isPunctuation mark = false → Meets script (f ()) cursor post) :
    Meets script (allow mark >>= f) cursor post := by
  have ran : (Descent.allow mark).run.run cursor =
      (.ok (), if token.isPunctuation mark then cursor.move (cursor.position + 1) else cursor) := by
    unfold Descent.allow
    rw [run_bind, run_isPunctuation sound.tokens faces]
    dsimp only
    split
    · next marked => exact run_skip sound.tokens faces (plain_mark marked)
    · rfl
  refine .after ran ?_
  split
  · next marked => exact met marked
  · next unmarked => exact unmet (by simpa using unmarked)

end

end Descent

end DebugBridge.Script
