import DebugBridge.Proofs.Breakpoint.Standing
import DebugBridge.Proofs.Session.Citation
import DebugBridge.Proofs.Session.Stops

/-! What is told of a stop at a line that the engine has dropped a breakpoint of, or has moved it from.

For the engine the line has no breakpoint any more. For the session it has those that stood behind the first. -/

set_option autoImplicit false

namespace DebugBridge.Session

open Breakpoint (Change Location Table)
open Protocol

variable {ω : Type}

/-- The engine drops the breakpoint of a line, or moves it to another line. -/
inductive Item.Vacates (file : String) (line : Int64) : Item → Prop where
  | cleared : Vacates file line (.engineEvent (.breakpointCleared file line))
  | moved {newLine : Int64} : newLine ≠ line → Vacates file line (.engineEvent (.breakpointMoved file line newLine))

namespace Turn

/-- The engine stops at a line, and no pause is waited for. -/
def StopsAt (turn : Turn ω) (file : String) (line : Int64) : Prop :=
  turn.before.state.pausePending = false ∧
    ∃ function outer, turn.occasion = .item (.engineEvent (.stopped (⟨file, line, function⟩ :: outer)))

def Spares (turn : Turn ω) (file : String) (line : Int64) : Prop :=
  ¬ turn.Sets file ∧ ∀ old, turn.occasion ≠ .item (.engineEvent (.breakpointMoved file old line))

def Ignores (turn : Turn ω) (file : String) : Prop :=
  ¬ turn.Sets file ∧ (∀ line, turn.occasion ≠ .item (.engineEvent (.breakpointCleared file line))) ∧
    ∀ line newLine, turn.occasion ≠ .item (.engineEvent (.breakpointMoved file line newLine))

end Turn

/-! ## What the engine reports -/

section

variable {file : String} {line : Int64} {item : Item}

/-- The engine drops a breakpoint, moves one, or says nothing of any. -/
theorem follow_cases (table : Table) (item : Item) : item.follow table = table ∨
    (∃ file line, item = .engineEvent (.breakpointCleared file line) ∧
      item.follow table = (table.clearLine file line).2) ∨
    ∃ file line newLine, item = .engineEvent (.breakpointMoved file line newLine) ∧
      item.follow table = (table.moveLine file line newLine).2 := by
  unfold Item.follow
  split
  · next file line =>
    split
    · next location cleared found => exact .inr (.inl ⟨file, line, rfl, (congrArg Prod.snd found).symm⟩)
    · exact .inl rfl
  · next file line newLine =>
    split
    · next location moved found => exact .inr (.inr ⟨file, line, newLine, rfl, (congrArg Prod.snd found).symm⟩)
    · exact .inl rfl
  · exact .inl rfl

theorem standing_follow_vacates (table : Table) (vacates : item.Vacates file line) :
    (item.follow table).standing file line = (table.standing file line).tail := by
  have untracked (unfound : table.find? file line = none) :
      table.standing file line = (table.standing file line).tail := by
    rw [Table.find?_standing, List.head?_eq_none_iff] at unfound
    rw [unfound]
    rfl
  cases vacates with
  | cleared =>
    dsimp only [Item.follow]
    split
    · next location cleared found => rw [← Table.standing_clearLine, found]
    · next unfound => exact untracked (congrArg Prod.fst unfound)
  | moved different =>
    dsimp only [Item.follow]
    split
    · next location moved found => rw [← Table.standing_moveLine table file different, found]
    · next unfound => exact untracked (Option.map_eq_none_iff.mp (congrArg Prod.fst unfound))

theorem standing_follow_sublist (table : Table)
    (spared : ∀ old, item ≠ .engineEvent (.breakpointMoved file old line)) :
    ((item.follow table).standing file line).Sublist (table.standing file line) := by
  rcases follow_cases table item with same | ⟨cleared, old, rfl, same⟩ | ⟨moved, old, newLine, rfl, same⟩
  · rw [same]
  · rw [same]
    exact (Table.clearLine_amended table cleared old).standing_sublist nofun file
  · rw [same]
    have amended := Table.moveLine_amended table moved old newLine
    by_cases here : file = moved
    · subst here
      refine amended.standing_sublist (fun location other member => ?_) file
      rw [List.mem_singleton.mp member]
      rintro rfl
      exact spared old rfl
    · rw [Table.standing_of_locations (amended.elsewhere file here)]

theorem locations_follow (table : Table)
    (uncleared : ∀ line, item ≠ .engineEvent (.breakpointCleared file line))
    (unmoved : ∀ line newLine, item ≠ .engineEvent (.breakpointMoved file line newLine)) :
    (item.follow table).locations file = table.locations file := by
  rcases follow_cases table item with same | ⟨cleared, line, rfl, same⟩ | ⟨moved, line, newLine, rfl, same⟩
  · rw [same]
  · rw [same]
    refine (Table.clearLine_amended table cleared line).elsewhere file ?_
    rintro rfl
    exact uncleared line rfl
  · rw [same]
    refine (Table.moveLine_amended table moved line newLine).elsewhere file ?_
    rintro rfl
    exact unmoved line newLine rfl

end

namespace Machine

/-! ## Turns -/

section

variable {host : Host ω} {m : Machine ω} {turn : Turn ω} {file : String} {line : Int64}

theorem Took.unset (took : Took host m turn) (unset : ¬ turn.Sets file) :
    turn.after.state.breakpoints.locations file = turn.before.state.breakpoints.locations file ∨
      ∃ item, turn.occasion = .item item ∧
        turn.after.state.breakpoints = item.follow turn.before.state.breakpoints := by
  have account := took.account.2
  generalize happened : turn.occasion = occasion, turn.messages = messages at account
  cases account with
  | @reported item _ _ outlook => exact .inr ⟨item, rfl, congrArg Outlook.breakpoints outlook⟩
  | @breakpointsSet request path wanted seq verb asked outlook =>
    have table := congrArg Outlook.breakpoints outlook
    have elsewhere : turn.before.state.resolver.toEngine path ≠ file := fun same =>
      unset ⟨request, path, wanted, by rw [Turn.request?, happened]; rfl, verb, asked, same⟩
    refine .inl ?_
    rw [show turn.after.state.breakpoints = _ from table, Table.locations_replace, if_neg elsewhere]
  | paused _ _ _ _ outlook | other _ _ _ outlook =>
    exact .inl (congrArg (fun outlook => outlook.breakpoints.locations file) outlook)

theorem Took.spares (took : Took host m turn) (spares : turn.Spares file line) :
    (turn.after.state.breakpoints.standing file line).Sublist
      (turn.before.state.breakpoints.standing file line) := by
  rcases took.unset spares.1 with same | ⟨item, occasion, follow⟩
  · rw [Table.standing_of_locations same]
  · rw [follow]
    refine standing_follow_sublist _ fun old moved => spares.2 old ?_
    rw [occasion, moved]

theorem Took.ignores (took : Took host m turn) (ignores : turn.Ignores file) :
    turn.after.state.breakpoints.locations file = turn.before.state.breakpoints.locations file := by
  rcases took.unset ignores.1 with same | ⟨item, occasion, follow⟩
  · exact same
  · rw [follow]
    refine locations_follow _ (fun line cleared => ignores.2.1 line ?_) fun line newLine moved =>
      ignores.2.2 line newLine ?_
    · rw [occasion, cleared]
    · rw [occasion, moved]

theorem Took.vacates {item : Item} (took : Took host m turn) (occasion : turn.occasion = .item item)
    (vacates : item.Vacates file line) : turn.after.state.breakpoints.standing file line =
      (turn.before.state.breakpoints.standing file line).tail := by
  have account := took.account.2
  rw [occasion] at account
  generalize turn.messages = messages at account
  cases account with
  | reported _ _ outlook =>
    rw [show turn.after.state.breakpoints = _ from congrArg Outlook.breakpoints outlook]
    exact standing_follow_vacates _ vacates
  | breakpointsSet | paused => cases vacates
  | other unreported =>
    have report : item.isReport = true := by cases vacates <;> rfl
    rw [unreported item rfl] at report
    cases report

/-- What a stop at a line is put down to: the first breakpoint that stands there. -/
theorem Took.stopsAt (took : Took host m turn) (stops : turn.StopsAt file line) :
    turn.stops = [match (turn.before.state.breakpoints.standing file line).head? with
      | some location => .breakpoint location.id
      | none => .step] := by
  obtain ⟨unpaused, function, outer, occasion⟩ := stops
  have account := took.account.2
  rw [occasion] at account
  have told : turn.stops = turn.messages.filterMap Message.stop? := rfl
  generalize turn.messages = messages at account told
  cases account with
  | reported =>
    rw [told, stops_notices, stop?_unpaused _ unpaused, ← Table.find?_standing]
    rfl
  | other unreported => cases unreported _ rfl

end

/-! ## Runs -/

/-- What is told of stops at a line, once the engine has dropped the breakpoint of that line or moved it away. The
line has been left for good, as far as nothing brings a breakpoint there again, if no other stood behind the
first. Otherwise the next one is what stops are put down to. -/
structure Left (turns : List (Turn ω)) : Prop where
  stepped : ∀ past vacated between stopped later item file line,
    turns = past ++ vacated :: (between ++ stopped :: later) → vacated.occasion = .item item →
    item.Vacates file line → (∀ turn ∈ between, turn.Spares file line) → stopped.StopsAt file line →
    (vacated.before.state.breakpoints.standing file line).length ≤ 1 → stopped.stops = [.step]
  followed : ∀ past vacated between stopped later item file line,
    turns = past ++ vacated :: (between ++ stopped :: later) → vacated.occasion = .item item →
    item.Vacates file line → (∀ turn ∈ between, turn.Ignores file) → stopped.StopsAt file line →
    stopped.stops = [match (vacated.before.state.breakpoints.standing file line)[1]? with
      | some next => .breakpoint next.id
      | none => .step]

section

variable {host : Host ω} {world : ω} {m : Machine ω} {received : List Request} {turns : List (Turn ω)}

theorem History.left (history : History host world received turns m) : Left turns where
  stepped past vacated between stopped later item file line all occasion vacates spared stops single := by
    subst all
    obtain ⟨_, _, _, took⟩ := history.split
    rw [← List.cons_append, ← List.append_assoc] at history
    obtain ⟨_, before, earlier, stopping⟩ := history.split
    -- the only one is gone from the line, and until the stop none comes to it
    have empty : vacated.after.state.breakpoints.standing file line = [] := by
      rw [took.vacates occasion vacates, ← List.length_eq_zero_iff, List.length_tail]
      omega
    have still : before.state.breakpoints.standing file line = [] :=
      earlier.along (P := fun s => s.breakpoints.standing file line = []) (fun _ _ _ same => same) empty
        fun next member _ took none => List.sublist_nil.mp (none ▸ took.spares (spared next member))
    rw [stopping.stopsAt stops, stopping.state, still]
    rfl
  followed past vacated between stopped later item file line all occasion vacates ignored stops := by
    subst all
    obtain ⟨_, _, _, took⟩ := history.split
    rw [← List.cons_append, ← List.append_assoc] at history
    obtain ⟨_, before, earlier, stopping⟩ := history.split
    have still : before.state.breakpoints.locations file = vacated.after.state.breakpoints.locations file :=
      earlier.along
        (P := fun s => s.breakpoints.locations file = vacated.after.state.breakpoints.locations file)
        (fun _ _ _ same => same) rfl fun next member _ took same => (took.ignores (ignored next member)).trans same
    rw [stopping.stopsAt stops, stopping.state, Table.standing_of_locations still, took.vacates occasion vacates,
      List.head?_tail]

end

/-- The old line of a breakpoint that the engine drops or moves is left empty just if no other breakpoint stands
there, and so always if no request names a line twice and the engine moves breakpoints to free lines. Stops are
told accordingly. -/
theorem old_line_left (host : Host ω) (world : ω) (actions : List Action) (changes : List Change) :
    (Table.empty.changes changes).LeavesBehind ∧
      (Table.empty.AllSpaced changes → ∀ file line,
        ((Table.empty.changes changes).standing file line).length ≤ 1) ∧
      Left ((initial host world).turns host actions) :=
  ⟨Table.leavesBehind _, fun spaced => (Table.single_empty.changes spaced).standing_length,
    (run_history host world actions).left⟩

/-- Two breakpoints asked for at one line. When the engine drops its only one, or moves it, the second is found at the
line, and a later stop there is put down to it. -/
theorem old_line_taken :
    let table := Table.empty.changes [.replace "a.cs" [⟨3, none, none⟩, ⟨3, none, none⟩]]
    let host := Surroundings.host "/ws" 1000
    let twice := requestFor "setBreakpoints" (.object [("source", .object [("path", .string "/ws/a.cs")]),
      ("breakpoints", .array [.object [("line", .integer 3)], .object [("line", .integer 3)]])])
    let stopped := (initial host openWorld).run host
      (askAll [launchIn "/ws" "", requestFor "configurationDone" .null, twice] ++
        [.engine ⟨[Text.Utf8.encode "BRKCLR a.cs 3\r\nBREAK a.cs 3 main\r\n"], .silent⟩, .handle, .handle])
    (table.clearLine "a.cs" 3).1 = some ⟨0, 3, none, none⟩ ∧
      (table.clearLine "a.cs" 3).2.find? "a.cs" 3 = some ⟨1, 3, none, none⟩ ∧
      (table.moveLine "a.cs" 3 5).1 = some ⟨0, 5, none, none⟩ ∧
      (table.moveLine "a.cs" 3 5).2.find? "a.cs" 3 = some ⟨1, 3, none, none⟩ ∧
      stopped.emitted.filterMap Message.stop? = [.breakpoint 1] := by
  decide +kernel

end Machine

end DebugBridge.Session
