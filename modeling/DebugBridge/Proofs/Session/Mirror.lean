import DebugBridge.Proofs.Breakpoint.Board
import DebugBridge.Proofs.Session.Dispatch
import DebugBridge.Proofs.Session.Lifecycle

/-! The engine's breakpoints in a run.

Before there is an engine its breakpoints are only remembered. The launch that connects tells them all at once,
and from then on every change of either side reaches the other. -/

set_option autoImplicit false

namespace DebugBridge.Session

open Protocol Breakpoint

variable {ω : Type}

namespace Turn

/-- What a turn makes of the engine's breakpoints. A change by the engine itself counts from where its report is
dealt with; then the commands that are handed over to it are carried out. -/
def plays (board : Board) (turn : Turn ω) : Board :=
  Board.executeAll
    (match turn.occasion with
    | .item (.engineEvent (.breakpointCleared file line)) => board.put file line none
    | .item (.engineEvent (.breakpointMoved file line newLine)) => board.move file line newLine
    | _ => board)
    turn.commands

/-- The engine changes a breakpoint only where no more than one is tracked, and moves it only where none is. -/
def isOrderly (turn : Turn ω) : Bool :=
  match turn.occasion with
  | .item (.engineEvent (.breakpointCleared file line)) => turn.before.state.breakpoints.tracked file line ≤ 1
  | .item (.engineEvent (.breakpointMoved file line newLine)) =>
    turn.before.state.breakpoints.tracked file line ≤ 1 && turn.before.state.breakpoints.tracked file newLine = 0
  | _ => true

end Turn

def engineBoard (turns : List (Turn ω)) : Board := turns.foldl Turn.plays Board.bare

theorem engineBoard_snoc (turns : List (Turn ω)) (turn : Turn ω) :
    engineBoard (turns ++ [turn]) = turn.plays (engineBoard turns) := by
  rw [engineBoard, List.foldl_append]
  rfl

namespace Machine

/-! ## What the engine makes of it -/

theorem execute_other (board : Board) {command : Engine.Command} (other : ¬ command.IsOfBreakpoints) :
    board.execute command = board := by
  cases command <;> first | rfl | exact absurd trivial other

theorem executeAll_other (board : Board) {commands : List Engine.Command}
    (others : ∀ command ∈ commands, ¬ command.IsOfBreakpoints) : board.executeAll commands = board := by
  induction commands with
  | nil => rfl
  | cons command rest ih =>
    obtain ⟨first, later⟩ := List.forall_mem_cons.mp others
    rw [Board.executeAll, List.foldl_cons, execute_other board first]
    exact ih later

theorem plays_unreported {turn : Turn ω} (board : Board)
    (unreported : ∀ item, turn.occasion = .item item → item.isReport = false) :
    turn.plays board = board.executeAll turn.commands := by
  obtain ⟨occasion, before, after⟩ := turn
  cases occasion with
  | overdue => rfl
  | item item =>
    cases item with
    | engineEvent event => cases unreported _ rfl
    | _ => rfl

theorem cleared_board {table : Table} (distinct : table.Distinct) {file : String} {line : Int64}
    (once : table.tracked file line ≤ 1) :
    (Board.bare.executeAll table.replay).put file line none =
      Board.bare.executeAll (Item.follow table (.engineEvent (.breakpointCleared file line))).replay := by
  rw [Table.clearLine_board distinct once, Item.follow]
  split
  · next location cleared found => rw [found]
  · next cleared unfound =>
    have elsewhere := Table.elsewhere_of_find? (congrArg Prod.fst unfound)
    apply Table.modifyFile_board distinct rfl
    apply List.eraseP_of_forall_not
    intro location member here
    exact elsewhere location member (beq_iff_eq.mp here)

theorem moved_board {table : Table} (distinct : table.Distinct) {file : String} {line newLine : Int64}
    (once : table.tracked file line ≤ 1) (free : table.tracked file newLine = 0) :
    (Board.bare.executeAll table.replay).move file line newLine =
      Board.bare.executeAll (Item.follow table (.engineEvent (.breakpointMoved file line newLine))).replay := by
  rw [Table.moveLine_board distinct once free, Item.follow]
  split
  · next location moved found => rw [found]
  · next moved unfound =>
    have unfound : table.find? file line = none := Option.map_eq_none_iff.mp (congrArg Prod.fst unfound)
    exact Table.modifyFile_board distinct rfl (Table.moveFirst_elsewhere (Table.elsewhere_of_find? unfound))

theorem plays_followed {turn : Turn ω} {item : Item} (distinct : turn.before.state.breakpoints.Distinct)
    (occasion : turn.occasion = .item item) (orderly : turn.isOrderly = true) (silent : turn.commands = []) :
    turn.plays (Board.bare.executeAll turn.before.state.breakpoints.replay) =
      Board.bare.executeAll (item.follow turn.before.state.breakpoints).replay := by
  rw [Turn.plays, silent, occasion]
  rw [Turn.isOrderly, occasion] at orderly
  cases item with
  | engineEvent event =>
    cases event with
    | breakpointCleared file line => exact cleared_board distinct (of_decide_eq_true orderly)
    | breakpointMoved file line newLine =>
      obtain ⟨once, free⟩ := Bool.and_eq_true_iff.mp orderly
      exact moved_board distinct (of_decide_eq_true once) (of_decide_eq_true free)
    | _ => rfl
  | _ => rfl

theorem follow_distinct {table : Table} (distinct : table.Distinct) (item : Item) :
    (item.follow table).Distinct := by
  unfold Item.follow
  split
  · next file line =>
    have after : (table.clearLine file line).2.Distinct := Table.modifyFile_distinct distinct _ _
    split
    · next location cleared found =>
      rw [found] at after
      exact after
    · exact distinct
  · next file line newLine =>
    have after : (table.moveLine file line newLine).2.Distinct := Table.modifyFile_distinct distinct _ _
    split
    · next location moved found =>
      rw [found] at after
      exact after
    · exact distinct
  · exact distinct

theorem Dispatch.distinct {host : Host ω} {s s' : State} {occasion : Occasion} {commands : List Engine.Command}
    (dispatch : Dispatch host s s' occasion commands) (distinct : s.breakpoints.Distinct) :
    s'.breakpoints.Distinct := by
  cases dispatch with
  | other _ table | parted _ table | unread _ _ _ table | launched _ _ table => exact table ▸ distinct
  | informed file wanted table => exact table ▸ Table.replace_distinct distinct file wanted
  | followed table => exact table ▸ follow_distinct distinct _

theorem follow_unreported (table : Table) {item : Item} (unreported : item.isReport = false) :
    item.follow table = table := by
  unfold Item.follow
  split <;> first | rfl | cases unreported

/-- What the engine knows is what it would be told again. A session that is idle may have told it of some files over
a connection that nobody reads, and without any connection it has told it nothing. -/
structure Mirrored (turns : List (Turn ω)) (m : Machine ω) : Prop where
  distinct : m.state.breakpoints.Distinct
  mirror : m.state.connected = true → m.state.phase ≠ .idle →
    engineBoard turns = Board.bare.executeAll m.state.breakpoints.replay
  partly : m.state.phase = .idle → m.state.breakpoints.PartlyOn (engineBoard turns)
  untold : m.state.phase = .idle → m.state.connected = false → engineBoard turns = Board.bare ∧ m.sent = []

section

variable {host : Host ω} {world : ω} {m m' : Machine ω} {turn : Turn ω} {turns : List (Turn ω)}

theorem Mirrored.same (mirrored : Mirrored turns m) (table : m'.state.breakpoints = m.state.breakpoints)
    (linked : m'.state.connected = m.state.connected) (phase : m'.state.phase = m.state.phase)
    (sent : m'.sent = m.sent) : Mirrored turns m' := by
  constructor
  · rw [table]
    exact mirrored.distinct
  · rw [table, linked, phase]
    exact mirrored.mirror
  · rw [table, phase]
    exact mirrored.partly
  · rw [linked, phase, sent]
    exact mirrored.untold

theorem Mirrored.quietly (mirrored : Mirrored turns m) (quiet : Quiet m m') : Mirrored turns m' :=
  mirrored.same quiet.breakpoints quiet.connected quiet.phase quiet.sent

/-! ## A turn -/

theorem Took.idle (took : Took host m turn) (unheard : Unheard m)
    (launches : ∀ request, m.pendingRequest = some request → verb? request = some .launch)
    (idle : turn.after.state.phase = .idle) : turn.before.state.phase = .idle :=
  took.state ▸ (took.course launches).idle (unheard.pending took.going) idle

theorem Took.unreported (took : Took host m turn) (unheard : Unheard m) (idle : turn.before.state.phase = .idle)
    (item : Item) (occasion : turn.occasion = .item item) : item.isReport = false := by
  rw [took.state] at idle
  exact Bool.eq_false_iff.mpr fun report =>
    (took.unread (unheard.unread idle)).2 item occasion (Item.ofEngine_report report)

theorem Took.closed_before (took : Took host m turn) (idle : turn.after.state.phase = .idle)
    (closed : turn.after.state.connected = false) : turn.before.state.connected = false := by
  obtain ⟨-, dispatch⟩ := took.dispatch
  generalize turn.occasion = occasion, turn.commands = commands at dispatch
  cases dispatch with
  | other _ _ _ _ linked | informed _ _ _ linked | followed _ linked => exact linked ▸ closed
  | parted _ _ _ gone =>
    rw [gone] at idle
    cases idle
  | unread _ _ _ _ opened | launched _ _ _ opened =>
    rw [closed] at opened
    cases opened

theorem Took.mirror (took : Took host m turn) (mirrored : Mirrored turns m) (unheard : Unheard m)
    (orderly : turn.isOrderly = true) (opened : turn.after.state.connected = true)
    (going : turn.after.state.phase ≠ .idle) :
    turn.plays (engineBoard turns) = Board.bare.executeAll turn.after.state.breakpoints.replay := by
  have distinct : turn.before.state.breakpoints.Distinct := took.state ▸ mirrored.distinct
  have mirror : turn.before.state.connected = true → turn.before.state.phase ≠ .idle →
      engineBoard turns = Board.bare.executeAll turn.before.state.breakpoints.replay := took.state ▸ mirrored.mirror
  obtain ⟨-, dispatch⟩ := took.dispatch
  generalize occasion : turn.occasion = happened, commands : turn.commands = all at dispatch
  cases dispatch with
  | other unreported table others _ linked still =>
    rw [plays_unreported _ (occasion ▸ unreported), commands, executeAll_other _ others, table]
    exact mirror (linked ▸ opened) fun idle => going (still idle)
  | parted _ _ closed =>
    rw [closed] at opened
    cases opened
  | unread _ _ _ _ _ idle => exact absurd idle going
  | @informed request file wanted table linked phase =>
    rw [linked] at opened
    rw [plays_unreported _ (occasion ▸ request_unreported request), commands, if_pos opened, table,
      mirror opened (phase ▸ going)]
    exact Table.replace_board distinct file wanted
  | launched unreported free table =>
    -- until now the engine was told of some files at most, and the replay tells it of all
    have idle : m.state.phase = .idle := (took.state ▸ free).elim (unheard.pending took.going) id
    have partly : turn.before.state.breakpoints.PartlyOn (engineBoard turns) := took.state ▸ mirrored.partly idle
    rw [plays_unreported _ (occasion ▸ unreported), commands, table, Board.executeAll_append, partly.replay distinct]
    rfl
  | followed table linked moved =>
    have before : turn.before.state.phase ≠ .idle := fun idle => moved.elim (fun same => going (same.trans idle))
      fun report => Bool.false_ne_true ((took.unreported unheard idle _ occasion).symm.trans report)
    rw [linked] at opened
    rw [mirror opened before, table]
    exact plays_followed distinct occasion orderly commands

theorem Took.partly (took : Took host m turn) (mirrored : Mirrored turns m) (unheard : Unheard m)
    (launches : ∀ request, m.pendingRequest = some request → verb? request = some .launch)
    (idle : turn.after.state.phase = .idle) :
    turn.after.state.breakpoints.PartlyOn (turn.plays (engineBoard turns)) := by
  have before := took.idle unheard launches idle
  have unreported := took.unreported unheard before
  have distinct : turn.before.state.breakpoints.Distinct := took.state ▸ mirrored.distinct
  have partly : turn.before.state.breakpoints.PartlyOn (engineBoard turns) :=
    took.state ▸ mirrored.partly (took.state ▸ before)
  rw [plays_unreported _ unreported]
  obtain ⟨-, dispatch⟩ := took.dispatch
  generalize occasion : turn.occasion = happened, commands : turn.commands = all at dispatch
  cases dispatch with
  | other _ table others => exact executeAll_other _ others ▸ table ▸ partly
  | parted _ table | unread _ _ _ table => exact table ▸ partly
  | informed file wanted table =>
    rw [table]
    cases opened : turn.before.state.connected with
    | true => exact partly.replace distinct file wanted
    | false => exact fun file => .inl (congrFun (mirrored.untold (took.state ▸ before) (took.state ▸ opened)).1 file)
  | launched _ _ _ _ running =>
    rw [running] at idle
    cases idle
  | followed table =>
    rw [table, follow_unreported _ (unreported _ occasion)]
    exact partly

theorem Mirrored.next (mirrored : Mirrored turns m) (unheard : Unheard m) (took : Took host m turn)
    (launches : ∀ request, m.pendingRequest = some request → verb? request = some .launch)
    (orderly : turn.isOrderly = true) : Mirrored (turns ++ [turn]) turn.after := by
  obtain ⟨sent, dispatch⟩ := took.dispatch
  constructor
  · exact dispatch.distinct (took.state ▸ mirrored.distinct)
  · rw [engineBoard_snoc]
    exact took.mirror mirrored unheard orderly
  · rw [engineBoard_snoc]
    exact took.partly mirrored unheard launches
  · intro idle closed
    have before := took.idle unheard launches idle
    have unconnected := took.closed_before idle closed
    obtain ⟨board, unsent⟩ := mirrored.untold (took.state ▸ before) (took.state ▸ unconnected)
    rw [engineBoard_snoc, plays_unreported _ (took.unreported unheard before), sent, took.unsent unconnected closed,
      board, took.sent, unsent]
    exact ⟨rfl, rfl⟩

theorem History.mirrored {received : List Request} (history : History host world received turns m)
    (orderly : ∀ turn ∈ turns, turn.isOrderly = true) : Mirrored turns m := by
  induction history with
  | start => exact ⟨Table.distinct_empty, nofun, fun _ _ => .inl rfl, fun _ _ => ⟨rfl, rfl⟩⟩
  | step history step ih =>
    have earlier := ih fun turn member => orderly turn (List.mem_append_left _ member)
    cases step with
    | took took =>
      have last := orderly _ (List.mem_append_right _ List.mem_cons_self)
      exact earlier.next history.unheard took history.ledger.verb last
    | asked _ => exact (List.append_nil _).symm ▸ earlier.same rfl rfl rfl rfl
    | closed quiet => exact (List.append_nil _).symm ▸ (earlier.quietly quiet).same rfl rfl rfl rfl
    | listened quiet => exact (List.append_nil _).symm ▸ earlier.quietly quiet

/-! ## Runs -/

/-- What a run does with the breakpoints: without a connection it keeps them for itself, with it the engine has
them, and between the two there is one replay before the engine is first let go on. A session that is connected is
idle only if nobody could be made to read the connection. -/
structure Mirroring (host : Host ω) (turns : List (Turn ω)) (m : Machine ω) : Prop where
  sent : m.sent = turns.flatMap Turn.commands
  mirror : m.state.connected = true → m.state.phase ≠ .idle ∨ host.StartsReaders →
    engineBoard turns = Board.bare.executeAll m.state.breakpoints.replay
  unconnected : ∀ turn ∈ turns, turn.before.state.connected = false → turn.after.state.connected = false →
    turn.commands = []
  replayed : ∀ past turn later, turns = past ++ turn :: later → turn.before.state.connected = false →
    turn.after.state.connected = true → past.flatMap Turn.commands = [] ∧
      (turn.after.state.phase ≠ .idle ∨ host.StartsReaders →
        turn.commands = turn.before.state.breakpoints.replay ++ [.resume])

/-- As long as the engine gets what is handed over, and changes only breakpoints that are the only ones of their
lines, its breakpoints are at any time those that a replay of the table would set. -/
theorem breakpoints_mirrored (host : Host ω) (world : ω) (actions : List Action)
    (orderly : ∀ turn ∈ (initial host world).turns host actions, turn.isOrderly = true) :
    Mirroring host ((initial host world).turns host actions) ((initial host world).run host actions) := by
  have history := run_history host world actions
  generalize (initial host world).turns host actions = turns, (initial host world).run host actions = m at *
  refine ⟨history.sent, fun opened read => ?_, ?_, ?_⟩
  · refine (history.mirrored orderly).mirror opened (read.elim id fun starts idle => ?_)
    rw [(history.sound starts).unconnected idle] at opened
    cases opened
  · intro turn member closed still
    obtain ⟨past, later, rfl⟩ := List.append_of_mem member
    obtain ⟨_, _, _, took⟩ := history.split
    exact took.unsent closed still
  · rintro past turn later rfl closed opened
    obtain ⟨_, earlier, history, took⟩ := history.split
    obtain ⟨free, replayed⟩ := took.opening closed opened
    have mirrored := history.mirrored fun turn member => orderly turn (List.mem_append_left _ member)
    have idle : earlier.state.phase = .idle := free.elim (history.unheard.pending took.going) id
    exact ⟨history.sent ▸ (mirrored.untold idle (took.state ▸ closed)).2, replayed⟩

def rehearsal : List Action :=
  [ask "setBreakpoints" (breakpointsAt [3, 5]), .handle, ask "setBreakpoints" (breakpointsAt [3, 5, 5]), .handle,
    ask "launch" (.object [("port", .integer 2000)]), .handle, ask "configurationDone" .null, .handle,
    .engine ⟨[Text.Utf8.encode "BRKCLR a.nut 3\r\n"], .silent⟩, .handle,
    ask "setBreakpoints" (breakpointsAt [5, 8]), .handle]
where
  ask (command : String) (arguments : Json) : Action :=
    .message (.object [("seq", .integer 1), ("type", .string "request"), ("command", .string command),
      ("arguments", arguments)])
  breakpointsAt (lines : List Int) : Json :=
    .object [("source", .object [("path", .string "/a.nut")]),
      ("breakpoints", .array (lines.map fun line => .object [("line", .integer line)]))]

theorem breakpoints_mirrored_rehearsal :
    (∀ turn ∈ (initial (Surroundings.host "/" 1000) openWorld).turns (Surroundings.host "/" 1000) rehearsal,
      turn.isOrderly = true) ∧
    ((initial (Surroundings.host "/" 1000) openWorld).run (Surroundings.host "/" 1000) rehearsal).state.connected ∧
    Mirroring (Surroundings.host "/" 1000)
      ((initial (Surroundings.host "/" 1000) openWorld).turns (Surroundings.host "/" 1000) rehearsal)
      ((initial (Surroundings.host "/" 1000) openWorld).run (Surroundings.host "/" 1000) rehearsal) :=
  ⟨by decide +kernel, by decide +kernel, breakpoints_mirrored _ _ _ (by decide +kernel)⟩

end

end Machine

end DebugBridge.Session
