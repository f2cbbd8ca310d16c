import DebugBridge.Proofs.Session.Frames
import DebugBridge.Proofs.Session.Mirror
import DebugBridge.Proofs.Source.Mapping

/-! Breakpoints are kept, and set in the engine, under the engine's name of a file. A client may name a file as it
likes, and the name that it is shown with a stack frame leads back to the engine's. -/

set_option autoImplicit false

namespace DebugBridge.Session

open Protocol Source

variable {ω : Type}

/-- The breakpoints of one file, under the engine's name of it, are replaced by others, here and in the engine. -/
structure Turn.Replaces (turn : Turn ω) (request : Request) (file : String) (wanted : List Breakpoint.Wanted) :
    Prop where
  table : turn.after.state.breakpoints = (turn.before.state.breakpoints.replace file wanted).2
  commands : turn.commands = if turn.before.state.connected
    then (turn.before.state.breakpoints.replace file wanted).1.commands else []
  messages : turn.messages = [.response turn.before.nextSeq request
    (.success (.breakpoints (turn.before.state.breakpoints.replace file wanted).1.installed))]

/-- How the client's paths get on with the engine's names of files, in a session that looks for its sources in a root
directory of a workspace. -/
structure ClientPaths (workspace : String) (root : Option String) (turns : List (Turn ω)) : Prop where
  back : ∀ path, (Resolver.new workspace root).toClient ((Resolver.new workspace root).toEngine path) =
    inWorkspace workspace path
  absolute : ∀ path, IsAbsolute path → inWorkspace workspace path = normalized path
  told : ∀ path other, IsAbsolute path → IsAbsolute other →
    ((Resolver.new workspace root).toEngine path = (Resolver.new workspace root).toEngine other ↔
      normalized path = normalized other)
  lists : ∀ turn ∈ turns, ∀ request path wanted, turn.before.state.resolver = .new workspace root →
    turn.request? = some request → verb? request = some .setBreakpoints → wanted? request = some (path, wanted) →
    IsAbsolute path → ∀ other, IsAbsolute other →
      turn.after.state.breakpoints.locations ((Resolver.new workspace root).toEngine other) =
        if normalized path = normalized other
        then (turn.before.state.breakpoints.replace ((Resolver.new workspace root).toEngine path) wanted).1.installed
        else turn.before.state.breakpoints.locations ((Resolver.new workspace root).toEngine other)

structure EngineNames (workspace : String) (root : Option String) (turns : List (Turn ω)) : Prop where
  back : ∀ file, IsBelow file →
    (Resolver.new workspace root).toEngine ((Resolver.new workspace root).toClient file).text = (normalized file).text
  shown : ∀ past showing between turn later request other start levels shown (view : FrameView)
    (frame : Engine.Frame) wanted, turns = past ++ showing :: (between ++ turn :: later) →
    showing.before.state.resolver = .new workspace root → showing.occasion = .item (.request request) →
    inspection? request = some (.stack start levels) → showing.Answers request [] (.success (.stack shown)) →
    view ∈ shown → showing.before.state.stack[start + view.id]? = some frame → IsBelow frame.file →
    turn.request? = some other → verb? other = some .setBreakpoints →
    wanted? other = some (view.source.path, wanted) → turn.Replaces other (normalized frame.file).text wanted

namespace Machine

section

variable {host : Host ω} {world : ω} {m m' : Machine ω} {turn : Turn ω} {request : Request}

theorem Took.replaces {path : String} {wanted : List Breakpoint.Wanted} (took : Took host m turn)
    (asked : turn.request? = some request) (verb : verb? request = some .setBreakpoints)
    (asks : wanted? request = some (path, wanted)) :
    turn.Replaces request (turn.before.state.resolver.toEngine path) wanted := by
  have handled := took.handled
  rw [occasion_of_request asked] at handled
  generalize after : turn.after = m' at handled
  cases handled with
  -- of all that can come of a request for breakpoints, only a replacement has anything to ask for
  | replied _ _ _ _ _ unset =>
    rw [unset verb] at asks
    cases asks
  | resumed _ _ named resumption | notResumed named resumption | notWritten _ named resumption =>
    exact absurd verb (resumption_other named resumption rfl)
  | introduced other | repeated other | unreadable _ other | homeless _ _ other | putOff _ _ _ other
  | started _ _ _ other | configured other | disconnected other =>
    rw [verb] at other
    cases other
  | announced _ _ _ _ _ unasked => exact absurd rfl (unasked request)
  | parted farewell => cases farewell
  | breakpointsSet file others _ quiet informed sent named =>
    obtain ⟨_, same, rfl⟩ := named
    cases asks.symm.trans same
    have told := quiet.told.silently informed rfl rfl
    constructor
    · rw [after]
      exact informed.breakpoints
    · apply commands_of
      rw [after, sent_respond]
      exact sent
    · apply Told.messages
      have same : turn.before.nextSeq = _ := told.nextSeq.symm
      rw [after, same]
      exact told.respond request _

theorem Launched.resolver (launched : Launched host m m') : m'.state.resolver = m.state.resolver := by
  cases launched with
  | nothing => rfl
  | connected _ _ _ quiet informing _ last => exact last.resolver.trans (informing.resolver.trans quiet.resolver)
  | failed _ _ _ _ quiet => exact quiet.resolver

/-- Only a session that has no engine yet is told where the sources are. -/
theorem Handled.resolver {occasion : Occasion} (handled : Handled host m occasion m')
    (started : m.state.phase ≠ .idle) :
    m'.state.resolver = m.state.resolver := by
  cases handled with
  | replied _ _ quiet asked => exact asked.resolver.trans quiet.resolver
  | introduced _ quiet | notResumed _ _ _ quiet | repeated _ _ quiet | disconnected _ quiet | left quiet =>
    exact quiet.resolver
  | breakpointsSet _ _ _ quiet informed => exact informed.resolver.trans quiet.resolver
  | resumed _ _ _ _ _ quiet sent | notWritten _ _ _ _ quiet sent => exact sent.resolver.trans quiet.resolver
  | unreadable _ _ idle | homeless _ _ _ idle | putOff _ _ _ _ idle | started _ _ _ _ idle => exact absurd idle started
  | configured _ quiet launched => exact launched.resolver.trans quiet.resolver
  | announced _ _ _ _ _ _ _ _ quiet =>
    rw [state_announceAll]
    exact quiet.resolver
  | parted _ quiet =>
    rw [state_announceAll]
    exact quiet.resolver
  | overdue quiet launched => exact launched.resolver.trans quiet.resolver

theorem Took.started {received : List Request} {turns : List (Turn ω)} (history : History host world received turns m)
    (took : Took host m turn) (started : turn.before.state.phase ≠ .idle) : turn.after.state.phase ≠ .idle := by
  intro idle
  refine started ?_
  rw [took.state]
  exact (took.course history.ledger.verb).idle (history.unheard.pending took.going) idle

/-- Without an engine there is no stack. -/
theorem History.unstacked {received : List Request} {turns : List (Turn ω)}
    (history : History host world received turns m) (idle : m.state.phase = .idle) : m.state.stack = [] := by
  induction history with
  | start => rfl
  | step history step ih =>
    cases step with
    | took took =>
      have earlier := (took.course history.ledger.verb).idle (history.unheard.pending took.going) idle
      have unheard := (took.unread (history.unheard.unread earlier)).2
      have still := took.stack fun frames stopped => unheard _ stopped rfl
      rw [still, took.state, ih earlier]
    | asked _ => exact ih idle
    | closed quiet | listened quiet =>
      have background : Quiet _ _ := quiet
      exact background.stack.trans (ih (background.phase ▸ idle))

/-- As long as there is a stack to show, sources are looked for where they were. -/
theorem History.resolver {received : List Request} {past between : List (Turn ω)} {showing : Turn ω}
    (history : History host world received (past ++ showing :: between) m)
    (stacked : showing.before.state.stack ≠ []) : m.state.resolver = showing.before.state.resolver := by
  obtain ⟨_, _, before, took⟩ := history.split
  have started : showing.before.state.phase ≠ .idle := by
    rw [took.state] at stacked ⊢
    exact fun idle => stacked (before.unstacked idle)
  refine (history.onward (P := fun s => s.resolver = showing.before.state.resolver ∧ s.phase ≠ .idle)
    (fun _ _ _ same => same) ⟨took.handled.resolver started, took.started before started⟩ ?_).1
  rintro next - _ _ _ history taken ⟨same, started⟩
  exact ⟨(taken.handled.resolver started).trans same, taken.started history started⟩

end

/-- A client's path names the same file to the engine however it is spelled, and no other file. -/
theorem client_paths_kept {workspace : String} (absolute : IsAbsolute workspace) (root : Option String)
    (host : Host ω) (world : ω) (actions : List Action) :
    ClientPaths workspace root ((initial host world).turns host actions) where
  back := Resolver.toClient_toEngine absolute root
  absolute path named := inWorkspace_of_absolute named workspace
  told path other := Resolver.toEngine_eq_iff absolute root
  lists turn member request path wanted resolver asked verb asks named other otherNamed := by
    obtain ⟨_, _, _, _, took⟩ := (run_history host world actions).taken member
    have replaces := took.replaces asked verb asks
    rw [resolver] at replaces
    rw [replaces.table, Breakpoint.Table.locations_replace]
    simp only [Resolver.toEngine_eq_iff absolute root named otherNamed]

/-- A root directory that is reached around the workspace. -/
theorem client_paths_kept_around :
    let r := Resolver.new "/ws/./x/.." (some "..\\game//")
    IsAbsolute "/ws/./x/.." ∧ r.toEngine "tools\\..//a.cs" = "../ws/a.cs" ∧
      r.toClient (r.toEngine "tools\\..//a.cs") = ⟨true, [.name "ws", .name "a.cs"]⟩ ∧
      r.toEngine "/game/a.cs" = r.toEngine "\\game\\b/.././a.cs" := by
  intro r
  have absolute : IsAbsolute "/ws/./x/.." := by decide +kernel
  have kept := client_paths_kept absolute (some "..\\game//") (Surroundings.host "/" 1000) openWorld []
  refine ⟨absolute, by decide +kernel, (kept.back _).trans (by decide +kernel), ?_⟩
  exact (kept.told _ _ (by decide +kernel) (by decide +kernel)).mpr (by decide +kernel)

/-- The path that a stack frame is shown with leads back to the engine's name of its file. -/
theorem engine_names_kept {workspace : String} (absolute : IsAbsolute workspace) (root : Option String)
    (host : Host ω) (world : ω) (actions : List Action) :
    EngineNames workspace root ((initial host world).turns host actions) where
  back file := Resolver.toEngine_toClient absolute root
  shown past showing between turn later request other start levels shown view frame wanted all resolver asked asks
      answers member found below set verb wants := by
    have history := run_history host world actions
    have here : showing ∈ (initial host world).turns host actions := all ▸ List.mem_append_cons_self
    obtain ⟨_, _, _, inspected, answered⟩ := (turn_upshot here).1.inspection asked asks
    cases inspected with
    | stack =>
    cases answers.same answered
    -- what is shown of the frame is its place in the window and where its file is
    obtain ⟨i, shown⟩ := List.mem_iff_getElem?.mp member
    obtain ⟨other, same, rfl⟩ := (window_lists _ _ _).frames i view shown
    cases found.symm.trans same
    have stacked : showing.before.state.stack ≠ [] := fun empty => by simp [empty] at found
    rw [all, ← List.cons_append, ← List.append_assoc] at history
    obtain ⟨_, _, earlier, took⟩ := history.split
    have replaces := took.replaces set verb wants
    rw [took.state, earlier.resolver stacked, State.sourceView, resolver,
      Resolver.toEngine_toClient absolute root below] at replaces
    exact replaces

/-- Breakpoints for the path that is shown with the first frame are set for `a.cs`. -/
theorem engine_names_kept_around :
    let host := Surroundings.host "/" 1000
    let played := (initial host openWorld).run host
      (askAll [launchIn "/ws" "../game", requestFor "configurationDone" .null] ++
        stopAt "BREAK b/..\\./a.cs 3 main\r\n" ++
        askAll [requestFor "stackTrace" (.object []), breakpointIn "/game/a.cs"])
    let r := Resolver.new "/ws" (some "../game")
    played.state.resolver = r ∧ IsAbsolute "/ws" ∧ IsBelow "b/..\\./a.cs" ∧
      (r.toClient "b/..\\./a.cs").text = "/game/a.cs" ∧ r.toEngine (r.toClient "b/..\\./a.cs").text = "a.cs" ∧
      played.sent.map Engine.Command.line = ["CONTINUE", "BRKSET a.cs 3 false 0 true"] := by
  intro host played r
  have absolute : IsAbsolute "/ws" := by decide +kernel
  have below : IsBelow "b/..\\./a.cs" := by decide +kernel
  have kept := engine_names_kept absolute (some "../game") host openWorld []
  refine ⟨by decide +kernel, absolute, below, by decide +kernel, (kept.back _ below).trans (by decide +kernel), ?_⟩
  decide +kernel

end Machine

end DebugBridge.Session
