import DebugBridge.Proofs.Protocol.Announcement
import DebugBridge.Proofs.Protocol.Truncation
import DebugBridge.Proofs.Session.Queue
import DebugBridge.Session.Surroundings

/-! The end of the client's stream and the end of the session.

A session is over when it has dealt with a request to disconnect or with the word that its client is gone, and not
before. That word comes just if the reader of the stream returns; where the reader breaks down, nobody else sends it. -/

set_option autoImplicit false

namespace DebugBridge.Session

open Protocol

variable {ω : Type}

def Item.isClosing : Item → Bool
  | .clientClosed => true
  | _ => false

theorem Item.closing_ofClient {item : Item} (other : item.isOfClient = false) : item.isClosing = false := by
  cases item <;> first | rfl | cases other

namespace Action

def isHandle : Action → Bool
  | .handle => true
  | _ => false

def isClientEnd : Action → Bool
  | .clientEnd _ => true
  | _ => false

def isOfClient : Action → Bool
  | .message _ | .clientEnd _ => true
  | _ => false

end Action

/-- Whether a turn lets a session end: it deals with the end of the client, or with a request to disconnect. -/
def Turn.Parts (turn : Turn ω) : Prop :=
  turn.item? = some .clientClosed ∨ ∃ request, turn.request? = some request ∧ verb? request = some .disconnect

namespace Machine

section

variable {host : Host ω} {m m' : Machine ω}

/-! ## How a session ends -/

theorem Launched.ended (launched : Launched host m m') : m'.ended = m.ended := by
  cases launched with
  | nothing => rfl
  | connected _ _ _ quiet informed _ last =>
    exact (last.ended.trans (informed.ended.trans quiet.ended :) :)
  | failed _ _ _ _ quiet => exact (quiet.ended :)

theorem Handled.ended {occasion : Occasion} (handled : Handled host m occasion m') :
    m'.ended = m.ended ∨ occasion = .item .clientClosed ∨
      ∃ request, occasion = .item (.request request) ∧ verb? request = some .disconnect := by
  cases handled with
  | left => exact .inr (.inl rfl)
  | disconnected asked => exact .inr (.inr ⟨_, rfl, asked⟩)
  | replied _ _ quiet asked => exact .inl (asked.ended.trans quiet.ended :)
  | introduced _ quiet => exact .inl (quiet.ended :)
  | notResumed _ _ _ quiet | repeated _ _ quiet | unreadable _ _ _ _ _ quiet | homeless _ _ _ _ _ _ _ quiet =>
    exact .inl (quiet.ended :)
  | breakpointsSet _ _ _ quiet informed => exact .inl (informed.ended.trans quiet.ended :)
  | resumed _ _ _ _ _ quiet sent | notWritten _ _ _ _ quiet sent => exact .inl (sent.ended.trans quiet.ended :)
  | putOff _ _ _ _ _ _ _ _ quiet ready => exact .inl (ready.ended.trans quiet.ended :)
  | started _ _ _ _ _ _ _ _ quiet ready launched =>
    exact .inl (launched.ended.trans (ready.ended.trans quiet.ended :) :)
  | configured _ quiet launched => exact .inl (launched.ended.trans quiet.ended :)
  | announced _ _ _ _ _ _ _ _ quiet | parted _ quiet =>
    exact .inl (Eq.trans (ended_announceAll _ _) quiet.ended)
  | overdue quiet launched => exact .inl (launched.ended.trans quiet.ended :)

theorem Took.parts {turn : Turn ω} (took : Took host m turn) (finished : turn.after.ended = true) : turn.Parts := by
  obtain same | closed | ⟨request, asked, verb⟩ := took.handled.ended
  · rw [took.ended, finished] at same
    cases same
  · exact .inl (by rw [Turn.item?, closed])
  · exact .inr ⟨request, by rw [Turn.request?, asked]; rfl, verb⟩

theorem History.parts {world : ω} {received : List Request} {turns : List (Turn ω)}
    (history : History host world received turns m) (finished : m.ended = true) : ∃ turn ∈ turns, turn.Parts := by
  induction history with
  | start => cases finished
  | step _ step ih =>
    cases step with
    | @took turn took => exact ⟨turn, by simp, took.parts finished⟩
    | asked => simpa using ih finished
    | closed quiet | listened quiet => simpa using ih ((Background.ended quiet).symm.trans finished)

theorem ended_act (host : Host ω) (finished : m.ended = true) (action : Action) : (m.act host action).ended = true := by
  have step := act_step host m action
  generalize action.request?.toList = received, (m.turn? host action).toList = turns, m.act host action = m' at step
  cases step with
  | took took => cases took.going.symm.trans finished
  | asked => exact finished
  | closed quiet | listened quiet => exact (Background.ended quiet).trans finished

/-! ## Leaving -/

def Leaving (m : Machine ω) (n : Nat) : Prop :=
  m.ended = true ∨ ∃ before, before.length < n ∧ before ++ [.clientClosed] <+: m.inbox

theorem Leaving.finished (leaving : Leaving m 0) : m.ended = true := by
  obtain finished | ⟨before, none, -⟩ := leaving
  · exact finished
  · cases none

/-- As soon as the word waits, the inbox as it stands is all that remains to be dealt with. -/
theorem Leaving.waits {n : Nat} (leaving : Leaving m n) : Leaving m m.inbox.length := by
  obtain finished | ⟨before, -, waits⟩ := leaving
  · exact .inl finished
  · have within := waits.length_le
    rw [List.length_append, List.length_singleton] at within
    exact .inr ⟨before, within, waits⟩

theorem Leaving.handle {n : Nat} (host : Host ω) (leaving : Leaving m n) : Leaving (m.act host .handle) (n - 1) := by
  obtain finished | ⟨before, few, behind, inbox⟩ := leaving
  · exact .inl (ended_act host finished .handle)
  cases going : m.ended with
  | true => exact .inl (ended_act host going .handle)
  | false =>
    cases before with
    | nil =>
      have first : m.inbox = .clientClosed :: behind := inbox.symm
      obtain ⟨after, -⟩ := handle_taken host going first
      exact .inl (by rw [after]; rfl)
    | cons item before =>
      have first : m.inbox = item :: (before ++ [.clientClosed] ++ behind) := inbox.symm
      have joined := (took_item host going first).handled.joined.behind
      obtain ⟨after, -⟩ := handle_taken host going first
      rw [List.length_cons] at few
      exact .inr ⟨before, by omega, after ▸ (List.prefix_append _ behind).trans joined⟩

/-- Whatever else is done, the word keeps its place. -/
theorem Leaving.other {n : Nat} (host : Host ω) {action : Action} (other : action.isHandle = false)
    (leaving : Leaving m n) : Leaving (m.act host action) n := by
  obtain finished | ⟨before, few, waits⟩ := leaving
  · exact .inl (ended_act host finished action)
  have filled : m.inbox ≠ [] := by
    intro nothing
    rw [nothing, List.prefix_nil] at waits
    cases before <;> cases waits
  have untaken : m.turn? host action = none := by
    -- while something waits, the time for the configuration does not run out
    cases action with
    | handle => cases other
    | overdue waited => simp [turn?, awaitsConfiguration, filled]
    | _ => rfl
  have step := act_step host m action
  rw [untaken] at step
  exact .inr ⟨before, few, waits.trans step.inbox⟩

theorem Leaving.run {n : Nat} (host : Host ω) (leaving : Leaving m n) (actions : List Action) :
    Leaving (m.run host actions) (n - actions.countP Action.isHandle) := by
  induction actions generalizing m n with
  | nil => exact leaving
  | cons action rest ih =>
    cases handles : action.isHandle with
    | true =>
      have handle : action = .handle := by cases action <;> first | rfl | cases handles
      subst handle
      rw [List.countP_cons_of_pos rfl, Nat.add_comm, ← Nat.sub_sub]
      exact ih (leaving.handle host)
    | false =>
      rw [List.countP_cons_of_neg (by simp [handles])]
      exact ih (leaving.other host handles)

/-! ## The word that the client is gone -/

/-- How often the session is told that its client is gone, whether or not it has dealt with it. -/
def timesTold (host : Host ω) (m : Machine ω) (actions : List Action) : Nat :=
  ((m.turns host actions).filterMap Turn.item? ++ (m.run host actions).inbox).countP Item.isClosing

theorem Joined.untold (joined : Joined m m') : m'.inbox.countP Item.isClosing = m.inbox.countP Item.isClosing := by
  obtain ⟨items, inbox, others⟩ := joined
  have none : items.countP Item.isClosing = 0 :=
    List.countP_eq_zero.mpr fun item member => by simp [Item.closing_ofClient (others item member)]
  rw [inbox, List.countP_append, none, Nat.add_zero]

theorem Took.untold {turn : Turn ω} (took : Took host m turn) :
    ([turn].filterMap Turn.item? ++ turn.after.inbox).countP Item.isClosing = m.inbox.countP Item.isClosing := by
  rw [took.inbox, List.countP_append, List.countP_append, took.handled.joined.untold]

theorem timesTold_act (host : Host ω) (m : Machine ω) (action : Action) :
    ((m.turn? host action).toList.filterMap Turn.item? ++ (m.act host action).inbox).countP Item.isClosing =
      m.inbox.countP Item.isClosing + if action.isClientEnd then 1 else 0 := by
  cases action with
  | handle =>
    cases going : m.ended with
    | true => simp [act, handleNext, turn?, going, Action.isClientEnd]
    | false =>
      cases first : m.inbox with
      | nil => simp [act, handleNext, turn?, going, first, Action.isClientEnd]
      | cons item rest =>
        obtain ⟨after, taken⟩ := handle_taken host going first
        rw [after, taken, ← first]
        exact (took_item host going first).untold
  | overdue waited =>
    by_cases awaits : m.awaitsConfiguration = true
    · simp only [act, turn?, if_pos awaits]
      exact (took_overdue host awaits waited).untold
    · simp only [act, turn?, if_neg awaits]
      rfl
  | message json =>
    simp only [act, receiveMessage]
    split
    · next request _ =>
      split
      · have added : (m.post (.request request)).inbox.countP Item.isClosing = m.inbox.countP Item.isClosing := by
          rw [post, List.countP_append]
          rfl
        exact added
      · rfl
    · next fault _ =>
      have quiet : Quiet m (m.log .warn "dap" ("malformed request: " ++ fault.message)) := log_background _ _ _ _
      exact quiet.joined.untold
  | clientEnd fault =>
    have told (heard : Machine ω) (quiet : Quiet m heard) :
        (heard.post .clientClosed).inbox.countP Item.isClosing = m.inbox.countP Item.isClosing + 1 := by
      rw [post, List.countP_append, quiet.joined.untold]
      rfl
    cases fault with
    | none => exact told m .refl
    | some reason => exact told _ (log_background m _ _ _)
  | engine incoming =>
    have quiet : Quiet m (m.receive incoming) := receive_background m incoming
    exact quiet.joined.untold
  | logLine text =>
    have joined : Joined m (m.post (.logLine text)) := joined_post m rfl
    exact joined.untold

/-- The session is told as often as the reader of the stream says so, by nobody else. -/
theorem timesTold_eq (host : Host ω) (m : Machine ω) (actions : List Action) :
    timesTold host m actions = m.inbox.countP Item.isClosing + actions.countP Action.isClientEnd := by
  induction actions generalizing m with
  | nil => rfl
  | cons action rest ih =>
    have first := timesTold_act host m action
    rw [List.countP_append] at first
    have all : timesTold host m (action :: rest) =
        ((m.turn? host action).toList.filterMap Turn.item?).countP Item.isClosing +
          timesTold host (m.act host action) rest := by
      rw [timesTold, turns, List.filterMap_append, List.append_assoc, List.countP_append]
      rfl
    rw [all, ih, List.countP_cons]
    omega

/-! ## Streams -/

theorem leaving_clientEnd (host : Host ω) (m : Machine ω) (fault : Option String) :
    ∃ n, Leaving (m.act host (.clientEnd fault)) n := by
  cases fault with
  | none => exact ⟨_, .inr ⟨m.inbox, Nat.lt_succ_self _, List.prefix_refl _⟩⟩
  | some reason =>
    exact ⟨_, .inr ⟨(m.log .warn "dap" ("read failed: " ++ reason)).inbox, Nat.lt_succ_self _, List.prefix_refl _⟩⟩

/-- Once told, a session is over when it has dealt with all that waits then. -/
theorem leaving_told (host : Host ω) (m : Machine ω) {actions : List Action}
    (told : 0 < actions.countP Action.isClientEnd) :
    Leaving (m.run host actions) (m.run host actions).inbox.length := by
  obtain ⟨action, member, ends⟩ := List.countP_pos_iff.mp told
  obtain ⟨before, after, rfl⟩ := List.append_of_mem member
  cases action with
  | clientEnd fault =>
    obtain ⟨n, leaving⟩ := leaving_clientEnd host (m.run host before) fault
    have whole : m.run host (before ++ .clientEnd fault :: after) =
        ((m.run host before).act host (.clientEnd fault)).run host after := List.foldl_append ..
    rw [whole]
    exact (leaving.run host after).waits
  | _ => cases ends

theorem countP_clientEnd (actions : List Action) :
    (actions.filter Action.isOfClient).countP Action.isClientEnd = actions.countP Action.isClientEnd := by
  rw [List.countP_filter]
  apply List.countP_congr
  intro action _
  cases action <;> simp [Action.isClientEnd, Action.isOfClient]

/-- The reader says that the client is gone once, unless it has broken down. -/
theorem countP_ofStream (octets : List UInt8) : (Action.ofStream octets).countP Action.isClientEnd =
    if (Framing.readAll octets).2 = some .lengthBeyondMemory then 0 else 1 := by
  have messages : ((Framing.readAll octets).1.map Action.message).countP Action.isClientEnd = 0 := by
    simp [List.countP_eq_zero, Action.isClientEnd]
  rw [Action.ofStream, List.countP_append, messages]
  cases (Framing.readAll octets).2 with
  | none => rfl
  | some fault => cases fault <;> rfl

/-- A session that is never told goes on, unless it is asked to disconnect. -/
theorem disconnect_of_ended (host : Host ω) (world : ω) {actions : List Action}
    (untold : timesTold host (initial host world) actions = 0)
    (finished : ((initial host world).run host actions).ended = true) :
    ∃ request ∈ actions.filterMap Action.request?, verb? request = some .disconnect := by
  have history := run_history host world actions
  obtain ⟨turn, member, closed | ⟨request, asked, verb⟩⟩ := history.parts finished
  · rw [timesTold, List.countP_append, Nat.add_eq_zero_iff, List.countP_eq_zero] at untold
    exact absurd rfl (untold.1 .clientClosed (List.mem_filterMap.mpr ⟨turn, member, closed⟩))
  · refine ⟨request, ?_, verb⟩
    rw [← history.requests]
    exact List.mem_append_left _ (List.mem_filterMap.mpr ⟨turn, member, asked⟩)

theorem request?_ofClient {actions : List Action} :
    actions.filterMap Action.request? = (actions.filter Action.isOfClient).filterMap Action.request? := by
  rw [List.filterMap_filter]
  apply List.filterMap_congr
  intro action _
  cases action <;> rfl

/-- Where the reader breaks down, nobody says that the client is gone. -/
theorem untold_broken (host : Host ω) (world : ω) {octets : List UInt8} {actions : List Action}
    (broken : (Framing.readAll octets).2 = some .lengthBeyondMemory)
    (part : actions.filter Action.isOfClient <+: Action.ofStream octets) :
    timesTold host (initial host world) actions = 0 ∧ (((initial host world).run host actions).ended = true →
      ∃ request ∈ (Action.ofStream octets).filterMap Action.request?, verb? request = some .disconnect) := by
  have never : actions.countP Action.isClientEnd = 0 := by
    have most : _ ≤ (Action.ofStream octets).countP Action.isClientEnd := part.sublist.countP_le
    rw [countP_clientEnd, countP_ofStream, if_pos broken] at most
    exact Nat.le_zero.mp most
  have untold : timesTold host (initial host world) actions = 0 := by
    rw [timesTold_eq, never]
    rfl
  refine ⟨untold, fun finished => ?_⟩
  obtain ⟨request, member, verb⟩ := disconnect_of_ended host world untold finished
  rw [request?_ofClient] at member
  exact ⟨request, (part.sublist.filterMap Action.request?).subset member, verb⟩

end

structure StreamEnd (host : Host ω) (world : ω) (octets : List UInt8) : Prop where
  broken : Framing.readMessage octets = .error .lengthBeyondMemory ↔
    ∃ length, Framing.Announces octets length ∧ Framing.greatestBuffer < length
  bounded (length : Nat) : Framing.Announces octets length → length ≤ Framing.greatestLength
  told {actions : List Action} :
    (∀ length, Framing.Announces (Framing.readSome octets).2 length → length ≤ Framing.greatestBuffer) →
    actions.filter Action.isOfClient = Action.ofStream octets →
    timesTold host (initial host world) actions = 1 ∧ ∀ later : List Action,
      ((initial host world).run host actions).inbox.length ≤ later.countP Action.isHandle →
      (((initial host world).run host actions).run host later).ended = true
  untold {length : Nat} {actions : List Action} : Framing.Announces (Framing.readSome octets).2 length →
    Framing.greatestBuffer < length → actions.filter Action.isOfClient <+: Action.ofStream octets →
    timesTold host (initial host world) actions = 0 ∧ (((initial host world).run host actions).ended = true →
      ∃ request ∈ (Action.ofStream octets).filterMap Action.request?, verb? request = some .disconnect)

/-- The end of a stream is told to its session just if the reader returns: if what it stops at announces no length, or
one that a buffer can have. The headers let pass any length of 64 bits, and so some that break the reader. -/
theorem stream_end_told (host : Host ω) (world : ω) (octets : List UInt8) : StreamEnd host world octets where
  broken := Framing.readMessage_beyond_iff
  bounded _ announces := announces.bounded
  told {actions} fits all := by
    have returns : (Framing.readAll octets).2 ≠ some .lengthBeyondMemory := by
      intro broken
      obtain ⟨length, announces, beyond⟩ := Framing.readAll_beyond_iff.mp broken
      exact absurd (fits length announces) (Nat.not_le.mpr beyond)
    have once : actions.countP Action.isClientEnd = 1 := by
      rw [← countP_clientEnd, all, countP_ofStream, if_neg returns]
    constructor
    · rw [timesTold_eq, once]
      rfl
    · intro later enough
      have leaving := (leaving_told host (initial host world) (Nat.lt_of_lt_of_eq Nat.one_pos once.symm)).run host later
      rw [Nat.sub_eq_zero_of_le enough] at leaving
      exact leaving.finished
  untold {length _} announces beyond part :=
    untold_broken host world (Framing.readAll_beyond_iff.mpr ⟨length, announces, beyond⟩) part

/-- One more than any buffer holds passes for a length. The reader breaks down over it, and the session, which has been
asked nothing, is never over. -/
theorem stream_end_untold :
    let host := Surroundings.host "/" 1000
    let m := initial host ⟨⟨[], [], []⟩, none⟩
    let octets := Text.Utf8.encode "Content-Length: 9223372036854775808\r\n\r\n"
    Framing.Announces octets 9223372036854775808 ∧ Framing.greatestBuffer < 9223372036854775808 ∧
      Framing.readMessage octets = .error .lengthBeyondMemory ∧ ∀ actions : List Action,
        actions.filter Action.isOfClient = Action.ofStream octets →
        timesTold host m actions = 0 ∧ (m.run host actions).ended = false := by
  intro host m octets
  have dressed : octets = Text.Utf8.encodeChars (Dressing.plain.header 9223372036854775808) ++ [] := by
    decide +kernel
  have announces : Framing.Announces octets 9223372036854775808 := by
    rw [dressed]
    exact Framing.announces_dressed .plain (by decide) []
  have beyond : Framing.greatestBuffer < 9223372036854775808 := by decide
  have broken := Framing.readMessage_beyond_iff.mpr ⟨_, announces, beyond⟩
  have all := Framing.readAll_fault broken
  have nothing : Action.ofStream octets = [] := by
    rw [Action.ofStream, all]
    rfl
  refine ⟨announces, beyond, broken, fun actions brought => ?_⟩
  have part : actions.filter Action.isOfClient <+: Action.ofStream octets := brought ▸ List.prefix_refl _
  obtain ⟨untold, asked⟩ := untold_broken host ⟨⟨[], [], []⟩, none⟩ (by rw [all]) part
  refine ⟨untold, Bool.eq_false_of_not_eq_true fun finished => ?_⟩
  obtain ⟨request, member, -⟩ := asked finished
  rw [nothing] at member
  cases member

end Machine

end DebugBridge.Session
