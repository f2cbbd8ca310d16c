import DebugBridge.Session.Run
import Mathlib.Logic.Relation

/-! What happens in a session beside its conversation with the client: records are logged, lines arrive from
the engine, evaluations are issued and settled, files are looked up. None of it shows in what the client is
told, nor in what decides about the life of the session. -/

set_option autoImplicit false

namespace DebugBridge.Session

open Protocol

def Item.isReport : Item → Bool
  | .engineEvent _ | .lineConsumed => true
  | _ => false

def Item.report (line : String) : Item :=
  match Engine.Event.decode line with
  | .ok (.evaluated _ _) | .error _ => .lineConsumed
  | .ok event => .engineEvent event

theorem Item.isReport_report (line : String) : (report line).isReport = true := by
  unfold report
  split <;> rfl

def Item.isFarewell : Item → Bool
  | .engineClosed | .engineFailed _ => true
  | _ => false

def Item.isOfEngine (item : Item) : Bool := item.isReport || item.isFarewell

theorem Item.ofEngine_report {item : Item} (report : item.isReport = true) : item.isOfEngine = true := by
  rw [isOfEngine, report, Bool.true_or]

theorem Item.ofEngine_farewell {item : Item} (farewell : item.isFarewell = true) : item.isOfEngine = true := by
  rw [isOfEngine, farewell, Bool.or_true]

def Item.request? : Item → Option Request
  | .request asked => some asked
  | _ => none

def Happening.emitted? : Happening → Option Message
  | .emitted message => some message
  | _ => none

def Happening.sent? : Happening → Option Engine.Command
  | .sent command => some command
  | _ => none

def Happening.unwritten? : Happening → Option Engine.Command
  | .unwritten command => some command
  | _ => none

namespace Machine

variable {ω : Type}

def sent (m : Machine ω) : List Engine.Command := m.transcript.filterMap Happening.sent?

def unwritten (m : Machine ω) : List Engine.Command := m.transcript.filterMap Happening.unwritten?

def waiting (m : Machine ω) : List Request := m.inbox.filterMap Item.request?

/-- One thing beside the conversation. Of the commands only those it may send are sent, and only with a
connection; the reader reports only while there is one. -/
inductive Aside (may : Engine.Command → Prop) : Machine ω → Machine ω → Prop where
  | logged {m : Machine ω} (text : String) : Aside may m (m.post (.logLine text))
  | noted {m : Machine ω} {h : Happening} : h.emitted? = none → h.sent? = none → h.unwritten? = none →
      Aside may m (m.record h)
  | sent {m : Machine ω} {command : Engine.Command} : may command → m.state.connected = true →
      Aside may m (m.record (.sent command))
  | unwritten {m : Machine ω} {command : Engine.Command} : may command →
      Aside may m (m.record (.unwritten command))
  | evaluations {m : Machine ω} (correlator : Engine.Correlator) :
      Aside may m { m with state := { m.state with correlator := correlator } }
  | files {m : Machine ω} (cache : Scope.Cache) : Aside may m { m with state := { m.state with scopes := cache } }
  | surroundings {m : Machine ω} (world : ω) : Aside may m { m with world := world }
  | buffered {m : Machine ω} {buffer : Engine.LineBuffer} (later : Engine.LineBuffer) :
      m.reader = some buffer → Aside may m { m with reader := some later }
  | reported {m : Machine ω} {buffer : Engine.LineBuffer} {line : String} : m.reader = some buffer →
      Aside may m (m.post (.report line))
  | parted {m : Machine ω} {buffer : Engine.LineBuffer} {item : Item} : m.reader = some buffer →
      item.isFarewell = true → Aside may m ({ m with reader := none }.post item)

abbrev Background (may : Engine.Command → Prop) : Machine ω → Machine ω → Prop :=
  Relation.ReflTransGen (Aside may)

abbrev Quiet : Machine ω → Machine ω → Prop := Background fun _ => False

/-! ## What stays as it is -/

section

variable {may : Engine.Command → Prop} {m m' : Machine ω}

theorem Background.state (background : Background may m m') :
    m'.state = { m.state with correlator := m'.state.correlator, scopes := m'.state.scopes } := by
  induction background with
  | refl => rfl
  | tail _ aside ih => cases aside <;> (simp only [post, record]; rw [ih])

theorem Background.phase (background : Background may m m') : m'.state.phase = m.state.phase := by
  rw [background.state]

theorem Background.connected (background : Background may m m') : m'.state.connected = m.state.connected := by
  rw [background.state]

theorem Background.pendingLaunch (background : Background may m m') :
    m'.state.pendingLaunch = m.state.pendingLaunch := by
  rw [background.state]

theorem Background.configured (background : Background may m m') : m'.state.configured = m.state.configured := by
  rw [background.state]

theorem Background.breakpoints (background : Background may m m') :
    m'.state.breakpoints = m.state.breakpoints := by
  rw [background.state]

theorem Background.resolver (background : Background may m m') : m'.state.resolver = m.state.resolver := by
  rw [background.state]

theorem Background.stack (background : Background may m m') : m'.state.stack = m.state.stack := by
  rw [background.state]

theorem Background.windowStart (background : Background may m m') : m'.state.windowStart = m.state.windowStart := by
  rw [background.state]

theorem Background.pausePending (background : Background may m m') :
    m'.state.pausePending = m.state.pausePending := by
  rw [background.state]

theorem Background.nextSeq (background : Background may m m') : m'.nextSeq = m.nextSeq := by
  induction background with
  | refl => rfl
  | tail _ aside ih => cases aside <;> exact ih

theorem Background.ended (background : Background may m m') : m'.ended = m.ended := by
  induction background with
  | refl => rfl
  | tail _ aside ih => cases aside <;> exact ih

theorem emitted_record (m : Machine ω) (h : Happening) :
    (m.record h).emitted = m.emitted ++ h.emitted?.toList := by
  cases h <;> simp [emitted, record, Happening.emitted?]

theorem sent_record (m : Machine ω) (h : Happening) : (m.record h).sent = m.sent ++ h.sent?.toList := by
  cases h <;> simp [sent, record, Happening.sent?]

theorem unwritten_record (m : Machine ω) (h : Happening) :
    (m.record h).unwritten = m.unwritten ++ h.unwritten?.toList := by
  cases h <;> simp [unwritten, record, Happening.unwritten?]

theorem Background.emitted (background : Background may m m') : m'.emitted = m.emitted := by
  induction background with
  | refl => rfl
  | tail _ aside ih =>
    cases aside with
    | noted silent _ _ => rw [emitted_record, silent, ih]; simp
    | sent | unwritten => rw [emitted_record, ih]; simp [Happening.emitted?]
    | _ => exact ih

theorem Background.sent (background : Background may m m') :
    ∃ commands, m'.sent = m.sent ++ commands ∧ ∀ command ∈ commands, may command := by
  induction background with
  | refl => exact ⟨[], by simp⟩
  | tail _ aside ih =>
    obtain ⟨commands, same, allowed⟩ := ih
    cases aside with
    | noted _ silent _ => exact ⟨commands, by rw [sent_record, silent, same]; simp, allowed⟩
    | unwritten => exact ⟨commands, by rw [sent_record, same]; simp [Happening.sent?], allowed⟩
    | @sent command permitted _ =>
      refine ⟨commands ++ [command], by rw [sent_record, same]; simp [Happening.sent?], ?_⟩
      intro other member
      rcases List.mem_append.mp member with member | member
      · exact allowed other member
      · rw [List.mem_singleton.mp member]
        exact permitted
    | _ => exact ⟨commands, same, allowed⟩

theorem Quiet.sent (quiet : Quiet m m') : m'.sent = m.sent := by
  obtain ⟨commands, same, none⟩ := Background.sent quiet
  rw [same, List.eq_nil_iff_forall_not_mem.mpr none, List.append_nil]

theorem Quiet.unwritten (quiet : Quiet m m') : m'.unwritten = m.unwritten := by
  induction quiet with
  | refl => rfl
  | tail _ aside ih =>
    cases aside with
    | noted _ _ silent => rw [unwritten_record, silent, ih, Option.toList_none, List.append_nil]
    | sent never | unwritten never => exact never.elim
    | _ => exact ih

theorem waiting_post (m : Machine ω) (item : Item) : (m.post item).waiting = m.waiting ++ item.request?.toList := by
  cases item <;> simp [waiting, post, Item.request?]

theorem waiting_post_other {item : Item} (m : Machine ω) (other : item.request? = none) :
    (m.post item).waiting = m.waiting := by
  rw [waiting_post, other, Option.toList_none, List.append_nil]

theorem request?_report {item : Item} (report : item.isReport = true) : item.request? = none := by
  cases item <;> first | rfl | cases report

theorem request?_farewell {item : Item} (farewell : item.isFarewell = true) : item.request? = none := by
  cases item <;> first | rfl | cases farewell

theorem request?_unasked {item : Item} (unasked : ∀ request, item ≠ .request request) : item.request? = none := by
  cases item with
  | request request => exact absurd rfl (unasked request)
  | _ => rfl

theorem Background.waiting (background : Background may m m') : m'.waiting = m.waiting := by
  induction background with
  | refl => rfl
  | tail _ aside ih =>
    rw [← ih]
    cases aside with
    | logged text => exact waiting_post_other _ rfl
    | reported => exact waiting_post_other _ (request?_report (Item.isReport_report _))
    | parted _ farewell => exact waiting_post_other _ (request?_farewell farewell)
    | _ => rfl

theorem Aside.mono {also : Engine.Command → Prop} (aside : Aside may m m')
    (wider : ∀ command, may command → also command) : Aside also m m' := by
  cases aside with
  | logged text => exact .logged text
  | noted untold unsent unfailed => exact .noted untold unsent unfailed
  | sent permitted connected => exact .sent (wider _ permitted) connected
  | unwritten permitted => exact .unwritten (wider _ permitted)
  | evaluations correlator => exact .evaluations correlator
  | files cache => exact .files cache
  | surroundings world => exact .surroundings world
  | buffered later reading => exact .buffered later reading
  | reported reading => exact .reported reading
  | parted reading farewell => exact .parted reading farewell

theorem Background.mono {also : Engine.Command → Prop} (background : Background may m m')
    (wider : ∀ command, may command → also command) : Background also m m' := by
  induction background with
  | refl => exact .refl
  | tail _ aside ih => exact ih.tail (aside.mono wider)

theorem Quiet.background (quiet : Quiet m m') : Background may m m' :=
  Background.mono quiet fun _ => False.elim

end

/-! ## What happens beside the conversation -/

variable {may : Engine.Command → Prop}

theorem log_background (m : Machine ω) (level : Log.Level) (target message : String) :
    Background may m (m.log level target message) := by
  simp only [log, Log.forwarded]
  split
  · exact .single (.logged _)
  · rw [List.map_nil, List.append_nil]

theorem foldl_background {α : Type} {f : Machine ω → α → Machine ω} (each : ∀ m a, Background may m (f m a))
    (m : Machine ω) (items : List α) : Background may m (items.foldl f m) := by
  induction items generalizing m with
  | nil => exact .refl
  | cons item rest ih => exact (each m item).trans (ih (f m item))

theorem logWarnings_background (m : Machine ω) (line : String) : Background may m (m.logWarnings line) := by
  unfold logWarnings
  exact foldl_background (fun m fault => log_background m _ _ _) m _

@[simp] theorem reader_logWarnings (m : Machine ω) (line : String) : (m.logWarnings line).reader = m.reader := by
  unfold logWarnings
  induction Engine.Event.warnings line generalizing m with
  | nil => rfl
  | cons fault rest ih => exact ih _

theorem reader_receiveLine (m : Machine ω) (line : String) : (m.receiveLine line).reader = m.reader := by
  unfold receiveLine
  extract_lets heard
  have same : heard.reader = m.reader := reader_logWarnings _ line
  split
  · split <;> exact same
  · exact same
  · exact same

theorem receiveLine_background {m : Machine ω} {buffer : Engine.LineBuffer} (reading : m.reader = some buffer)
    (line : String) : Background may m (m.receiveLine line) := by
  unfold receiveLine
  extract_lets heard
  have before : Background may m heard :=
    (((Relation.ReflTransGen.single (.noted rfl rfl rfl)).trans (log_background _ _ _ _)).trans
      (logWarnings_background _ _))
  have reading : heard.reader = some buffer := (reader_logWarnings _ line).trans reading
  split
  · next decoded =>
    rw [show Item.lineConsumed = .report line by simp only [Item.report, decoded]]
    split
    · exact (before.tail (.evaluations _)).tail (.reported reading)
    · exact (before.trans (log_background _ _ _ _)).tail (.reported reading)
  · next event _ decoded =>
    rw [show Item.engineEvent event = .report line by simp only [Item.report, decoded]]
    exact before.tail (.reported reading)
  · next decoded =>
    rw [show Item.lineConsumed = .report line by simp only [Item.report, decoded]]
    exact (before.trans (log_background _ _ _ _)).tail (.reported reading)

theorem receiveChunk_background (m : Machine ω) (chunk : List UInt8) : Background may m (m.receiveChunk chunk) := by
  unfold receiveChunk
  split
  · exact .refl
  · next buffer reading =>
    refine (Relation.ReflTransGen.single (.buffered (buffer.push chunk).drain.2 reading)).trans ?_
    generalize (buffer.push chunk).drain = drained
    suffices ∀ (lines : List String) (m : Machine ω) (buffer : Engine.LineBuffer), m.reader = some buffer →
        Background may m (lines.foldl receiveLine m) from this drained.1 _ drained.2 rfl
    intro lines
    induction lines with
    | nil => exact fun _ _ _ => .refl
    | cons line rest ih =>
      intro m buffer reading
      exact (receiveLine_background reading line).trans (ih _ buffer ((reader_receiveLine m line).trans reading))

theorem receiveEnd_background (m : Machine ω) (ending : Engine.StreamEnd) :
    Background may m (m.receiveEnd ending) := by
  unfold receiveEnd
  split
  · exact .refl
  · exact .refl
  · next reading => exact .single (.parted reading rfl)
  · next reading => exact .single (.parted reading rfl)

theorem receive_background (m : Machine ω) (incoming : Engine.Incoming) : Background may m (m.receive incoming) :=
  (foldl_background receiveChunk_background m incoming.chunks).trans (receiveEnd_background _ _)

/-! ## Sending -/

/-- Hand a command to the connection, which may fail to take it. -/
def handOver (m : Machine ω) (command : Engine.Command) (written : Bool) : Machine ω :=
  { m with transcript := m.transcript ++ .sent command :: if written then [] else [.unwritten command] }

theorem handOver_unwritten (m : Machine ω) (command : Engine.Command) :
    m.handOver command false = (m.record (.sent command)).record (.unwritten command) := by
  simp [handOver, record]

theorem handOver_background (m : Machine ω) {command : Engine.Command} (permitted : may command)
    (connected : m.state.connected = true) (written : Bool) : Background may m (m.handOver command written) := by
  have sent : Background may m (m.record (.sent command)) := .single (.sent permitted connected)
  cases written with
  | true => exact sent
  | false =>
    rw [handOver_unwritten]
    exact sent.tail (.unwritten permitted)

theorem sent_handOver (m : Machine ω) (command : Engine.Command) (written : Bool) :
    (m.handOver command written).sent = m.sent ++ [command] := by
  cases written <;> simp [handOver, sent, Happening.sent?]

theorem unwritten_handOver (m : Machine ω) (command : Engine.Command) (written : Bool) :
    (m.handOver command written).unwritten = m.unwritten ++ if written then [] else [command] := by
  cases written <;> exact List.filterMap_append

theorem emitted_handOver (m : Machine ω) (command : Engine.Command) (written : Bool) :
    (m.handOver command written).emitted = m.emitted := by
  cases written <;> simp [handOver, emitted]

/-- With a connection a command is handed over, and all that follows is what the engine has to say to it. -/
theorem send_connected (host : Host ω) {m : Machine ω} (connected : m.state.connected = true)
    (command : Engine.Command) :
    (m.send host command).1 = .ok () ∧ Quiet (m.handOver command true) (m.send host command).2 ∨
      (∃ reason, (m.send host command).1 = .error (.notWritten reason)) ∧
        Quiet (m.handOver command false) (m.send host command).2 := by
  unfold send
  rw [if_pos connected]
  extract_lets logged
  -- logging and recording do not depend on each other
  have same : logged = (m.handOver command true).log .debug "remote" ("-> " ++ command.line) := rfl
  split
  · next incoming world _ =>
    refine .inl ⟨rfl, ?_⟩
    rw [same]
    exact ((log_background _ _ _ _).tail (.surroundings world)).trans (receive_background _ _)
  · next reason world _ =>
    refine .inr ⟨⟨reason, rfl⟩, ?_⟩
    have noted : ({ logged with world := world } : Machine ω).record (.unwritten command) =
        { (m.handOver command false).log .debug "remote" ("-> " ++ command.line) with world := world } := by
      rw [handOver_unwritten]
      rfl
    rw [noted]
    exact (log_background _ _ _ _).tail (.surroundings world)

theorem send_unconnected (host : Host ω) {m : Machine ω} (unconnected : m.state.connected = false)
    (command : Engine.Command) : m.send host command = (.error .notConnected, m) := by
  simp [send, unconnected]

theorem send_handOver (host : Host ω) {m : Machine ω} (connected : m.state.connected = true)
    (command : Engine.Command) : ∃ written, Quiet (m.handOver command written) (m.send host command).2 := by
  rcases send_connected host connected command with ⟨-, quiet⟩ | ⟨-, quiet⟩ <;> exact ⟨_, quiet⟩

theorem send_background (host : Host ω) (m : Machine ω) {command : Engine.Command} (permitted : may command) :
    Background may m (m.send host command).2 := by
  cases connected : m.state.connected with
  | true =>
    obtain ⟨written, quiet⟩ := send_handOver host connected command
    exact (handOver_background m permitted connected written).trans quiet.background
  | false => rw [send_unconnected host connected]

theorem send_sent (host : Host ω) (m : Machine ω) (command : Engine.Command) :
    (m.send host command).2.sent = m.sent ++ if m.state.connected then [command] else [] := by
  cases connected : m.state.connected with
  | true =>
    obtain ⟨written, quiet⟩ := send_handOver host connected command
    rw [quiet.sent, sent_handOver]
    rfl
  | false => rw [send_unconnected host connected]; simp

theorem sendAnyway_quiet (host : Host ω) (m : Machine ω) (command : Engine.Command) :
    Quiet (m.send host command).2 (m.sendAnyway host command) := by
  unfold sendAnyway
  split
  · next done same => rw [same]
  · next fault done same =>
    rw [same]
    exact log_background _ _ _ _

theorem sendAnyway_connected (host : Host ω) {m : Machine ω} (connected : m.state.connected = true)
    (command : Engine.Command) : ∃ written, Quiet (m.handOver command written) (m.sendAnyway host command) := by
  obtain ⟨written, quiet⟩ := send_handOver host connected command
  exact ⟨written, quiet.trans (sendAnyway_quiet host m command)⟩

theorem sendAnyway_background (host : Host ω) (m : Machine ω) {command : Engine.Command}
    (permitted : may command) : Background may m (m.sendAnyway host command) :=
  (send_background host m permitted).trans (sendAnyway_quiet host m command).background

theorem sendAnyway_sent (host : Host ω) (m : Machine ω) (command : Engine.Command) :
    (m.sendAnyway host command).sent = m.sent ++ if m.state.connected then [command] else [] := by
  rw [(sendAnyway_quiet host m command).sent, send_sent]

theorem sendAll_background (host : Host ω) (m : Machine ω) {commands : List Engine.Command}
    (permitted : ∀ command ∈ commands, may command) :
    Background may m (commands.foldl (fun m command => m.sendAnyway host command) m) := by
  induction commands generalizing m with
  | nil => exact .refl
  | cons command rest ih =>
    exact (sendAnyway_background host m (permitted command List.mem_cons_self)).trans
      (ih _ fun other member => permitted other (List.mem_cons_of_mem _ member))

theorem sendAll_sent (host : Host ω) (m : Machine ω) (commands : List Engine.Command) :
    (commands.foldl (fun m command => m.sendAnyway host command) m).sent =
      m.sent ++ if m.state.connected then commands else [] := by
  induction commands generalizing m with
  | nil => simp
  | cons command rest ih =>
    have first : Background (fun _ => True) m (m.sendAnyway host command) := sendAnyway_background host m trivial
    rw [List.foldl_cons, ih, first.connected, sendAnyway_sent]
    split <;> simp

/-! ## Evaluations -/

section

variable (asking : ∀ tag frame expression, may (.evaluate tag frame expression)) (host : Host ω)
include asking

theorem evaluate_background (m : Machine ω) (frame : Nat) (expression : String) :
    Background may m (m.evaluate host frame expression).2 := by
  unfold evaluate
  split
  next tag correlator _ =>
  extract_lets _ registered
  have before : Background may m registered := .single (.evaluations correlator)
  have after := before.trans (send_background host registered (asking tag frame expression))
  split
  · next m sent => rwa [sent] at after
  · next m sent =>
    rw [sent] at after
    exact (after.trans (log_background _ _ _ _)).tail (.evaluations _)

omit asking in
theorem settle_background (m : Machine ω) (tag : UInt64) : Background may m (m.settle tag).2 := by
  unfold settle
  exact (Relation.ReflTransGen.single (.evaluations _)).tail (.noted rfl rfl rfl)

omit asking in
theorem await_background (m : Machine ω) (tag : UInt64) : Background may m (m.await host tag).2 := by
  unfold await
  split
  · split
    next incoming world _ =>
    have after : Background may m (({ m with world := world }.receive incoming).settle tag).2 :=
      ((Relation.ReflTransGen.single (.surroundings world)).trans (receive_background _ _)).trans
        (settle_background _ _)
    split
    · next answer m settled => rwa [settled] at after
    · next m settled =>
      rw [settled] at after
      exact after.trans (log_background _ _ _ _)
  · exact settle_background m tag

theorem evaluateAll_background (m : Machine ω) (frame : Nat) (names : List String) :
    Background may m (m.evaluateAll host frame names).2 := by
  induction names generalizing m with
  | nil => exact .refl
  | cons name rest ih => exact (evaluate_background asking host m frame name).trans (ih _)

omit asking in
theorem awaitAll_background (m : Machine ω) (tags : List UInt64) : Background may m (m.awaitAll host tags).2 := by
  induction tags generalizing m with
  | nil => exact .refl
  | cons tag rest ih => exact (await_background host m tag).trans (ih _)

theorem fetch_background (m : Machine ω) (frame : Nat) (names : List String) :
    Background may m (m.fetch host frame names).2 := by
  fun_induction fetch host m frame names with
  | case1 => exact .refl
  | case2 m names _ tags asked evaluated answers heard awaited more last fetched ih =>
    have first := evaluateAll_background asking host m frame (names.take evaluationsInFlight)
    have second : Background may asked (asked.awaitAll host tags).2 := awaitAll_background host asked tags
    rw [evaluated] at first
    rw [awaited] at second
    rw [fetched] at ih
    exact (first.trans second).trans ih

omit asking in
theorem namesIn_background (m : Machine ω) (frame : Engine.Frame) (kind : ScopeKind) :
    Background may m (m.namesIn host frame kind).2 := by
  unfold namesIn
  extract_lets path
  split
  next finding cache _ =>
  extract_lets looked
  have after : Background may m looked := by
    refine (Relation.ReflTransGen.single (.files cache)).trans ?_
    cases finding with
    | known scopes => exact .refl
    | parsed scopes | unreadable fault => exact log_background _ _ _ _
    | unparsable fault => exact (log_background _ _ _ _).trans (log_background _ _ _ _)
  split <;> exact after

end

end Machine

end DebugBridge.Session
