import DebugBridge.Proofs.Engine.Correlation
import DebugBridge.Proofs.Engine.Handshake
import DebugBridge.Proofs.Session.Link
import DebugBridge.Session.Connection

/-! What the engine sends arrives in the session line by line, from the first line after its answer to the
password to the end of its stream. -/

set_option autoImplicit false

namespace DebugBridge.Session

open Engine (Event LineBuffer)
open Engine.Handshake (Unanswered)

theorem Item.ofEngine_of_report (line : String) : (report line).isOfEngine = true :=
  ofEngine_report (isReport_report line)

namespace Machine

variable {ω : Type}

def resolvedBy (c : Engine.Correlator) (line : String) : Engine.Correlator :=
  match Event.decode line with
  | .ok (.evaluated tag value) => (c.resolve tag value).2
  | _ => c

/-- From one state to another some lines are taken in, one after another. Each is reported once. -/
structure TakesIn (m : Machine ω) (lines : List String) (m' : Machine ω) : Prop where
  reported : m'.fromEngine = m.fromEngine ++ lines.map Item.report
  resolved : m'.state.correlator = lines.foldl resolvedBy m.state.correlator

variable {m m' m'' : Machine ω}

theorem TakesIn.still (inbox : m'.inbox = m.inbox) (correlator : m'.state.correlator = m.state.correlator) :
    TakesIn m [] m' :=
  ⟨by rw [fromEngine, inbox, fromEngine, List.map_nil, List.append_nil], correlator⟩

theorem TakesIn.refl (m : Machine ω) : TakesIn m [] m := .still rfl rfl

theorem TakesIn.trans {lines later : List String} (first : TakesIn m lines m') (second : TakesIn m' later m'') :
    TakesIn m (lines ++ later) m'' :=
  ⟨by rw [second.reported, first.reported, List.map_append, List.append_assoc],
    by rw [second.resolved, first.resolved, List.foldl_append]⟩

theorem TakesIn.after {lines : List String} (taken : TakesIn m' lines m'') (before : TakesIn m [] m') :
    TakesIn m lines m'' :=
  before.trans taken

theorem TakesIn.nothing (quiet : TakesIn m [] m') :
    m'.fromEngine = m.fromEngine ∧ m'.state.correlator = m.state.correlator :=
  ⟨quiet.reported.trans (List.append_nil _), quiet.resolved⟩

theorem takesIn_post {item : Item} (m : Machine ω) (other : item.isOfEngine = false) : TakesIn m [] (m.post item) :=
  ⟨by rw [fromEngine_post_other m other, List.map_nil, List.append_nil], rfl⟩

theorem takesIn_log (m : Machine ω) (level : Log.Level) (target message : String) :
    TakesIn m [] (m.log level target message) := by
  simp only [log, Log.forwarded]
  split
  · exact takesIn_post m rfl
  · rw [List.map_nil, List.append_nil]
    exact .refl m

theorem foldl_takesIn {α : Type} {f : Machine ω → α → Machine ω} {line : α → List String}
    (each : ∀ m a, TakesIn m (line a) (f m a)) (m : Machine ω) (items : List α) :
    TakesIn m (items.flatMap line) (items.foldl f m) := by
  induction items generalizing m with
  | nil => exact .refl m
  | cons item rest ih => exact (each m item).trans (ih (f m item))

theorem foldl_takesIn_nil {α : Type} {f : Machine ω → α → Machine ω} (each : ∀ m a, TakesIn m [] (f m a))
    (m : Machine ω) (items : List α) : TakesIn m [] (items.foldl f m) := by
  have all := foldl_takesIn each m items
  rwa [List.flatMap_eq_nil_iff.mpr fun _ _ => rfl] at all

theorem takesIn_logWarnings (m : Machine ω) (line : String) : TakesIn m [] (m.logWarnings line) :=
  foldl_takesIn_nil (fun m _ => takesIn_log m _ _ _) m _

theorem takesIn_logIgnored (m : Machine ω) (line : String) : TakesIn m [] (m.logIgnored line) :=
  (takesIn_logWarnings m line).trans (takesIn_log _ _ _ _)

theorem world_logIgnored (m : Machine ω) (lines : List String) :
    (lines.foldl logIgnored m).world = m.world := by
  have warned (m : Machine ω) (line : String) : (m.logIgnored line).world = m.world := by
    rw [logIgnored, log, logWarnings]
    induction Event.warnings line generalizing m with
    | nil => rfl
    | cons fault rest ih => exact ih _
  induction lines generalizing m with
  | nil => rfl
  | cons line rest ih => exact (ih _).trans (warned m line)

/-! ## Lines -/

theorem takesIn_report {line : String} {item : Item} (same : m'.fromEngine = m.fromEngine)
    (report : Item.report line = item) (resolved : m'.state.correlator = resolvedBy m.state.correlator line) :
    TakesIn m [line] (m'.post item) := by
  refine ⟨?_, resolved⟩
  rw [← report, fromEngine_post m' (Item.ofEngine_of_report line), same]
  rfl

theorem takesIn_receiveLine (m : Machine ω) (line : String) : TakesIn m [line] (m.receiveLine line) := by
  unfold receiveLine
  extract_lets heard
  have arrived : TakesIn m [] (m.record (.arrived line)) := .still rfl rfl
  have before : TakesIn m [] heard := ((takesIn_logWarnings _ _).after (takesIn_log _ _ _ _)).after arrived
  split
  · next tag value decoded =>
    have report : Item.report line = .lineConsumed := by simp [Item.report, decoded]
    have resolves (c : Engine.Correlator) : resolvedBy c line = (c.resolve tag value).2 := by simp [resolvedBy, decoded]
    split
    · next c resolved =>
      refine (takesIn_report (m := heard) ?_ report ?_).after before
      · rfl
      · rw [resolves, resolved]
    · next c unknown =>
      refine (takesIn_report (takesIn_log heard _ _ _).nothing.1 report ?_).after before
      rw [resolves, Engine.Correlator.resolve_ignored (congrArg Prod.fst unknown)]
      rfl
  · next event other decoded =>
    have report : Item.report line = .engineEvent event := by simp only [Item.report, decoded]
    have unresolved : resolvedBy heard.state.correlator line = heard.state.correlator := by
      rw [resolvedBy, decoded]
      split
      · next tag value same => exact absurd (Except.ok.inj same) (other tag value)
      · rfl
    exact (takesIn_report rfl report unresolved.symm).after before
  · next fault decoded =>
    have report : Item.report line = .lineConsumed := by simp [Item.report, decoded]
    refine (takesIn_report (takesIn_log heard _ _ _).nothing.1 report ?_).after before
    simp [resolvedBy, decoded, log]

theorem takesIn_receiveLines (m : Machine ω) (lines : List String) :
    TakesIn m lines (lines.foldl receiveLine m) := by
  have all := foldl_takesIn takesIn_receiveLine m lines
  rwa [List.flatMap_singleton'] at all

theorem reader_receiveLines (m : Machine ω) (lines : List String) :
    (lines.foldl receiveLine m).reader = m.reader := by
  induction lines generalizing m with
  | nil => rfl
  | cons line rest ih => exact (ih _).trans (reader_receiveLine m line)

/-! ## Octets -/

theorem takesIn_receiveChunk {buffer : LineBuffer} (reading : m.reader = some buffer) (chunk : List UInt8) :
    TakesIn m (buffer.push chunk).drain.1 (m.receiveChunk chunk) ∧
      (m.receiveChunk chunk).reader = some (buffer.push chunk).drain.2 := by
  simp only [receiveChunk, reading]
  exact ⟨(takesIn_receiveLines _ _).after (.still rfl rfl), reader_receiveLines _ _⟩

theorem takesIn_receiveChunks {buffer : LineBuffer} (reading : m.reader = some buffer)
    (drained : buffer.drain = ([], buffer)) (chunks : List (List UInt8)) :
    TakesIn m (buffer.push chunks.flatten).drain.1 (chunks.foldl receiveChunk m) ∧
      (chunks.foldl receiveChunk m).reader = some (buffer.push chunks.flatten).drain.2 := by
  induction chunks generalizing m buffer with
  | nil =>
    rw [List.flatten_nil, LineBuffer.push_nil, drained]
    exact ⟨.refl m, reading⟩
  | cons chunk later ih =>
    obtain ⟨first, reading⟩ := takesIn_receiveChunk reading chunk
    obtain ⟨second, reading⟩ := ih reading (LineBuffer.drain_drain _)
    rw [List.flatten_cons, ← LineBuffer.push_push, LineBuffer.drain_push]
    exact ⟨first.trans second, reading⟩

theorem receive_unread (idle : m.reader = none) (incoming : Engine.Incoming) : m.receive incoming = m := by
  have none (chunks : List (List UInt8)) : chunks.foldl receiveChunk m = m := by
    induction chunks with
    | nil => rfl
    | cons chunk later ih => rw [List.foldl_cons, receiveChunk, idle]; exact ih
  rw [receive, none, receiveEnd]
  simp only [idle]

theorem takesIn_sendAnyway_unread (host : Host ω) (idle : m.reader = none) (command : Engine.Command) :
    TakesIn m [] (m.sendAnyway host command) ∧ (m.sendAnyway host command).reader = none := by
  unfold sendAnyway send
  split
  · next after sent =>
    split at sent
    · extract_lets logged at sent
      split at sent
      · cases sent
        rw [receive_unread (by exact idle)]
        exact ⟨(takesIn_log m .debug "remote" ("-> " ++ command.line)).trans (.still rfl rfl), idle⟩
      · cases sent
    · cases sent
  · next fault after sent =>
    have before : TakesIn m [] after ∧ after.reader = none := by
      split at sent
      · extract_lets logged at sent
        split at sent
        · cases sent
        · cases sent
          exact ⟨(takesIn_log m .debug "remote" ("-> " ++ command.line)).trans (.still rfl rfl), idle⟩
      · cases sent
        exact ⟨.refl m, idle⟩
    exact ⟨(takesIn_log _ _ _ _).after before.1, before.2⟩

theorem takesIn_sendAll_unread (host : Host ω) (idle : m.reader = none) (commands : List Engine.Command) :
    TakesIn m [] (commands.foldl (fun m command => m.sendAnyway host command) m) := by
  induction commands generalizing m with
  | nil => exact .refl m
  | cons command rest ih =>
    obtain ⟨first, idle⟩ := takesIn_sendAnyway_unread host idle command
    exact (ih idle).after first

/-! ## Streams -/

/-- A stream to its end: every line is reported, and then that there is nothing more. -/
structure TakesInAll (m : Machine ω) (lines : List String) (m' : Machine ω) : Prop where
  reported : m'.fromEngine = m.fromEngine ++ lines.map Item.report ++ [.engineClosed]
  resolved : m'.state.correlator = lines.foldl resolvedBy m.state.correlator

theorem TakesInAll.trans {lines : List String} (all : TakesInAll m lines m') (quiet : TakesIn m' [] m'') :
    TakesInAll m lines m'' :=
  ⟨quiet.nothing.1.trans all.reported, quiet.nothing.2.trans all.resolved⟩

theorem takesInAll_receive {buffer : LineBuffer} (reading : m.reader = some buffer)
    (later : List (List UInt8)) :
    TakesInAll m (buffer.push later.flatten).drain.1 ((m.receiveChunk []).receive ⟨later, .closed⟩) ∧
      ((m.receiveChunk []).receive ⟨later, .closed⟩).reader = none := by
  obtain ⟨first, reading⟩ := takesIn_receiveChunk reading []
  rw [LineBuffer.push_nil] at first reading
  obtain ⟨second, reading⟩ := takesIn_receiveChunks reading (LineBuffer.drain_drain buffer) later
  have lines := first.trans second
  rw [LineBuffer.drain_push, receive]
  simp only [receiveEnd, reading]
  exact ⟨⟨by rw [fromEngine_post _ rfl, ← lines.reported]; rfl, lines.resolved⟩, rfl⟩

theorem TakesInAll.after {lines : List String} (all : TakesInAll m' lines m'') (quiet : TakesIn m [] m') :
    TakesInAll m lines m'' :=
  ⟨by rw [all.reported, quiet.nothing.1], by rw [all.resolved, quiet.nothing.2]⟩

/-- Once the connection is read, nothing that came with the answer to the password or after it is lost. -/
theorem takesInAll_connected (host : Host ω) (m : Machine ω) (buffer : LineBuffer) (later : List (List UInt8)) :
    TakesInAll m (buffer.push later.flatten).drain.1 (m.connected host buffer ⟨later, .closed⟩) := by
  unfold connected
  extract_lets _ reading received
  have attached : reading.reader = some buffer := rfl
  obtain ⟨all, idle⟩ := takesInAll_receive attached later
  exact (all.trans (takesIn_sendAll_unread host idle _)).after (.still rfl rfl)

theorem takesInAll_authenticated (host : Host ω) (m : Machine ω) {started : ω}
    (starts : host.startReader m.world = (.ok (), started)) (token : String) (buffer : LineBuffer)
    (later : List (List UInt8)) :
    (m.authenticated host token buffer ⟨later, .closed⟩).1 = .ok () ∧
      TakesInAll m (buffer.push later.flatten).drain.1 (m.authenticated host token buffer ⟨later, .closed⟩).2 := by
  unfold authenticated
  extract_lets logged
  have starts : host.startReader logged.world = (.ok (), started) := starts
  have before : TakesIn m [] { logged with world := started } :=
    TakesIn.after (.still (m := logged) rfl rfl) (takesIn_log m _ _ _)
  simp only [starts]
  exact ⟨trivial, (takesInAll_connected host _ buffer later).after before⟩

section

variable (host : Host ω) (m : Machine ω) (arguments : Protocol.LaunchArguments) {address : String}
variable {reached heard : ω} {chunks : List (List UInt8)}
variable (dialled : host.dial m.world arguments.address arguments.port = (.ok address, reached))
variable (told : host.tell reached (arguments.password ++ "\n") = (.ok ⟨chunks, .closed⟩, heard))

include dialled told

theorem connect_told {ignored : List String} {outcome : Engine.Handshake.Outcome}
    (ran : Engine.Handshake.run .empty chunks .closed = (ignored, outcome)) :
    ∃ greeted : Machine ω, TakesIn m [] greeted ∧ greeted.world = heard ∧
      m.connect host arguments =
        match outcome with
        | .accepted token buffer later => greeted.authenticated host token buffer ⟨later, .closed⟩
        | .wrongPassword => (.error .wrongPassword, greeted)
        | .ended ending => (.error (.ofStreamEnd host.connectTimeout ending), greeted) := by
  let reaching := { m with world := reached }.log .info "remote" ("connected to " ++ address)
  let greeting := reaching.record (.greeted arguments.password)
  have before : TakesIn m [] reaching :=
    TakesIn.trans (.still rfl rfl : TakesIn m [] { m with world := reached }) (takesIn_log _ _ _ _)
  have told : host.tell greeting.world (arguments.password ++ "\n") = (.ok ⟨chunks, .closed⟩, heard) := told
  refine ⟨ignored.foldl logIgnored { greeting with world := heard }, ?_, world_logIgnored _ _, ?_⟩
  · refine (foldl_takesIn_nil takesIn_logIgnored _ ignored).after ?_
    exact before.trans (.still rfl rfl)
  · rw [connect, dialled]
    simp only [greeting, reaching] at told
    simp only [told, ran]
    cases outcome <;> rfl

/-- What the handshake and the reader make of a stream depends on its lines alone. -/
theorem connect_stream :
    (∃ lines rest, LineBuffer.Divides chunks.flatten lines rest) ∧
      ∀ lines rest, LineBuffer.Divides chunks.flatten lines rest →
        let texts := lines.map Text.Utf8.decodeLossy
        let made := m.connect host arguments
        (Unanswered texts → made.1 = .error .closed ∧ TakesIn m [] made.2) ∧
        ∀ before answer after token, texts = before ++ answer :: after → Unanswered before →
          Event.token? answer = some token →
          (Engine.Refusing token → made.1 = .error .wrongPassword ∧ TakesIn m [] made.2) ∧
          (¬ Engine.Refusing token → (host.startReader heard).1 = .ok () →
            made.1 = .ok () ∧ TakesInAll m after made.2) := by
  refine ⟨LineBuffer.exists_divides _, fun lines rest divides => ?_⟩
  intro texts made
  have drained : (LineBuffer.empty.push chunks.flatten).drain = (texts, ⟨rest⟩) := divides.drain
  refine ⟨fun unanswered => ?_, fun before answer after token same unanswered answered => ?_⟩
  · have none : Unanswered (LineBuffer.empty.push chunks.flatten).drain.1 := by rwa [drained]
    have ran := Engine.Handshake.run_unanswered .closed none
    obtain ⟨greeted, quiet, -, connected⟩ := connect_told host m arguments dialled told ran
    simp only [made, connected]
    exact ⟨rfl, quiet⟩
  · have lines : (LineBuffer.empty.push chunks.flatten).drain.1 = before ++ answer :: after := by rw [drained, same]
    obtain ⟨left, later, ran, all⟩ := Engine.Handshake.run_answered .closed lines unanswered answered
    rw [← Engine.isWrongPassword_iff]
    constructor
    · intro wrong
      rw [if_pos wrong] at ran
      obtain ⟨greeted, quiet, -, connected⟩ := connect_told host m arguments dialled told ran
      simp only [made, connected]
      exact ⟨trivial, quiet⟩
    · intro right starts
      rw [if_neg right] at ran
      obtain ⟨greeted, quiet, world, connected⟩ := connect_told host m arguments dialled told ran
      -- whether the reader starts is asked of the surroundings as they are once the password is accepted
      have started : host.startReader greeted.world = (.ok (), (host.startReader heard).2) := by
        rw [world, ← starts]
      obtain ⟨done, taken⟩ := takesInAll_authenticated host greeted started token left later
      rw [all] at taken
      simp only [made, connected]
      exact ⟨done, taken.after quiet⟩

end

/-- An engine that sends these pieces of a stream when it is told the password, and then closes it. -/
def playing (chunks : List String) : Host Unit :=
  { dial := fun world _ _ => (.ok "127.0.0.1:2000", world)
    tell := fun world _ => (.ok ⟨chunks.map Text.Utf8.encode, .closed⟩, world)
    startReader := fun world => (.ok (), world)
    linger := fun world => (.nothing, world)
    read := fun _ _ => .error .notFound
    workingFolder := fun _ => .ok "/"
    connectTimeout := 1000 }

theorem connect_stream_scattered :
    let host := playing
      ["1.2\r\n\r\nPA", "SS Connected.\r", "\nRUNNING\r\nEVAL", "OUT 0 \r a", "\r\n\r\nPASS x\r\nCOUT"]
    let made := (initial host ()).connect host ⟨"localhost", 2000, "", none, false, none⟩
    made.1 = .ok () ∧ TakesInAll (initial host ()) ["RUNNING", "EVALOUT 0 \r a", "", "PASS x"] made.2 := by
  intro host made
  have taken := (connect_stream host (initial host ()) ⟨"localhost", 2000, "", none, false, none⟩ rfl rfl).2
    (["1.2", "", "PASS Connected.", "RUNNING", "EVALOUT 0 \r a", "", "PASS x"].map Text.Utf8.encode)
    (Text.Utf8.encode "COUT") ⟨by decide +kernel, by decide +kernel, by decide +kernel⟩
  refine (taken.2 ["1.2", ""] "PASS Connected." _ "Connected." (by decide +kernel) ?_ (by decide +kernel)).2 ?_ rfl
  · rw [Unanswered]
    decide +kernel
  · rw [← Engine.isWrongPassword_iff]
    decide +kernel

end Machine

end DebugBridge.Session
