import DebugBridge.Proofs.Json.Reading
import DebugBridge.Protocol.Envelope
import DebugBridge.Protocol.Framing

/-! Messages are read back as they were written, also where a peer adds headers, blank lines, or ends its lines
with a line feed alone. -/

set_option autoImplicit false

namespace DebugBridge.Protocol

open Text.Decimal (digits showNat)
open Text.Utf8 (encode encodeChars)

/-! ## What a peer may write -/

inductive LineEnd where
  | crlf
  | lf

def LineEnd.text : LineEnd → List Char
  | .crlf => ['\r', '\n']
  | .lf => ['\n']

structure OtherHeader where
  text : String
  nonempty : text ≠ ""
  noReturn : '\r' ∉ text.toList
  noLineFeed : '\n' ∉ text.toList
  other : ¬ Framing.lengthHeader <+: text.toList

structure Dressing where
  blanks : List LineEnd
  before : List (OtherHeader × LineEnd)
  lengthEnd : LineEnd
  after : List (OtherHeader × LineEnd)
  closing : LineEnd

namespace Dressing

def plain : Dressing := ⟨[], [], .crlf, [], .crlf⟩

def headerLines (headers : List (OtherHeader × LineEnd)) : List Char :=
  headers.flatMap fun (header, ending) => header.text.toList ++ ending.text

def lengthLine (length : Nat) : List Char := Framing.lengthHeader ++ ' ' :: digits length

def header (d : Dressing) (length : Nat) : List Char :=
  d.blanks.flatMap LineEnd.text ++ (headerLines d.before ++ (lengthLine length ++ d.lengthEnd.text ++
    (headerLines d.after ++ d.closing.text)))

def message (d : Dressing) (body : String) : List UInt8 :=
  encodeChars (d.header (encode body).length) ++ encode body

theorem header_plain (length : Nat) : plain.header length = lengthLine length ++ "\r\n\r\n".toList := by
  simp [header, plain, headerLines, LineEnd.text]

theorem message_plain (body : String) : plain.message body = encode (framed body) := by
  have front : "Content-Length: ".toList = Framing.lengthHeader ++ [' '] := by decide
  have whole : (framed body).toList = lengthLine (encode body).length ++ "\r\n\r\n".toList ++ body.toList := by
    unfold framed
    rw [String.toList_append, String.toList_append, String.toList_append, front, showNat, String.toList_ofList,
      List.append_assoc Framing.lengthHeader]
    rfl
  have octets : encode (framed body) = encodeChars (framed body).toList := rfl
  rw [message, header_plain, octets, whole, Text.Utf8.encodeChars_append _ body.toList]
  rfl

end Dressing

namespace Framing

/-! ## Lines -/

theorem isLineEnd_of_not_mem {text : List Char} (noReturn : '\r' ∉ text) (noLineFeed : '\n' ∉ text) :
    ∀ c ∈ text, isLineEnd c = false := by
  intro c member
  have other : c ≠ '\r' := fun same => noReturn (same ▸ member)
  have other' : c ≠ '\n' := fun same => noLineFeed (same ▸ member)
  simp [isLineEnd, other, other']

theorem splitLine_front {front : List UInt8} (unbroken : 0x0A ∉ front) (after : List UInt8) :
    splitLine (front ++ 0x0A :: after) = (front ++ [0x0A], after) := by
  induction front with
  | nil => rfl
  | cons octet front ih =>
    rw [List.mem_cons, not_or] at unbroken
    simp only [List.cons_append, splitLine, if_neg (Ne.symm unbroken.1), ih unbroken.2]

theorem lineFeed_not_mem {text : List Char} (oneLine : ∀ c ∈ text, isLineEnd c = false) :
    0x0A ∉ encodeChars text := by
  intro member
  have character : '\n' ∈ text := (Text.Utf8.octet_mem_encodeChars (by decide) text).mp member
  cases oneLine '\n' character

theorem splitLine_line {text : List Char} (oneLine : ∀ c ∈ text, isLineEnd c = false) (ending : LineEnd)
    (after : List UInt8) :
    splitLine (encodeChars (text ++ ending.text) ++ after) = (encodeChars (text ++ ending.text), after) := by
  have absent := lineFeed_not_mem oneLine
  rw [Text.Utf8.encodeChars_append, List.append_assoc]
  cases ending with
  | lf => exact splitLine_front absent after
  | crlf =>
    have front : 0x0A ∉ encodeChars text ++ [0x0D] := by simp [absent]
    have split := splitLine_front front after
    rw [List.append_assoc, List.append_assoc] at split
    exact split

theorem readHeader_line {text : List Char} (oneLine : ∀ c ∈ text, isLineEnd c = false) (ending : LineEnd)
    (header : Header) (after : List UInt8) :
    readHeader header (encodeChars (text ++ ending.text) ++ after) =
      if text.isEmpty then
        if header.begun then .ok (some (header.length, after)) else readHeader header after
      else
        match announcedLength text with
        | .error fault => .error fault
        | .ok announced => readHeader ⟨true, announced.or header.length⟩ after := by
  have split := splitLine_line oneLine ending after
  have content : Text.dropEndWhile isLineEnd (text ++ ending.text) = text :=
    Text.dropEndWhile_append oneLine (by cases ending <;> simp [LineEnd.text, isLineEnd])
  obtain ⟨octet, rest, octets⟩ : ∃ octet rest, encodeChars (text ++ ending.text) ++ after = octet :: rest := by
    apply List.exists_cons_of_ne_nil
    rw [Ne, List.append_eq_nil_iff, not_and]
    intro nothing
    have nothing := Text.Utf8.encodeChars_eq_nil nothing
    cases ending <;> simp [LineEnd.text] at nothing
  rw [octets] at split ⊢
  cases announced : announcedLength text <;>
    simp only [readHeader, split, Text.Utf8.decode?_encodeChars, String.toList_ofList, content, announced]

theorem readHeader_blank (ending : LineEnd) (header : Header) (after : List UInt8) :
    readHeader header (encodeChars ending.text ++ after) =
      if header.begun then .ok (some (header.length, after)) else readHeader header after :=
  readHeader_line (List.forall_mem_nil _) ending header after

theorem readHeader_blanks (blanks : List LineEnd) (after : List UInt8) :
    readHeader ⟨false, none⟩ (encodeChars (blanks.flatMap LineEnd.text) ++ after) =
      readHeader ⟨false, none⟩ after := by
  induction blanks with
  | nil => rfl
  | cons ending rest ih =>
    rw [List.flatMap_cons, Text.Utf8.encodeChars_append, List.append_assoc, readHeader_blank, if_neg (by simp), ih]

theorem announcedLength_other (h : OtherHeader) : announcedLength h.text.toList = .ok none := by
  rw [announcedLength, if_neg]
  rw [List.isPrefixOf_iff_prefix]
  exact h.other

theorem readHeader_others (headers : List (OtherHeader × LineEnd)) (header : Header) (after : List UInt8) :
    ∃ begun, (header.begun = true → begun = true) ∧
      readHeader header (encodeChars (Dressing.headerLines headers) ++ after) =
        readHeader ⟨begun, header.length⟩ after := by
  induction headers generalizing header with
  | nil => exact ⟨header.begun, id, rfl⟩
  | cons first rest ih =>
    obtain ⟨h, ending⟩ := first
    obtain ⟨begun, goesOn, same⟩ := ih ⟨true, header.length⟩
    refine ⟨begun, fun _ => goesOn rfl, ?_⟩
    have some : h.text.toList.isEmpty = false := by
      simpa using h.nonempty
    rw [Dressing.headerLines, List.flatMap_cons, Text.Utf8.encodeChars_append, List.append_assoc,
      readHeader_line (isLineEnd_of_not_mem h.noReturn h.noLineFeed), some, announcedLength_other]
    exact same

theorem announcedLength_lengthLine {length : Nat} (fits : length ≤ greatestLength) :
    announcedLength (Dressing.lengthLine length) = .ok (some length) := by
  have trimmed : Text.trim (' ' :: digits length) = digits length :=
    Text.trim_kept fun _ member => Text.Decimal.isBlank_digit (Text.Decimal.isDigit_of_mem_digits member)
  have begins : lengthHeader.isPrefixOf (Dressing.lengthLine length) = true :=
    List.isPrefixOf_iff_prefix.mpr (List.prefix_append _ _)
  rw [announcedLength, if_pos begins, Dressing.lengthLine, List.drop_left, trimmed,
    Text.Decimal.readUnsigned_digits fits]

theorem oneLine_lengthLine (length : Nat) : ∀ c ∈ Dressing.lengthLine length, isLineEnd c = false := by
  intro c member
  rw [Dressing.lengthLine, List.mem_append, List.mem_cons] at member
  rcases member with letter | rfl | digit
  · exact isLineEnd_of_not_mem (by decide) (by decide) c letter
  · rfl
  · have digit := Text.Decimal.isDigit_of_mem_digits digit
    simp [isLineEnd, Text.Decimal.ne_of_isDigit digit]

theorem readHeader_lengthLine {length : Nat} (fits : length ≤ greatestLength) (ending : LineEnd) (header : Header)
    (after : List UInt8) :
    readHeader header (encodeChars (Dressing.lengthLine length ++ ending.text) ++ after) =
      readHeader ⟨true, some length⟩ after := by
  have named : (Dressing.lengthLine length).isEmpty = false := rfl
  rw [readHeader_line (oneLine_lengthLine length), named, announcedLength_lengthLine fits]
  rfl

/-- Whatever stands around it, the announced length is found, and the body behind the blank line. -/
theorem readHeader_dressed (d : Dressing) {length : Nat} (fits : length ≤ greatestLength) (after : List UInt8) :
    readHeader ⟨false, none⟩ (encodeChars (d.header length) ++ after) = .ok (some (some length, after)) := by
  have octets : encodeChars (d.header length) ++ after =
      encodeChars (d.blanks.flatMap LineEnd.text) ++ (encodeChars (Dressing.headerLines d.before) ++
        (encodeChars (Dressing.lengthLine length ++ d.lengthEnd.text) ++
          (encodeChars (Dressing.headerLines d.after) ++ (encodeChars d.closing.text ++ after)))) := by
    simp only [Dressing.header, Text.Utf8.encodeChars_append, List.append_assoc]
  obtain ⟨_, _, before⟩ := readHeader_others d.before ⟨false, none⟩
    (encodeChars (Dressing.lengthLine length ++ d.lengthEnd.text) ++
      (encodeChars (Dressing.headerLines d.after) ++ (encodeChars d.closing.text ++ after)))
  obtain ⟨begun, goesOn, later⟩ :=
    readHeader_others d.after ⟨true, some length⟩ (encodeChars d.closing.text ++ after)
  rw [octets, readHeader_blanks, before, readHeader_lengthLine fits, later, readHeader_blank, goesOn rfl]
  rfl

/-! ## Messages -/

theorem readMessage_dressed (d : Dressing) {body : String} {value : Json}
    (fits : (encode body).length ≤ greatestBuffer) (parsed : Json.parse (encode body) = .ok value)
    (rest : List UInt8) : readMessage (d.message body ++ rest) = .ok (some (value, rest)) := by
  have short : ¬ (encode body ++ rest).length < (encode body).length := by
    rw [List.length_append]
    omega
  rw [readMessage, Dressing.message, List.append_assoc, readHeader_dressed d (Nat.le_trans fits (by decide))]
  simp only [if_neg (Nat.not_lt.mpr fits), if_neg short, List.take_left, parsed, List.drop_left]

theorem readSome_none {octets : List UInt8} (nothing : readMessage octets = .ok none) :
    readSome octets = ([], octets) := by
  rw [readSome]
  split <;> simp_all

theorem readSome_some {octets rest : List UInt8} {message : Json}
    (found : readMessage octets = .ok (some (message, rest))) :
    readSome octets = (message :: (readSome rest).1, (readSome rest).2) := by
  rw [readSome]
  split <;> simp_all

/-- The octets after a message start the next one, so what is read of the first shifts no other. -/
theorem readSome_dressed {messages : List (Dressing × String × Json)}
    (sound : ∀ message ∈ messages, (encode message.2.1).length ≤ greatestBuffer ∧
      Json.parse (encode message.2.1) = .ok message.2.2) (behind : List UInt8) :
    readSome ((messages.flatMap fun (d, body, _) => d.message body) ++ behind) =
      (messages.map (·.2.2) ++ (readSome behind).1, (readSome behind).2) := by
  induction messages with
  | nil => rfl
  | cons message rest ih =>
    obtain ⟨d, body, value⟩ := message
    rw [List.forall_mem_cons] at sound
    obtain ⟨⟨fits, parsed⟩, later⟩ := sound
    rw [List.flatMap_cons, List.append_assoc, readSome_some (readMessage_dressed d fits parsed _), ih later]
    rfl

theorem readAll_dressed {messages : List (Dressing × String × Json)}
    (sound : ∀ message ∈ messages, (encode message.2.1).length ≤ greatestBuffer ∧
      Json.parse (encode message.2.1) = .ok message.2.2) (behind : List UInt8) :
    readAll ((messages.flatMap fun (d, body, _) => d.message body) ++ behind) =
      (messages.map (·.2.2) ++ (readAll behind).1, (readAll behind).2) := by
  simp only [readAll, readSome_dressed sound]

theorem readAll_nothing : readAll [] = ([], none) := by
  have nothing : readMessage [] = .ok none := by
    rw [readMessage, readHeader]
    rfl
  rw [readAll, readSome_none nothing, nothing]

end Framing

/-! ## Calls of the writer -/

inductive Call where
  | respond (requestSeq : Int64) (success : Bool) (command : String) (message : Option String) (body : Option Json)
  | announce (name : String) (body : Option Json)

namespace Call

def body? : Call → Option Json
  | .respond _ _ _ _ body | .announce _ body => body

def perform (w : Writer) : Call → Envelope × Writer
  | .respond requestSeq success command message body => w.respond requestSeq success command message body
  | .announce name body => w.announce name body

theorem perform_nextSeq (w : Writer) (call : Call) : (call.perform w).2.nextSeq = w.nextSeq + 1 := by
  cases call <;> rfl

end Call

def Writer.performAll (w : Writer) : List Call → List Envelope
  | [] => []
  | call :: rest => (call.perform w).1 :: (call.perform w).2.performAll rest

/-- What may stand in a body: no number with a fraction, and fewer than a hundred levels. -/
structure Writable (value : Json) : Prop where
  plain : value.Plain
  shallow : value.depth < 100

theorem plainMembers_writable {members : List (String × Json)} (writable : ∀ member ∈ members, Writable member.2) :
    Json.PlainMembers members := by
  induction members with
  | nil => trivial
  | cons member rest ih =>
    rw [List.forall_mem_cons] at writable
    exact ⟨writable.1.plain, ih writable.2⟩

theorem depthOfMembers_writable {members : List (String × Json)} (writable : ∀ member ∈ members, Writable member.2) :
    Json.depthOfMembers members < 100 := by
  induction members with
  | nil => decide
  | cons member rest ih =>
    rw [List.forall_mem_cons] at writable
    exact Nat.max_lt.mpr ⟨writable.1.shallow, ih writable.2⟩

theorem Envelope.parse_text {e : Envelope} (writable : ∀ field ∈ e.fields, Writable field.2) :
    Json.parse (encode e.text) = .ok e.toJson := by
  have room : Json.depthOfMembers e.fields + 1 < Json.Reader.depthLimit :=
    Nat.lt_of_lt_of_le (Nat.succ_lt_succ (depthOfMembers_writable writable)) (by decide)
  exact Json.parse_members (plainMembers_writable writable) room

theorem Call.writable_fields {call : Call} {w : Writer} (numbered : w.nextSeq ≤ 0x7FFFFFFFFFFFFFFF)
    (writable : ∀ body ∈ call.body?, Writable body) : ∀ field ∈ (call.perform w).1.fields, Writable field.2 := by
  have number : Writable (.integer w.nextSeq) := ⟨⟨by omega, by omega⟩, Nat.succ_pos 99⟩
  have text (content : String) : Writable (.string content) := ⟨trivial, Nat.succ_pos 99⟩
  have optional {body : Option Json} (sound : ∀ value ∈ body, Writable value) :
      ∀ field ∈ (body.map fun value => ("body", value)).toList, Writable field.2 := by
    simpa using sound
  cases call with
  | announce name body =>
    rw [perform, Writer.announce, Envelope.fields, List.forall_mem_append]
    refine ⟨?_, optional writable⟩
    simp [number, text]
  | respond requestSeq success command message body =>
    have request : Writable (.integer requestSeq.toInt) := by
      have least := requestSeq.le_toInt
      have greatest := requestSeq.toInt_lt
      exact ⟨⟨by omega, by omega⟩, Nat.succ_pos 99⟩
    have flag : Writable (.boolean success) := ⟨trivial, Nat.succ_pos 99⟩
    rw [perform, Writer.respond, Envelope.fields, List.forall_mem_append, List.forall_mem_append]
    refine ⟨⟨?_, ?_⟩, optional writable⟩
    · simp [number, text, request, flag]
    · simp [text]

theorem Writer.writable_fields {w : Writer} {calls : List Call} (numbered : w.nextSeq + calls.length ≤ 2 ^ 63)
    (writable : ∀ call ∈ calls, ∀ body ∈ call.body?, Writable body) :
    ∀ e ∈ w.performAll calls, ∀ field ∈ e.fields, Writable field.2 := by
  induction calls generalizing w with
  | nil => simp [performAll]
  | cons call rest ih =>
    rw [List.length_cons] at numbered
    rw [List.forall_mem_cons] at writable
    rw [performAll, List.forall_mem_cons]
    refine ⟨Call.writable_fields (by omega) writable.1, ih ?_ writable.2⟩
    rw [Call.perform_nextSeq]
    omega

/-- What is read of whole messages is followed by what is read of the octets behind them. -/
theorem Framing.readAll_followed {dressed : List (Dressing × Envelope)}
    (fits : ∀ e ∈ dressed.map Prod.snd, (encode e.text).length ≤ greatestBuffer)
    (writable : ∀ e ∈ dressed.map Prod.snd, ∀ field ∈ e.fields, Writable field.2) (behind : List UInt8) :
    readAll ((dressed.flatMap fun (d, e) => d.message e.text) ++ behind) =
      ((dressed.map Prod.snd).map Envelope.toJson ++ (readAll behind).1, (readAll behind).2) := by
  rw [List.forall_mem_map] at fits writable
  have sound : ∀ message ∈ dressed.map fun (d, e) => (d, e.text, e.toJson),
      (encode message.2.1).length ≤ greatestBuffer ∧ Json.parse (encode message.2.1) = .ok message.2.2 := by
    rw [List.forall_mem_map]
    exact fun one member => ⟨fits one member, Envelope.parse_text (writable one member)⟩
  have read := readAll_dressed sound behind
  rw [List.flatMap_map, List.map_map] at read
  rw [List.map_map]
  exact read

theorem Framing.readAll_plain {whole : List Envelope} (fits : ∀ e ∈ whole, (encode e.text).length ≤ greatestBuffer)
    (writable : ∀ e ∈ whole, ∀ field ∈ e.fields, Writable field.2) (behind : List UInt8) :
    readAll ((whole.flatMap fun e => encode (framed e.text)) ++ behind) =
      (whole.map Envelope.toJson ++ (readAll behind).1, (readAll behind).2) := by
  have same : (whole.map (Dressing.plain, ·)).map Prod.snd = whole := by
    rw [List.map_map]
    exact List.map_id _
  have read := readAll_followed (same.symm ▸ fits) (same.symm ▸ writable) behind
  simpa only [same, List.flatMap_map, Dressing.message_plain] using read

theorem Framing.readAll_envelopes {dressed : List (Dressing × Envelope)}
    (fits : ∀ e ∈ dressed.map Prod.snd, (encode e.text).length ≤ greatestBuffer)
    (writable : ∀ e ∈ dressed.map Prod.snd, ∀ field ∈ e.fields, Writable field.2) :
    readAll (dressed.flatMap fun (d, e) => d.message e.text) =
      ((dressed.map Prod.snd).map Envelope.toJson, none) := by
  have read := readAll_followed fits writable []
  rwa [List.append_nil, readAll_nothing, List.append_nil] at read

/-- What is written is read back, as it stands or with its headers written in another way. The numbers of messages
are signed and have 64 bits, and no text is longer than a buffer can be. -/
theorem readAll_written (calls : List Call) (numbered : calls.length < 2 ^ 63)
    (writable : ∀ call ∈ calls, ∀ body ∈ call.body?, Writable body)
    (fits : ∀ e ∈ Writer.new.performAll calls, (encode e.text).length ≤ Framing.greatestBuffer) :
    let written := Writer.new.performAll calls
    Framing.readAll (written.flatMap fun e => encode (framed e.text)) = (written.map Envelope.toJson, none) ∧
      ∀ dressed : List (Dressing × Envelope), dressed.map Prod.snd = written →
        Framing.readAll (dressed.flatMap fun (d, e) => d.message e.text) = (written.map Envelope.toJson, none) := by
  intro written
  have fields : ∀ e ∈ written, ∀ field ∈ e.fields, Writable field.2 :=
    Writer.writable_fields (by simp only [Writer.new]; omega) writable
  have peer (dressed : List (Dressing × Envelope)) (same : dressed.map Prod.snd = written) :
      Framing.readAll (dressed.flatMap fun (d, e) => d.message e.text) = (written.map Envelope.toJson, none) := by
    rw [← same]
    exact Framing.readAll_envelopes (by rwa [same]) (by rwa [same])
  have bare : written.flatMap (fun e => encode (framed e.text)) =
      (written.map (Dressing.plain, ·)).flatMap fun (d, e) => d.message e.text := by
    rw [List.flatMap_map]
    simp only [Dressing.message_plain]
  refine ⟨?_, peer⟩
  rw [bare]
  exact peer _ (by rw [List.map_map]; exact List.map_id _)

def misleading : List Call :=
  [.announce "output" (some (.object [("category", .string "stdout"),
      ("output", .string "größer\r\n\r\nContent-Length: 5\r\n\r\n")])),
    .respond 7 false "Content-Length: 2" (some "\"\\\u0001") (some (.array [.null, .integer (-1), .object []])),
    .respond Int64.minValue true "" none none]

def verbose : Dressing where
  blanks := [.lf, .crlf]
  before := [(⟨"Content-Type: größer", by decide, by decide, by decide, by decide⟩, .lf),
    (⟨" Content-Length: 1", by decide, by decide, by decide, by decide⟩, .crlf)]
  lengthEnd := .lf
  after := [(⟨"content-length: x", by decide, by decide, by decide, by decide⟩, .lf)]
  closing := .lf

theorem readAll_written_misleading :
    let written := Writer.new.performAll misleading
    (∀ call ∈ misleading, ∀ body ∈ call.body?, Writable body) ∧
      (∀ e ∈ written, (encode e.text).length ≤ Framing.greatestBuffer) ∧
      Framing.readAll (written.flatMap fun e => verbose.message e.text) = (written.map Envelope.toJson, none) := by
  intro written
  have writable : ∀ call ∈ misleading, ∀ body ∈ call.body?, Writable body := by
    simp only [misleading, List.forall_mem_cons, Call.body?, Option.mem_some_iff, forall_eq', Option.not_mem_none,
      List.not_mem_nil, false_implies, implies_true, and_true]
    refine ⟨⟨?_, by decide⟩, ⟨?_, by decide⟩⟩
    · exact ⟨by decide, trivial, trivial, trivial⟩
    · exact ⟨trivial, ⟨by decide, by decide⟩, ⟨List.Pairwise.nil, trivial⟩, trivial⟩
  have fits : ∀ e ∈ written, (encode e.text).length ≤ Framing.greatestBuffer := by
    simp only [encode, Envelope.text, Json.text, String.toList_ofList]
    decide +kernel
  have read := (readAll_written misleading (by decide) writable fits).2 (written.map (verbose, ·))
    (by rw [List.map_map]; exact List.map_id _)
  rw [List.flatMap_map] at read
  exact ⟨writable, fits, read⟩

end DebugBridge.Protocol
