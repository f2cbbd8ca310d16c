import DebugBridge.Proofs.Protocol.Framing

/-! A stream of messages that breaks off. What stands complete in it is read, and the reader tells whether the stream
ended between two messages or inside one, wherever in a message that is. -/

set_option autoImplicit false

namespace DebugBridge.Protocol

open Text.Utf8 (encode encodeChars)

def Envelope.octets (e : Envelope) : List UInt8 := encode (framed e.text)

theorem Envelope.encode_text_ne_nil (e : Envelope) : encode e.text ≠ [] := by
  intro nothing
  have text := Text.Utf8.encodeChars_eq_nil nothing
  rw [Envelope.text, Json.text, String.toList_ofList] at text
  cases text

def stream (messages : List Envelope) : List UInt8 := messages.flatMap Envelope.octets

theorem stream_cons (e : Envelope) (rest : List Envelope) : stream (e :: rest) = e.octets ++ stream rest :=
  List.flatMap_cons

/-- A stream breaks off behind some messages of it. What is left is not all of the next one. -/
theorem exists_whole {messages : List Envelope} {octets : List UInt8} (cut : octets <+: stream messages) :
    ∃ whole later part, messages = whole ++ later ∧ octets = stream whole ++ part ∧
      (part ≠ [] → ∃ next ∈ later.head?, part <+: next.octets) ∧ ∀ next ∈ later.head?, ¬ next.octets <+: part := by
  induction messages generalizing octets with
  | nil => exact ⟨[], [], octets, rfl, rfl, fun begun => absurd (List.prefix_nil.mp cut) begun, by simp⟩
  | cons first rest ih =>
    by_cases complete : first.octets <+: octets
    · obtain ⟨behind, rfl⟩ := complete
      rw [stream_cons, List.prefix_append_right_inj] at cut
      obtain ⟨whole, later, part, rfl, rfl, begins, short⟩ := ih cut
      exact ⟨first :: whole, later, part, rfl, by simp [stream], begins, short⟩
    · refine ⟨[], first :: rest, octets, rfl, rfl, fun _ => ⟨first, rfl, ?_⟩, by simpa using complete⟩
      rw [stream_cons] at cut
      exact (List.prefix_or_prefix_of_prefix cut (List.prefix_append _ _)).resolve_right complete

namespace Framing

/-! ## Parts of a message -/

theorem decode?_letter {octets : List UInt8} {text : String}
    (decoded : Text.Utf8.decode? (0x43 :: octets) = some text) :
    ∃ rest, text.toList = 'C' :: rest := by
  have pieces : Text.Utf8.pieces (0x43 :: octets) = .char 'C' :: Text.Utf8.pieces octets := rfl
  rw [Text.Utf8.decode?, pieces, List.mapM_cons] at decoded
  cases read : (Text.Utf8.pieces octets).mapM Text.Utf8.Piece.char? with
  | none => simp [read, Text.Utf8.Piece.char?] at decoded
  | some rest =>
    simp only [read, Text.Utf8.Piece.char?] at decoded
    obtain rfl := Option.some.inj decoded
    exact ⟨rest, String.toList_ofList⟩

theorem splitLine_unended {octets : List UInt8} (unended : 0x0A ∉ octets) : splitLine octets = (octets, []) := by
  induction octets with
  | nil => rfl
  | cons octet rest ih =>
    rw [List.mem_cons, not_or] at unended
    rw [splitLine, if_neg (Ne.symm unended.1), ih unended.2]

/-- A header line that breaks off is no blank line, and no headers follow it. -/
theorem readHeader_unended {octets : List UInt8} (unended : 0x0A ∉ 0x43 :: octets) (header : Header) :
    ∃ fault, readHeader header (0x43 :: octets) = .error fault := by
  rw [readHeader, splitLine_unended unended]
  cases decoded : Text.Utf8.decode? (0x43 :: octets) with
  | none => exact ⟨.headerNotText, by simp⟩
  | some text =>
    obtain ⟨rest, letter⟩ := decode?_letter decoded
    have content : (Text.dropEndWhile isLineEnd text.toList).isEmpty = false := by
      rw [List.isEmpty_eq_false_iff, letter]
      intro nothing
      obtain ⟨ending, same, dropped⟩ := (Text.dropEndWhile_eq_iff (List.forall_mem_nil _)).mp nothing
      obtain rfl : 'C' :: rest = ending := same
      cases dropped 'C' List.mem_cons_self
    cases announced : announcedLength (Text.dropEndWhile isLineEnd text.toList) with
    | error fault => exact ⟨fault, by simp [content, announced]⟩
    | ok length => exact ⟨.closedInHeader, by simp [content, announced, readHeader]⟩

theorem encodeChars_lengthLine (length : Nat) : ∃ octets, encodeChars (Dressing.lengthLine length) = 0x43 :: octets :=
  ⟨_, rfl⟩

/-- Some of the line with the length, whose line feed has not come. -/
theorem readHeader_cut {length : Nat} {octets : List UInt8} (begun : octets ≠ [])
    (cut : octets <+: encodeChars (Dressing.lengthLine length) ++ [0x0D]) (header : Header) :
    ∃ fault, readHeader header octets = .error fault := by
  obtain ⟨line, starts⟩ := encodeChars_lengthLine length
  have unended : 0x0A ∉ encodeChars (Dressing.lengthLine length) ++ [0x0D] := by
    simp [lineFeed_not_mem (oneLine_lengthLine length)]
  have absent : 0x0A ∉ octets := fun member => unended (cut.subset member)
  rw [starts, List.cons_append] at cut
  obtain ⟨octet, rest, rfl⟩ := List.exists_cons_of_ne_nil begun
  obtain ⟨rfl, -⟩ := List.cons_prefix_cons.mp cut
  exact readHeader_unended absent header

theorem readMessage_fault {octets : List UInt8} (faulty : ∃ fault, readHeader ⟨false, none⟩ octets = .error fault) :
    ∃ fault, readMessage octets = .error fault := by
  obtain ⟨fault, read⟩ := faulty
  exact ⟨fault, by rw [readMessage, read]⟩

theorem readMessage_short {octets rest : List UInt8} {length : Nat}
    (read : readHeader ⟨false, none⟩ octets = .ok (some (some length, rest))) (short : rest.length < length) :
    ∃ fault, readMessage octets = .error fault := by
  rw [readMessage, read]
  by_cases beyond : length > greatestBuffer
  · exact ⟨.lengthBeyondMemory, by simp [beyond]⟩
  · exact ⟨.closedInBody, by simp [beyond, short]⟩

theorem encode_framed (body : String) :
    encode (framed body) = encodeChars (Dressing.lengthLine (encode body).length) ++ [0x0D] ++
      (0x0A :: 0x0D :: 0x0A :: encode body) := by
  rw [← Dressing.message_plain, Dressing.message, Dressing.header_plain, Text.Utf8.encodeChars_append]
  simp only [List.append_assoc]
  rfl

/-- Where a message breaks off behind its length, the end of the headers is missing or some of the body is. A carriage
return alone passes for the blank line. -/
theorem readHeader_unfilled {body octets : List UInt8} (filled : body ≠ []) (cut : octets <+: 0x0D :: 0x0A :: body)
    (part : octets ≠ 0x0D :: 0x0A :: body) :
    (∃ fault, readHeader ⟨true, some body.length⟩ octets = .error fault) ∨
      ∃ rest, readHeader ⟨true, some body.length⟩ octets = .ok (some (some body.length, rest)) ∧
        rest.length < body.length := by
  cases octets with
  | nil => exact .inl ⟨.closedInHeader, by rw [readHeader]; rfl⟩
  | cons octet octets =>
    rw [List.cons_prefix_cons] at cut
    obtain ⟨rfl, cut⟩ := cut
    right
    cases octets with
    | nil => exact ⟨[], by rw [readHeader]; rfl, List.length_pos_iff.mpr filled⟩
    | cons octet rest =>
      rw [List.cons_prefix_cons] at cut
      obtain ⟨rfl, cut⟩ := cut
      have shorter : rest.length ≠ body.length := fun same => part (by rw [cut.eq_of_length same])
      exact ⟨rest, readHeader_blank .crlf _ rest, Nat.lt_of_le_of_ne cut.length_le shorter⟩

/-- A part of a message is taken neither for a message nor for the end of the stream. -/
theorem readMessage_cut {body : String} {octets : List UInt8} (fits : (encode body).length ≤ greatestLength)
    (filled : encode body ≠ []) (begun : octets ≠ []) (cut : octets <+: encode (framed body))
    (part : octets ≠ encode (framed body)) : ∃ fault, readMessage octets = .error fault := by
  rw [encode_framed] at cut part
  -- before the line feed that ends the length, or behind it
  rcases List.prefix_or_prefix_of_prefix cut (List.prefix_append _ _) with inLine | ⟨behind, rfl⟩
  · exact readMessage_fault (readHeader_cut begun inLine _)
  rw [List.prefix_append_right_inj] at cut
  rw [Ne, List.append_cancel_left_eq] at part
  cases behind with
  | nil =>
    rw [List.append_nil] at begun ⊢
    exact readMessage_fault (readHeader_cut begun (List.prefix_refl _) _)
  | cons octet behind =>
    rw [List.cons_prefix_cons] at cut
    obtain ⟨rfl, cut⟩ := cut
    have line : readHeader ⟨false, none⟩ (encodeChars (Dressing.lengthLine (encode body).length) ++ [0x0D] ++
        0x0A :: behind) = readHeader ⟨true, some (encode body).length⟩ behind := by
      rw [← readHeader_lengthLine fits .crlf ⟨false, none⟩ behind, Text.Utf8.encodeChars_append, List.append_assoc,
        List.append_assoc]
      rfl
    rcases readHeader_unfilled filled cut (fun same => part (by rw [same])) with ⟨fault, read⟩ | ⟨rest, read, short⟩
    · exact readMessage_fault ⟨fault, line.trans read⟩
    · exact readMessage_short (line.trans read) short

/-! ## Streams that break off -/

theorem readSome_fault {octets : List UInt8} {fault : ReadFault} (faulty : readMessage octets = .error fault) :
    readSome octets = ([], octets) := by
  rw [readSome]
  split <;> simp_all

theorem readAll_fault {octets : List UInt8} {fault : ReadFault} (faulty : readMessage octets = .error fault) :
    readAll octets = ([], some fault) := by
  rw [readAll, readSome_fault faulty, faulty]

end Framing

/-- A stream that breaks off is read up to its last whole message. The end of the stream is an end in good order only
between two messages, and a fault inside of one. -/
theorem readAll_truncated (calls : List Call) (numbered : calls.length < 2 ^ 63)
    (writable : ∀ call ∈ calls, ∀ body ∈ call.body?, Writable body)
    (fits : ∀ e ∈ Writer.new.performAll calls, (encode e.text).length ≤ Framing.greatestBuffer) {octets : List UInt8}
    (cut : octets <+: stream (Writer.new.performAll calls)) :
    ∃ whole later part, Writer.new.performAll calls = whole ++ later ∧ octets = stream whole ++ part ∧
      (∀ next ∈ later.head?, ¬ next.octets <+: part) ∧
      (Framing.readAll octets).1 = whole.map Envelope.toJson ∧
      ((Framing.readAll octets).2 = none ↔ part = []) := by
  obtain ⟨whole, later, part, same, rfl, begins, short⟩ := exists_whole cut
  have fields : ∀ e ∈ Writer.new.performAll calls, ∀ field ∈ e.fields, Writable field.2 :=
    Writer.writable_fields (by simp only [Writer.new]; omega) writable
  rw [same] at fits fields
  have inWhole {e : Envelope} (member : e ∈ whole) : e ∈ whole ++ later := List.mem_append_left _ member
  have read : Framing.readAll (stream whole ++ part) = _ :=
    Framing.readAll_plain (fun e member => fits e (inWhole member)) (fun e member => fields e (inWhole member)) part
  refine ⟨whole, later, part, same, rfl, short, ?_⟩
  rw [read]
  by_cases ends : part = []
  · simp [ends, Framing.readAll_nothing]
  · obtain ⟨next, first, inNext⟩ := begins ends
    have member : next ∈ whole ++ later := List.mem_append_right _ (List.mem_of_mem_head? first)
    obtain ⟨fault, faulty⟩ := Framing.readMessage_cut (Nat.le_trans (fits next member) (by decide))
      next.encode_text_ne_nil ends inNext fun all => short next first (all ▸ List.prefix_refl _)
    simp [ends, Framing.readAll_fault faulty]

def brief : List Call := [.announce "exited" none, .announce "output" (some (.string "größe"))]

/-- Without its last digit a length is a length all the same. -/
theorem readAll_truncated_length :
    let written := Writer.new.performAll brief
    let octets := stream (written.take 1) ++ encode "Content-Length: 5"
    (∀ call ∈ brief, ∀ body ∈ call.body?, Writable body) ∧
      (∀ e ∈ written, (encode e.text).length ≤ Framing.greatestBuffer) ∧ octets <+: stream written ∧
      ∃ whole later part, written = whole ++ later ∧ octets = stream whole ++ part ∧
        (∀ next ∈ later.head?, ¬ next.octets <+: part) ∧
        (Framing.readAll octets).1 = whole.map Envelope.toJson ∧
        ((Framing.readAll octets).2 = none ↔ part = []) := by
  intro written octets
  have writable : ∀ call ∈ brief, ∀ body ∈ call.body?, Writable body := by
    simp only [brief, List.forall_mem_cons, Call.body?, Option.mem_some_iff, forall_eq', Option.not_mem_none,
      List.not_mem_nil, false_implies, implies_true, and_true, true_and]
    exact ⟨trivial, by decide⟩
  have fits : ∀ e ∈ written, (encode e.text).length ≤ Framing.greatestBuffer := by
    simp only [encode, Envelope.text, Json.text, String.toList_ofList]
    decide +kernel
  have cut : octets <+: stream written := by decide +kernel
  exact ⟨writable, fits, cut, readAll_truncated brief (by decide) writable fits cut⟩

end DebugBridge.Protocol
