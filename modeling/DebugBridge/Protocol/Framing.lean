import DebugBridge.Json.Reader
import DebugBridge.Text.Blank

/-! Reading framed messages from a stream of octets.

A message is a block of header lines, a blank line, and a body of the announced length. Blank lines before a
block are skipped. -/

set_option autoImplicit false

namespace DebugBridge.Protocol

inductive ReadFault where
  | closedInHeader
  | missingLength
  | badLength (fault : Text.Decimal.Fault)
  /-- No buffer can be that long. -/
  | lengthBeyondMemory
  | closedInBody
  | headerNotText
  | badBody (fault : Json.Fault)
  deriving DecidableEq, Repr

def ReadFault.message : ReadFault → String
  | .closedInHeader => "DAP connection closed inside a message header"
  | .missingLength => "Missing Content-Length header"
  | .badLength fault => fault.message
  | .lengthBeyondMemory => "capacity overflow"
  | .closedInBody => "failed to fill whole buffer"
  | .headerNotText => "stream did not contain valid UTF-8"
  | .badBody .truncated => "eof"
  | .badBody .malformed => "syntax"

namespace Framing

/-- The first line with its line feed, which the last line may lack, and what follows. -/
def splitLine : List UInt8 → List UInt8 × List UInt8
  | [] => ([], [])
  | octet :: rest =>
    if octet = 0x0A then ([octet], rest) else (octet :: (splitLine rest).1, (splitLine rest).2)

theorem splitLine_append (octets : List UInt8) : (splitLine octets).1 ++ (splitLine octets).2 = octets := by
  induction octets with
  | nil => rfl
  | cons octet rest ih =>
    unfold splitLine
    split
    · rfl
    · simpa using ih

theorem splitLine_rest_length (octet : UInt8) (rest : List UInt8) :
    (splitLine (octet :: rest)).2.length < (octet :: rest).length := by
  have whole := congrArg List.length (splitLine_append rest)
  simp only [List.length_append] at whole
  unfold splitLine
  split
  · simp
  · simp only [List.length_cons]
    omega

def lengthHeader : List Char := "Content-Length:".toList

def greatestLength : Nat := 0xFFFFFFFFFFFFFFFF

/-- The greatest length for which there can be a buffer. -/
def greatestBuffer : Nat := 0x7FFFFFFFFFFFFFFF

def isLineEnd (c : Char) : Bool := c == '\r' || c == '\n'

/-- The length that a header line announces; other headers announce none. -/
def announcedLength (line : List Char) : Except ReadFault (Option Nat) :=
  if lengthHeader.isPrefixOf line then
    match Text.Decimal.readUnsigned greatestLength (Text.trim (line.drop lengthHeader.length)) with
    | .ok n => .ok (some n)
    | .error fault => .error (.badLength fault)
  else .ok none

/-- Where a block of headers stands: whether a line of it has been read, and the length announced last. -/
structure Header where
  begun : Bool
  length : Option Nat

/-- Read headers up to the blank line. None if the stream ends before the first one. -/
def readHeader (header : Header) : List UInt8 → Except ReadFault (Option (Option Nat × List UInt8))
  | [] => if header.begun then .error .closedInHeader else .ok none
  | octet :: rest =>
    let line := (splitLine (octet :: rest)).1
    let after := (splitLine (octet :: rest)).2
    match Text.Utf8.decode? line with
    | none => .error .headerNotText
    | some text =>
      let content := Text.dropEndWhile isLineEnd text.toList
      if content.isEmpty then
        if header.begun then .ok (some (header.length, after)) else readHeader header after
      else
        match announcedLength content with
        | .error fault => .error fault
        -- of several lengths the last one counts
        | .ok announced => readHeader ⟨true, announced.or header.length⟩ after
termination_by octets => octets.length
decreasing_by all_goals exact splitLine_rest_length octet rest

theorem readHeader_length {header : Header} {octets after : List UInt8} {length : Option Nat}
    (h : readHeader header octets = .ok (some (length, after))) : after.length < octets.length := by
  fun_induction readHeader header octets with
  | case1 => cases h
  | case2 => cases h
  | case3 => cases h
  | case4 header octet rest =>
    simp only [Except.ok.injEq, Option.some.injEq, Prod.mk.injEq] at h
    obtain ⟨-, rfl⟩ := h
    exact splitLine_rest_length octet rest
  | case5 header octet rest =>
    rename_i ih
    exact Nat.lt_trans (ih h) (splitLine_rest_length octet rest)
  | case6 => cases h
  | case7 header octet rest =>
    rename_i ih
    exact Nat.lt_trans (ih h) (splitLine_rest_length octet rest)

/-- The next message and the octets after it. None if the stream ends between messages. -/
def readMessage (octets : List UInt8) : Except ReadFault (Option (Json × List UInt8)) :=
  match readHeader ⟨false, none⟩ octets with
  | .error fault => .error fault
  | .ok none => .ok none
  | .ok (some (none, _)) => .error .missingLength
  | .ok (some (some length, rest)) =>
    if length > greatestBuffer then .error .lengthBeyondMemory
    else if rest.length < length then .error .closedInBody
    else
      match Json.parse (rest.take length) with
      | .error fault => .error (.badBody fault)
      | .ok message => .ok (some (message, rest.drop length))

theorem readMessage_length {octets rest : List UInt8} {message : Json}
    (h : readMessage octets = .ok (some (message, rest))) : rest.length < octets.length := by
  unfold readMessage at h
  split at h
  · cases h
  · cases h
  · cases h
  · rename_i header
    have := readHeader_length header
    split at h
    · cases h
    split at h
    · cases h
    split at h
    · cases h
    · cases h
      simp only [List.length_drop]
      omega

def readSome (octets : List UInt8) : List Json × List UInt8 :=
  match _found : readMessage octets with
  | .ok (some (message, rest)) => (message :: (readSome rest).1, (readSome rest).2)
  | .error _ | .ok none => ([], octets)
termination_by octets.length
decreasing_by all_goals exact readMessage_length _found

/-- The messages of a stream, and the fault that ended the reading if it was not the end of the stream. -/
def readAll (octets : List UInt8) : List Json × Option ReadFault :=
  ((readSome octets).1,
    match readMessage (readSome octets).2 with
    | .error fault => some fault
    | .ok _ => none)

end Framing

end DebugBridge.Protocol
