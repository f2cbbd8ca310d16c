import DebugBridge.Engine.Event
import DebugBridge.Proofs.Engine.Lines
import DebugBridge.Proofs.Text.Decimal
import DebugBridge.Proofs.Text.Utf8

/-! Events as the engine writes them. A stream of rendered events is read back as those events, as far as
lines without escapes can carry them. -/

set_option autoImplicit false

namespace DebugBridge.Engine

open Text.Decimal (showInt64 showNat)

def Frame.text (frame : Frame) : String :=
  " " ++ frame.file ++ " " ++ showInt64 frame.line ++ " " ++ frame.function

namespace Event

def line : Event → String
  | .pass token => "PASS " ++ token
  | .consoleOutput text => "COUT " ++ text
  | .running => "RUNNING"
  | .breakpointCleared file line => "BRKCLR " ++ file ++ " " ++ showInt64 line
  | .breakpointMoved file line newLine => "BRKMOV " ++ file ++ " " ++ showInt64 line ++ " " ++ showInt64 newLine
  | .stopped frames => "BREAK" ++ String.join (frames.map Frame.text)
  | .evaluated tag value => "EVALOUT " ++ showNat tag.toNat ++ " " ++ value
  | .unknown line => line

def verbs : List String := ["PASS", "COUT", "RUNNING", "BRKCLR", "BRKMOV", "BREAK", "EVALOUT"]

/-- Only texts that end a line may contain spaces, and a line of an unknown kind must not look like another. -/
def Separable : Event → Prop
  | .pass token => ' ' ∉ token.toList
  | .consoleOutput _ | .running | .evaluated _ _ => True
  | .breakpointCleared file _ | .breakpointMoved file _ _ => ' ' ∉ file.toList
  | .stopped frames => ∀ frame ∈ frames, ' ' ∉ frame.file.toList ∧ ' ' ∉ frame.function.toList
  | .unknown line =>
    let verb := line.toList.takeWhile (· ≠ ' ')
    verb ≠ [] ∧ String.ofList verb ∉ verbs

structure Transportable (event : Event) : Prop where
  separable : event.Separable
  unbroken : ¬ ['\r', '\n'] <:+: event.line.toList

instance : DecidablePred Separable
  | .pass token => inferInstanceAs (Decidable (' ' ∉ token.toList))
  | .consoleOutput _ | .running | .evaluated _ _ => .isTrue trivial
  | .breakpointCleared file _ | .breakpointMoved file _ _ => inferInstanceAs (Decidable (' ' ∉ file.toList))
  | .stopped frames =>
    inferInstanceAs (Decidable (∀ frame ∈ frames, ' ' ∉ frame.file.toList ∧ ' ' ∉ frame.function.toList))
  | .unknown line => inferInstanceAs (Decidable (line.toList.takeWhile (· ≠ ' ') ≠ [] ∧
      String.ofList (line.toList.takeWhile (· ≠ ' ')) ∉ verbs))

instance (event : Event) : Decidable event.Transportable :=
  decidable_of_iff (event.Separable ∧ ¬ ['\r', '\n'] <:+: event.line.toList)
    ⟨fun both => ⟨both.1, both.2⟩, fun both => ⟨both.separable, both.unbroken⟩⟩

def stream (events : List Event) : List UInt8 :=
  events.flatMap fun event => Text.Utf8.encode (event.line ++ "\r\n")

/-! ## Fields -/

theorem split_eq_cons (separator : Char) (text : List Char) :
    ∃ others, Text.split separator text = text.takeWhile (· ≠ separator) :: others := by
  induction text with
  | nil => exact ⟨[], rfl⟩
  | cons c text ih =>
    obtain ⟨others, found⟩ := ih
    by_cases same : c = separator
    · exact ⟨_, by simp [Text.split, same]; rfl⟩
    · exact ⟨others, by simp [Text.split, same, found]⟩

theorem space_not_mem_showInt64 (i : Int64) : ' ' ∉ (showInt64 i).toList :=
  Text.Decimal.not_mem_showInt64 (by decide) (by decide) i

theorem space_not_mem_showNat (n : Nat) : ' ' ∉ (showNat n).toList :=
  Text.Decimal.not_mem_showNat (by decide) n

theorem toList_text (frame : Frame) :
    frame.text.toList =
      ' ' :: (frame.file.toList ++ ' ' :: ((showInt64 frame.line).toList ++ ' ' :: frame.function.toList)) := by
  simp [Frame.text]

theorem split_frames {first : List Char} {frames : List Frame} (free : ' ' ∉ first)
    (separable : (Event.stopped frames).Separable) :
    Text.split ' ' (first ++ frames.flatMap fun frame => frame.text.toList) =
      first :: frames.flatMap fun frame =>
        [frame.file.toList, (showInt64 frame.line).toList, frame.function.toList] := by
  induction frames generalizing first with
  | nil =>
    rw [List.flatMap_nil, List.append_nil]
    exact Text.split_eq_singleton free
  | cons frame rest ih =>
    rw [Separable, List.forall_mem_cons] at separable
    obtain ⟨⟨file, function⟩, separable⟩ := separable
    rw [List.flatMap_cons, List.flatMap_cons, toList_text]
    simp only [List.cons_append, List.append_assoc, List.nil_append]
    rw [Text.split_append_separator free, Text.split_append_separator file,
      Text.split_append_separator (space_not_mem_showInt64 _), ih function separable]

theorem frames_fields (stack : List Frame) :
    frames (stack.flatMap fun frame =>
      [frame.file.toList, (showInt64 frame.line).toList, frame.function.toList]) = stack := by
  induction stack with
  | nil => rfl
  | cons frame rest ih =>
    simp only [List.flatMap_cons, List.cons_append, List.nil_append, frames, String.ofList_toList,
      Text.Decimal.readInt64_showInt64, ih]

theorem field_head (text : String) (later : List (List Char)) (verb name : String) :
    field (text.toList :: later) 0 verb name = .ok text := by
  simp [field]

theorem lineField_shown {i : Int64} (fields : List (List Char)) (index : Nat) (verb name : String)
    (found : fields[index]? = some (showInt64 i).toList) : lineField fields index verb name = .ok i := by
  simp [lineField, field, found, Text.Decimal.readInt64_showInt64]

theorem tagField_shown (tag : UInt64) (later : List (List Char)) (verb name : String) :
    tagField ((showNat tag.toNat).toList :: later) 0 verb name = .ok tag := by
  simp [tagField, field, Text.Decimal.readUInt64_showNat]

/-! ## Lines -/

theorem decode_stopped {frames : List Frame} (separable : (stopped frames).Separable) :
    decode (stopped frames).line = .ok (stopped frames) := by
  have parts : Text.split ' ' (stopped frames).line.toList =
      "BREAK".toList :: frames.flatMap fun frame =>
        [frame.file.toList, (showInt64 frame.line).toList, frame.function.toList] := by
    rw [← split_frames (by decide) separable, line, String.toList_append, String.toList_join, List.flatMap_map]
  simp [decode, parts, frames_fields]

theorem decode_unknown {line : String} (separable : (unknown line).Separable) :
    decode line = .ok (unknown line) := by
  obtain ⟨others, parts⟩ := split_eq_cons ' ' line.toList
  obtain ⟨named, other⟩ := separable
  simp only [verbs, List.mem_cons, List.not_mem_nil, or_false, not_or] at other
  simp only [decode, parts, List.isEmpty_iff, if_neg named]
  split <;> simp_all

theorem decode_line {event : Event} (separable : event.Separable) : decode event.line = .ok event := by
  cases event with
  | pass token =>
    have parts : Text.split ' ' (pass token).line.toList = ["PASS".toList, token.toList] := by
      rw [← Text.split_eq_singleton separable, ← Text.split_append_separator (by decide)]
      simp [line]
    simp [decode, parts, field_head, Except.map]
  | consoleOutput text =>
    have parts : Text.split ' ' (consoleOutput text).line.toList =
        "COUT".toList :: Text.split ' ' text.toList := by
      rw [← Text.split_append_separator (by decide)]
      simp [line]
    have rest : (consoleOutput text).line.toList.drop 5 = text.toList := by simp [line]
    simp [decode, parts, rest]
  | running => rfl
  | breakpointCleared file i =>
    have parts : Text.split ' ' (breakpointCleared file i).line.toList =
        ["BRKCLR".toList, file.toList, (showInt64 i).toList] := by
      rw [← Text.split_eq_singleton (space_not_mem_showInt64 i), ← Text.split_append_separator separable,
        ← Text.split_append_separator (by decide)]
      simp [line]
    have shown := lineField_shown [file.toList, (showInt64 i).toList] 1 "BRKCLR" "line" rfl
    simp [decode, parts, field_head, shown]
    rfl
  | breakpointMoved file i j =>
    have parts : Text.split ' ' (breakpointMoved file i j).line.toList =
        ["BRKMOV".toList, file.toList, (showInt64 i).toList, (showInt64 j).toList] := by
      rw [← Text.split_eq_singleton (space_not_mem_showInt64 j),
        ← Text.split_append_separator (space_not_mem_showInt64 i), ← Text.split_append_separator separable,
        ← Text.split_append_separator (by decide)]
      simp [line]
    let fields := [file.toList, (showInt64 i).toList, (showInt64 j).toList]
    have shown := lineField_shown fields 1 "BRKMOV" "line" rfl
    have moved := lineField_shown fields 2 "BRKMOV" "new line" rfl
    simp only [fields] at shown moved
    simp [decode, parts, field_head, shown, moved]
    rfl
  | stopped frames => exact decode_stopped separable
  | evaluated tag value =>
    have parts : Text.split ' ' (evaluated tag value).line.toList =
        "EVALOUT".toList :: (showNat tag.toNat).toList :: Text.split ' ' value.toList := by
      rw [← Text.split_append_separator (space_not_mem_showNat _), ← Text.split_append_separator (by decide)]
      simp [line]
    simp [decode, parts, tagField_shown, Text.join_split]
  | unknown line => exact decode_unknown separable

/-! ## Streams -/

theorem stream_divides {events : List Event} (transportable : ∀ event ∈ events, event.Transportable) :
    LineBuffer.Divides (stream events) (events.map fun event => Text.Utf8.encode event.line) [] := by
  refine ⟨?_, ?_, by simp [LineBuffer.lineEnd]⟩
  · simp only [List.append_nil, List.flatMap_map, stream, Text.Utf8.encode_append]
    rfl
  · intro line member
    obtain ⟨event, known, rfl⟩ := List.mem_map.mp member
    exact fun broken => (transportable event known).unbroken
      (Text.Utf8.infix_of_infix_encodeChars (by decide) (by decide) broken)

/-- Every event arrives as it was written, whatever the engine writes before and after it. -/
theorem stream_decodes (events : List Event) (transportable : ∀ event ∈ events, event.Transportable) :
    let read := (LineBuffer.empty.push (stream events)).drain
    read.1.map decode = events.map .ok ∧ read.2 = .empty := by
  intro read
  have drained : read = (events.map line, .empty) := by
    refine (stream_divides transportable).drain.trans ?_
    simp [Function.comp_def, Text.Utf8.decodeLossy_encode, LineBuffer.empty]
  rw [drained, List.map_map]
  exact ⟨List.map_congr_left fun event member => decode_line (transportable event member).separable, rfl⟩

def awkward : List Event :=
  [.pass "", .pass "t\r", .consoleOutput "  PASS\r x\n\r ", .running,
    .breakpointCleared "" Int64.minValue, .breakpointMoved "scripts/größe.cs" Int64.maxValue (-1),
    .stopped [], .stopped [⟨"", 0, ""⟩, ⟨"a\r", -7, "😀::f"⟩],
    .evaluated 18446744073709551615 " \"a  b\" ", .evaluated 0 "", .unknown "pass  x\r", .unknown "BREAK: "]

theorem stream_decodes_awkward :
    (∀ event ∈ awkward, event.Transportable) ∧
      (let read := (LineBuffer.empty.push (stream awkward)).drain
       read.1.map decode = awkward.map .ok ∧ read.2 = .empty) := by
  have transportable : ∀ event ∈ awkward, event.Transportable := by decide
  exact ⟨transportable, stream_decodes awkward transportable⟩

end Event

end DebugBridge.Engine
