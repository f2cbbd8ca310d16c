import DebugBridge.Engine.Command
import DebugBridge.Proofs.Text.Decimal
import DebugBridge.Text.Separated

/-! Commands as an engine can read them. A stream of lines tells which commands it was made of, and so no other commands
are sent as the same text. -/

set_option autoImplicit false

namespace DebugBridge.Engine.Command

open Text.Decimal (readInt64 readUInt64 showInt64 showNat)

/-- A file stands between spaces and only a text at the end of a line may contain them. No field may end the line. -/
def Sendable : Command → Prop
  | .setBreakpoint file _ _ condition =>
    ' ' ∉ file.toList ∧ '\n' ∉ file.toList ∧ ∀ text ∈ condition, '\n' ∉ text.toList
  | .clearBreakpoint file _ => ' ' ∉ file.toList ∧ '\n' ∉ file.toList
  | .evaluate _ _ expression | .evaluateOnConsole expression => '\n' ∉ expression.toList
  | .resume | .stepOver | .stepIn | .stepOut => True

instance : DecidablePred Sendable
  | .setBreakpoint file _ _ condition => inferInstanceAs
      (Decidable (' ' ∉ file.toList ∧ '\n' ∉ file.toList ∧ ∀ text ∈ condition, '\n' ∉ text.toList))
  | .clearBreakpoint file _ => inferInstanceAs (Decidable (' ' ∉ file.toList ∧ '\n' ∉ file.toList))
  | .evaluate _ _ expression | .evaluateOnConsole expression =>
    inferInstanceAs (Decidable ('\n' ∉ expression.toList))
  | .resume | .stepOver | .stepIn | .stepOut => .isTrue trivial

/-- A command with its condition as it is sent: none is sent as `true`. -/
def explicit : Command → Command
  | .setBreakpoint file line hitCount condition =>
    .setBreakpoint file line hitCount (some (conditionText condition))
  | command => command

theorem encode_explicit (command : Command) : command.explicit.encode = command.encode := by
  cases command <;> rfl

/-! ## Reading -/

def int64? (field : List Char) : Option Int64 := (readInt64 (String.ofList field)).toOption

def uint64? (field : List Char) : Option UInt64 := (readUInt64 (String.ofList field)).toOption

def ofFields : List (List Char) → Option Command
  | [] => none
  | verb :: fields =>
    match String.ofList verb, fields with
    | "BRKSET", file :: line :: _ :: hitCount :: condition => do
      let line ← int64? line
      let hitCount ← int64? hitCount
      return .setBreakpoint (String.ofList file) line hitCount (some (String.ofList (Text.join ' ' condition)))
    | "BRKCLR", [file, line] => (int64? line).map (.clearBreakpoint (String.ofList file))
    | "EVAL", tag :: frame :: expression =>
      (uint64? tag).map fun tag =>
        .evaluate tag (Nat.ofDigitChars 10 frame 0) (String.ofList (Text.join ' ' expression))
    | "CEVAL", expression => some (.evaluateOnConsole (String.ofList (Text.join ' ' expression)))
    | "CONTINUE", [] => some .resume
    | "STEPOVER", [] => some .stepOver
    | "STEPIN", [] => some .stepIn
    | "STEPOUT", [] => some .stepOut
    | _, _ => none

def received (text : String) : List (Option Command) :=
  (Text.split '\n' text.toList).dropLast.map fun line => ofFields (Text.split ' ' line)

theorem int64?_shown (i : Int64) : int64? (showInt64 i).toList = some i := by
  rw [int64?, String.ofList_toList, Text.Decimal.readInt64_showInt64]
  rfl

theorem uint64?_shown (n : UInt64) : uint64? (showNat n.toNat).toList = some n := by
  rw [uint64?, String.ofList_toList, Text.Decimal.readUInt64_showNat]
  rfl

theorem ofDigitChars_shown (n : Nat) : Nat.ofDigitChars 10 (showNat n).toList 0 = n := by
  rw [showNat, String.toList_ofList]
  exact Nat.ofDigitChars_ten_toDigits

/-! ## Lines -/

theorem split_space {field : List Char} (free : ' ' ∉ field) (text : List Char) :
    Text.split ' ' (field ++ ' ' :: text) = field :: Text.split ' ' text :=
  Text.split_append_separator free text

/-- What is sent of a command tells the command. -/
theorem ofFields_line {command : Command} (sendable : command.Sendable) :
    -- numbers hold no spaces, so each field ends at the first one behind it
    ofFields (Text.split ' ' command.line.toList) = some command.explicit := by
  have shown (i : Int64) : ' ' ∉ (showInt64 i).toList := Text.Decimal.not_mem_showInt64 (by decide) (by decide) i
  have digits (n : Nat) : ' ' ∉ (showNat n).toList := Text.Decimal.not_mem_showNat (by decide) n
  cases command with
  | setBreakpoint file line hitCount condition =>
    have parts : Text.split ' ' (setBreakpoint file line hitCount condition).line.toList =
        "BRKSET".toList :: file.toList :: (showInt64 line).toList :: "false".toList :: (showInt64 hitCount).toList ::
          Text.split ' ' (conditionText condition).toList := by
      rw [← split_space (shown hitCount), ← split_space (by decide), ← split_space (shown line),
        ← split_space sendable.1, ← split_space (by decide)]
      simp [Command.line]
    simp [parts, ofFields, int64?_shown, Text.join_split, explicit]
  | clearBreakpoint file line =>
    have parts : Text.split ' ' (clearBreakpoint file line).line.toList =
        ["BRKCLR".toList, file.toList, (showInt64 line).toList] := by
      rw [← Text.split_eq_singleton (shown line), ← split_space sendable.1, ← split_space (by decide)]
      simp [Command.line]
    simp [parts, ofFields, int64?_shown, explicit]
  | evaluate tag frame expression =>
    have parts : Text.split ' ' (evaluate tag frame expression).line.toList =
        "EVAL".toList :: (showNat tag.toNat).toList :: (showNat frame).toList ::
          Text.split ' ' expression.toList := by
      rw [← split_space (digits frame), ← split_space (digits tag.toNat), ← split_space (by decide)]
      simp [Command.line]
    simp [parts, ofFields, uint64?_shown, ofDigitChars_shown, Text.join_split, explicit]
  | evaluateOnConsole expression =>
    have parts : Text.split ' ' (evaluateOnConsole expression).line.toList =
        "CEVAL".toList :: Text.split ' ' expression.toList := by
      rw [← split_space (by decide)]
      simp [Command.line]
    simp [parts, ofFields, Text.join_split, explicit]
  | resume | stepOver | stepIn | stepOut => decide

theorem lineFeed_not_mem_line {command : Command} (sendable : command.Sendable) : '\n' ∉ command.line.toList := by
  have shown (i : Int64) : '\n' ∉ (showInt64 i).toList := Text.Decimal.not_mem_showInt64 (by decide) (by decide) i
  have digits (n : Nat) : '\n' ∉ (showNat n).toList := Text.Decimal.not_mem_showNat (by decide) n
  cases command with
  | setBreakpoint file line hitCount condition =>
    obtain ⟨-, named, stated⟩ := sendable
    have condition : '\n' ∉ (conditionText condition).toList := by
      cases condition with
      | none => decide
      | some text => exact stated text rfl
    simp [Command.line, named, shown, condition]
  | clearBreakpoint file line => simp [Command.line, sendable.2, shown]
  | evaluate tag frame expression =>
    have free : '\n' ∉ expression.toList := sendable
    simp [Command.line, digits, free]
  | evaluateOnConsole expression =>
    have free : '\n' ∉ expression.toList := sendable
    simp [Command.line, free]
  | resume | stepOver | stepIn | stepOut => decide

/-! ## Streams -/

theorem split_encoded {commands : List Command} (sendable : ∀ command ∈ commands, command.Sendable) :
    Text.split '\n' (String.join (commands.map encode)).toList =
      commands.map (fun command => command.line.toList) ++ [[]] := by
  induction commands with
  | nil => rfl
  | cons command rest ih =>
    rw [List.forall_mem_cons] at sendable
    have whole : (String.join ((command :: rest).map encode)).toList =
        command.line.toList ++ '\n' :: (String.join (rest.map encode)).toList := by
      simp [encode]
    rw [whole, Text.split_append_separator (lineFeed_not_mem_line sendable.1), ih sendable.2]
    rfl

theorem received_encoded {commands : List Command} (sendable : ∀ command ∈ commands, command.Sendable) :
    received (String.join (commands.map encode)) = commands.map fun command => some command.explicit := by
  rw [received, split_encoded sendable, List.dropLast_concat, List.map_map]
  exact List.map_congr_left fun command member => ofFields_line (sendable command member)

/-- Two lists of commands are sent as one text only if they are the same commands in the same order. A breakpoint
without a condition alone is sent as another one is. -/
theorem encoded_apart {commands others : List Command} (sendable : ∀ command ∈ commands, command.Sendable)
    (sendableToo : ∀ command ∈ others, command.Sendable) :
    String.join (commands.map encode) = String.join (others.map encode) ↔
      commands.map explicit = others.map explicit := by
  constructor
  · intro same
    have read := congrArg received same
    rw [received_encoded sendable, received_encoded sendableToo] at read
    have values := congrArg (List.filterMap id) read
    simpa [List.filterMap_map] using values
  · intro same
    have resent (list : List Command) : (list.map explicit).map encode = list.map encode := by
      simp [encode_explicit]
    rw [← resent commands, same, resent others]

def lookalikes (frame : Nat) (expression : String) (condition : Option String) : List Command :=
  [.setBreakpoint "" Int64.minValue 0 condition, .evaluateOnConsole "", .evaluateOnConsole " CONTINUE", .resume,
    .evaluate 18446744073709551615 frame expression, .setBreakpoint "größe.cs" 3 (-1) (some "3 false 0 true "),
    .clearBreakpoint "BRKCLR" Int64.maxValue, .stepOut]

theorem encoded_apart_lookalikes :
    let commands := lookalikes 23 " 4\r" none
    let others := lookalikes 2 "3  4\r" (some "true")
    (∀ command ∈ commands, command.Sendable) ∧ (∀ command ∈ others, command.Sendable) ∧
      String.join (commands.map encode) ≠ String.join (others.map encode) := by
  intro commands others
  have sendable : ∀ command ∈ commands, command.Sendable := by decide
  have sendableToo : ∀ command ∈ others, command.Sendable := by decide
  refine ⟨sendable, sendableToo, fun same => ?_⟩
  have alike := (encoded_apart sendable sendableToo).mp same
  exact absurd alike (by decide)

end DebugBridge.Engine.Command
