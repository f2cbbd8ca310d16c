import DebugBridge.Breakpoint.Table
import DebugBridge.Proofs.Text.Decimal

/-! The hit count that a breakpoint is set with is the integer that its hit condition begins with. The least integer of
64 bits alone is not reached: its digits, without their sign, are one too many for 63 bits. -/

set_option autoImplicit false

namespace DebugBridge.Breakpoint

open Text (isBlank span_front head_dropWhile all_takeWhile)

inductive Sign where
  | absent
  | plus
  | minus
  deriving DecidableEq

namespace Sign

def text : Sign → List Char
  | absent => []
  | plus => ['+']
  | minus => ['-']

def apply : Sign → Nat → Int
  | absent, n | plus, n => n
  | minus, n => -n

end Sign

inductive Begins : List Char → Int → Prop where
  | integer {blanks digits rest : List Char} (sign : Sign) (blank : ∀ c ∈ blanks, isBlank c = true)
    (nonempty : digits ≠ []) (only : ∀ c ∈ digits, c.isDigit = true) (ends : ∀ c ∈ rest.head?, c.isDigit = false) :
    Begins (blanks ++ (sign.text ++ (digits ++ rest))) (sign.apply (Nat.ofDigitChars 10 digits 0))

/-! ## Reading -/

def Unsigned (text : List Char) : Prop := ∀ c ∈ text.head?, c ≠ '-' ∧ c ≠ '+'

theorem exists_sign (body : List Char) :
    ∃ (sign : Sign) (unsigned : List Char), body = sign.text ++ unsigned ∧ (sign = .absent → Unsigned unsigned) := by
  cases body with
  | nil => exact ⟨.absent, [], rfl, fun _ c first => by cases first⟩
  | cons c rest =>
    by_cases minus : c = '-'
    · exact ⟨.minus, rest, by rw [minus]; rfl, fun absent => by cases absent⟩
    by_cases plus : c = '+'
    · exact ⟨.plus, rest, by rw [plus]; rfl, fun absent => by cases absent⟩
    · refine ⟨.absent, c :: rest, rfl, fun _ d first => ?_⟩
      obtain rfl := Option.some.inj first
      exact ⟨minus, plus⟩

/-- One sign is taken off, and the digits behind it are read by themselves. -/
theorem leadingInteger_signed {text unsigned : List Char} {sign : Sign}
    (body : Text.trimStart text = sign.text ++ unsigned) (plain : sign = .absent → Unsigned unsigned) :
    leadingInteger text =
      match Text.Decimal.readUnsigned (0x7FFFFFFFFFFFFFFF) (unsigned.takeWhile Char.isDigit) with
      | .ok n => Int64.ofInt (sign.apply n)
      | .error _ => 0 := by
  unfold leadingInteger
  rw [body]
  cases sign with
  | minus => rfl
  | plus => rfl
  | absent =>
    have noMinus : unsigned.head? ≠ some '-' := fun first => (plain rfl '-' first).1 rfl
    have noPlus : unsigned.head? ≠ some '+' := fun first => (plain rfl '+' first).2 rfl
    simp only [Sign.text, List.nil_append, noMinus, noPlus, or_self, if_false]
    rfl

theorem readUnsigned_only {digits : List Char} (nonempty : digits ≠ []) (only : ∀ c ∈ digits, c.isDigit = true)
    {n : Nat} : Text.Decimal.readUnsigned (0x7FFFFFFFFFFFFFFF) digits = .ok n ↔
      Nat.ofDigitChars 10 digits 0 = n ∧ n ≤ 0x7FFFFFFFFFFFFFFF := by
  have plain : ∀ rest, digits ≠ '+' :: rest := by
    rintro rest rfl
    cases only '+' List.mem_cons_self
  rw [Text.Decimal.readUnsigned_eq_ok_iff, Text.Decimal.numeral_plain plain]
  exact ⟨fun ⟨⟨_, _, value⟩, fits⟩ => ⟨value, fits⟩, fun ⟨value, fits⟩ => ⟨⟨nonempty, only, value⟩, fits⟩⟩

theorem trimStart_begins {blanks digits rest : List Char} (sign : Sign) (blank : ∀ c ∈ blanks, isBlank c = true)
    (nonempty : digits ≠ []) (only : ∀ c ∈ digits, c.isDigit = true) :
    Text.trimStart (blanks ++ (sign.text ++ (digits ++ rest))) = sign.text ++ (digits ++ rest) := by
  obtain ⟨c, digits, rfl⟩ := List.exists_cons_of_ne_nil nonempty
  have digit := Text.Decimal.isBlank_digit (only c List.mem_cons_self)
  refine (span_front blank fun d first => ?_).2
  cases sign <;> obtain rfl := Option.some.inj first
  · exact digit
  · rfl
  · rfl

theorem leadingInteger_begins {text : List Char} {i : Int} (begins : Begins text i) :
    (leadingInteger text).toInt = if i.natAbs ≤ 0x7FFFFFFFFFFFFFFF then i else 0 := by
  obtain @⟨blanks, digits, rest, sign, blank, nonempty, only, ends⟩ := begins
  have unsigned : sign = .absent → Unsigned (digits ++ rest) := by
    rintro -
    obtain ⟨c, digits, rfl⟩ := List.exists_cons_of_ne_nil nonempty
    intro d first
    obtain rfl := Option.some.inj first
    have digit := only c List.mem_cons_self
    exact ⟨Text.Decimal.ne_of_isDigit digit rfl, Text.Decimal.ne_of_isDigit digit rfl⟩
  rw [leadingInteger_signed (trimStart_begins sign blank nonempty only) unsigned, (span_front only ends).1]
  generalize value : Nat.ofDigitChars 10 digits 0 = n
  have magnitude : (sign.apply n).natAbs = n := by cases sign <;> simp [Sign.apply]
  rw [magnitude]
  cases read : Text.Decimal.readUnsigned (0x7FFFFFFFFFFFFFFF) digits with
  | ok m =>
    obtain ⟨same, fits⟩ := (readUnsigned_only nonempty only).mp read
    obtain rfl : n = m := value.symm.trans same
    rw [if_pos fits]
    exact Int64.toInt_ofInt_of_le (by omega) (by omega)
  | error fault =>
    have beyond : ¬ n ≤ 0x7FFFFFFFFFFFFFFF := by
      intro fits
      cases read.symm.trans ((readUnsigned_only nonempty only).mpr ⟨value, fits⟩)
    rw [if_neg beyond]
    rfl

theorem leadingInteger_none {text : List Char} (none : ∀ i, ¬ Begins text i) : leadingInteger text = 0 := by
  obtain ⟨sign, unsigned, body, plain⟩ := exists_sign (Text.trimStart text)
  rw [leadingInteger_signed body plain]
  -- with a digit here, the text would begin with an integer
  have empty : unsigned.takeWhile Char.isDigit = [] := by
    refine Classical.byContradiction fun nonempty => ?_
    have begins := Begins.integer sign (all_takeWhile isBlank text) nonempty (all_takeWhile Char.isDigit unsigned)
      (head_dropWhile Char.isDigit unsigned)
    rw [List.takeWhile_append_dropWhile, ← body, Text.trimStart, List.takeWhile_append_dropWhile] at begins
    exact none _ begins
  rw [empty]
  rfl

/-- A breakpoint is set with the integer that its hit condition begins with, if its digits are a number of 63 bits, and
with 0 in every other case. -/
theorem command_hitCount (file : String) (line : Int64) (id : Nat) (condition : Option String) (hitCondition : String) :
    ∃ count, Location.command file ⟨id, line, condition, some hitCondition⟩ =
        .setBreakpoint file line count (condition.filter fun condition => condition != "") ∧
      (∀ i, Begins hitCondition.toList i → count.toInt = if i.natAbs ≤ 0x7FFFFFFFFFFFFFFF then i else 0) ∧
      ((∀ i, ¬ Begins hitCondition.toList i) → count.toInt = 0) := by
  refine ⟨leadingInteger hitCondition.toList, rfl, fun i begins => leadingInteger_begins begins, fun none => ?_⟩
  rw [leadingInteger_none none]
  rfl

/-- The least integer of 64 bits is read as none. -/
theorem command_hitCount_least : ¬ ∀ (hitCondition : String) (i : Int), Begins hitCondition.toList i →
    -0x8000000000000000 ≤ i ∧ i ≤ 0x7FFFFFFFFFFFFFFF →
    ∃ count, Location.command "a.cs" ⟨0, 1, none, some hitCondition⟩ = .setBreakpoint "a.cs" 1 count none ∧
      count.toInt = i := by
  intro counted
  have begins : Begins ("-9223372036854775808").toList (-0x8000000000000000) :=
    @Begins.integer [] "9223372036854775808".toList [] .minus (by simp) (by simp) (List.all_eq_true.mp rfl) (by simp)
  obtain ⟨count, command, least⟩ := counted "-9223372036854775808" (-0x8000000000000000) begins (by omega)
  obtain ⟨-, -, same, -⟩ := Engine.Command.setBreakpoint.inj command
  have none : count.toInt = 0 := by
    rw [← same]
    exact (leadingInteger_begins begins).trans (if_neg (by omega))
  omega

end DebugBridge.Breakpoint
