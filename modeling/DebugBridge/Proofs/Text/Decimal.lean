import DebugBridge.Text.Blank
import DebugBridge.Text.Decimal

/-! The front of a text whose characters all have a property, and integers read back as they are shown. -/

set_option autoImplicit false

namespace DebugBridge.Text

section Spans

variable {α : Type}

theorem span_front {p : α → Bool} {front rest : List α} (all : ∀ a ∈ front, p a = true)
    (ends : ∀ a ∈ rest.head?, p a = false) :
    (front ++ rest).takeWhile p = front ∧ (front ++ rest).dropWhile p = rest := by
  rw [List.takeWhile_append_of_pos all, List.dropWhile_append_of_pos all]
  cases rest with
  | nil => exact ⟨List.append_nil front, rfl⟩
  | cons a rest =>
    have stops : p a = false := ends a rfl
    rw [List.takeWhile_cons_of_neg (by simp [stops]), List.dropWhile_cons_of_neg (by simp [stops])]
    exact ⟨List.append_nil front, rfl⟩

theorem head_dropWhile (p : α → Bool) (text : List α) : ∀ a ∈ (text.dropWhile p).head?, p a = false := by
  intro a first
  have kept := List.head?_dropWhile_not p text
  rw [first] at kept
  simpa using kept

theorem all_takeWhile (p : α → Bool) (text : List α) : ∀ a ∈ text.takeWhile p, p a = true :=
  List.all_eq_true.mp List.all_takeWhile

end Spans

namespace Decimal

theorem isDigit_of_mem_digits {n : Nat} {c : Char} (member : c ∈ digits n) : c.isDigit = true :=
  Nat.isDigit_of_mem_toDigits (by decide) (by decide) member

theorem digits_eq_cons (n : Nat) : ∃ c rest, digits n = c :: rest ∧ c.isDigit = true := by
  cases shown : digits n with
  | nil => exact absurd shown Nat.toDigits_ne_nil
  | cons c rest => exact ⟨c, rest, rfl, isDigit_of_mem_digits (n := n) (by simp [shown])⟩

theorem ne_of_isDigit {c other : Char} (digit : c.isDigit = true) (none : other.isDigit = false) : c ≠ other := by
  rintro rfl
  rw [none] at digit
  cases digit

theorem isDigit_range {c : Char} (digit : c.isDigit = true) : 48 ≤ c.toNat ∧ c.toNat ≤ 57 := by
  simp only [Char.isDigit, Bool.and_eq_true, decide_eq_true_eq] at digit
  exact ⟨UInt32.le_iff_toNat_le.mp digit.1, UInt32.le_iff_toNat_le.mp digit.2⟩

theorem isBlank_digit {c : Char} (digit : c.isDigit = true) : isBlank c = false := by
  obtain ⟨least, greatest⟩ := isDigit_range digit
  exact isBlank_printable (by omega) (by omega)

theorem mem_showInt {i : Int} {c : Char} (member : c ∈ (showInt i).toList) : c.isDigit = true ∨ c = '-' := by
  cases i with
  | ofNat n =>
    rw [showInt, showNat, String.toList_ofList] at member
    exact .inl (isDigit_of_mem_digits member)
  | negSucc n =>
    rw [showInt, String.toList_ofList, List.mem_cons] at member
    exact member.symm.imp_left isDigit_of_mem_digits

theorem not_mem_showNat {c : Char} (noDigit : c.isDigit = false) (n : Nat) : c ∉ (showNat n).toList := by
  rw [showNat, String.toList_ofList]
  intro member
  exact ne_of_isDigit (isDigit_of_mem_digits member) noDigit rfl

theorem not_mem_showInt64 {c : Char} (noDigit : c.isDigit = false) (noMinus : c ≠ '-') (i : Int64) :
    c ∉ (showInt64 i).toList := by
  intro member
  rcases mem_showInt member with digit | minus
  · exact ne_of_isDigit digit noDigit rfl
  · exact noMinus minus

theorem showInt_eq_cons (i : Int) : ∃ c rest, (showInt i).toList = c :: rest := by
  cases i with
  | ofNat n =>
    obtain ⟨c, rest, shown, -⟩ := digits_eq_cons n
    exact ⟨c, rest, by rw [showInt, showNat, String.toList_ofList, shown]⟩
  | negSucc n => exact ⟨'-', digits (n + 1), by rw [showInt, String.toList_ofList]⟩

theorem le_ofDigitChars (text : List Char) (value : Nat) : value ≤ Nat.ofDigitChars 10 text value := by
  rw [Nat.ofDigitChars_eq_ofDigitChars_zero]
  exact Nat.le_trans (Nat.le_mul_of_pos_left value (Nat.pow_pos (by decide))) (Nat.le_add_right _ _)

theorem accumulate_digits {limit value : Nat} {outside : Fault} {text : List Char}
    (only : ∀ c ∈ text, c.isDigit = true) (fits : Nat.ofDigitChars 10 text value ≤ limit) :
    accumulate limit outside value text = .ok (Nat.ofDigitChars 10 text value) := by
  induction text generalizing value with
  | nil => rfl
  | cons c rest ih =>
    rw [List.forall_mem_cons] at only
    rw [Nat.ofDigitChars_cons, Nat.mul_comm] at fits ⊢
    have next : value * 10 + digitValue c ≤ limit := Nat.le_trans (le_ofDigitChars rest _) fits
    simp only [accumulate, if_pos only.1, if_pos next]
    exact ih only.2 fits

/-- Digits are read just if they stay below the limit; on the way their value only grows. -/
theorem accumulate_eq_ok_iff {limit value n : Nat} {outside : Fault} {text : List Char} (start : value ≤ limit) :
    accumulate limit outside value text = .ok n ↔
      (∀ c ∈ text, c.isDigit = true) ∧ Nat.ofDigitChars 10 text value = n ∧ n ≤ limit := by
  constructor
  · intro read
    induction text generalizing value with
    | nil =>
      obtain rfl := Except.ok.inj read
      exact ⟨List.forall_mem_nil _, rfl, start⟩
    | cons c rest ih =>
      rw [accumulate] at read
      split at read
      · next digit =>
        dsimp only at read
        split at read
        · next fits =>
          obtain ⟨digits, same, below⟩ := ih fits read
          refine ⟨List.forall_mem_cons.mpr ⟨digit, digits⟩, ?_, below⟩
          rwa [Nat.ofDigitChars_cons, Nat.mul_comm]
        · cases read
      · cases read
  · rintro ⟨only, rfl, fits⟩
    exact accumulate_digits only fits

def Numeral (text : List Char) (n : Nat) : Prop :=
  ∃ digits, (text = digits ∨ text = '+' :: digits) ∧ digits ≠ [] ∧ (∀ c ∈ digits, c.isDigit = true) ∧
    Nat.ofDigitChars 10 digits 0 = n

theorem numeral_signed {digits : List Char} {n : Nat} : Numeral ('+' :: digits) n ↔
    digits ≠ [] ∧ (∀ c ∈ digits, c.isDigit = true) ∧ Nat.ofDigitChars 10 digits 0 = n := by
  constructor
  · rintro ⟨_, rfl | same, nonempty, only, value⟩
    · cases only '+' List.mem_cons_self
    · obtain rfl := (List.cons.inj same).2
      exact ⟨nonempty, only, value⟩
  · exact fun ⟨nonempty, only, value⟩ => ⟨digits, .inr rfl, nonempty, only, value⟩

theorem numeral_plain {digits : List Char} {n : Nat} (plain : ∀ rest, digits ≠ '+' :: rest) : Numeral digits n ↔
    digits ≠ [] ∧ (∀ c ∈ digits, c.isDigit = true) ∧ Nat.ofDigitChars 10 digits 0 = n := by
  constructor
  · rintro ⟨_, rfl | same, nonempty, only, value⟩
    · exact ⟨nonempty, only, value⟩
    · exact absurd same (plain _)
  · exact fun ⟨nonempty, only, value⟩ => ⟨digits, .inl rfl, nonempty, only, value⟩

theorem readUnsigned_eq_ok_iff {limit n : Nat} {text : List Char} :
    readUnsigned limit text = .ok n ↔ Numeral text n ∧ n ≤ limit := by
  have start : 0 ≤ limit := Nat.zero_le limit
  unfold readUnsigned
  split
  · simp [numeral_plain]
  · simp [numeral_signed]
  · next digits nonempty =>
    have nonempty : digits ≠ [] := nonempty
    simp [accumulate_eq_ok_iff start, numeral_signed, nonempty, and_assoc]
  · next nonempty _ plain =>
    have nonempty : text ≠ [] := nonempty
    simp [accumulate_eq_ok_iff start, numeral_plain plain, nonempty, and_assoc]

theorem accumulate_shown {limit n : Nat} (outside : Fault) (fits : n ≤ limit) :
    accumulate limit outside 0 (digits n) = .ok n := by
  have value : Nat.ofDigitChars 10 (digits n) 0 = n := Nat.ofDigitChars_ten_toDigits
  rw [accumulate_digits (fun _ => isDigit_of_mem_digits) (Nat.le_trans (Nat.le_of_eq value) fits), value]

theorem readUnsigned_digits {limit n : Nat} (fits : n ≤ limit) : readUnsigned limit (digits n) = .ok n := by
  obtain ⟨c, rest, shown, digit⟩ := digits_eq_cons n
  have plus : c ≠ '+' := ne_of_isDigit digit rfl
  rw [← accumulate_shown .tooLarge fits, shown]
  unfold readUnsigned
  split <;> simp_all

theorem readSigned_shown {limit : Nat} {i : Int} (above : -(limit : Int) - 1 ≤ i) (below : i ≤ limit) :
    readSigned limit (showInt i).toList = .ok i := by
  cases i with
  | ofNat n =>
    obtain ⟨c, rest, shown, digit⟩ := digits_eq_cons n
    have minus : c ≠ '-' := ne_of_isDigit digit rfl
    have fits : n ≤ limit := Int.ofNat_le.mp below
    have unsigned : readSigned limit (digits n) = (readUnsigned limit (digits n)).map Int.ofNat := by
      rw [shown]
      unfold readSigned
      split <;> simp_all
    rw [showInt, showNat, String.toList_ofList, unsigned, readUnsigned_digits fits]
    rfl
  | negSucc n =>
    have fits : n + 1 ≤ limit + 1 := by omega
    obtain ⟨c, rest, shown, -⟩ := digits_eq_cons (n + 1)
    have value := accumulate_shown .tooSmall fits
    rw [shown] at value
    simp only [showInt, String.toList_ofList, shown, readSigned, value]
    rfl

theorem readInt64_showInt64 (i : Int64) : readInt64 (showInt64 i) = .ok i := by
  have above := i.le_toInt
  have below := i.toInt_lt
  rw [readInt64, showInt64, readSigned_shown (by omega) (by omega)]
  exact congrArg Except.ok (Int64.ofInt_toInt i)

theorem readUInt64_showNat (n : UInt64) : readUInt64 (showNat n.toNat) = .ok n := by
  have below := n.toNat_lt
  rw [readUInt64, showNat, String.toList_ofList, readUnsigned_digits (by omega)]
  exact congrArg Except.ok UInt64.ofNat_toNat

end Decimal

end DebugBridge.Text
