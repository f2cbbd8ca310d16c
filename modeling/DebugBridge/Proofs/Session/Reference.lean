import DebugBridge.Session.Reference

/-! References to scopes: which scopes have one, and which scope a reference is of. -/

set_option autoImplicit false

namespace DebugBridge.Session.ScopeReference

def number (scope : ScopeReference) : Nat := scope.frame * 10 + scope.kind.digit

theorem ofDigit?_digit (kind : ScopeKind) : ScopeKind.ofDigit? kind.digit = some kind := by cases kind <;> rfl

theorem digit_bounds (kind : ScopeKind) : 0 < kind.digit ∧ kind.digit < 10 := by cases kind <;> decide

theorem encode_of_fits {scope : ScopeReference} (fits : scope.number ≤ 0x7FFFFFFFFFFFFFFF) :
    scope.encode = .ok (Int64.ofInt scope.number) := if_pos fits

theorem encoded {scope : ScopeReference} {reference : Int64} (encodes : scope.encode = .ok reference) :
    reference.toInt = scope.number := by
  unfold encode at encodes
  dsimp only at encodes
  split at encodes
  · next fits =>
    cases encodes
    exact Int64.toInt_ofInt_of_le (by omega) (by omega)
  · cases encodes

theorem decode_encode {scope : ScopeReference} {reference : Int64} (encodes : scope.encode = .ok reference) :
    decode reference = .ok scope := by
  have number := encoded encodes
  have digit := digit_bounds scope.kind
  have positive : ¬ reference < 0 := by
    rw [Int64.lt_iff_toInt_lt, number]
    exact Int.not_lt.mpr (Int.natCast_nonneg _)
  unfold decode
  rw [if_neg positive, number, Int.toNat_natCast]
  have last : scope.number % 10 = scope.kind.digit := by unfold ScopeReference.number; omega
  have rest : scope.number / 10 = scope.frame := by unfold ScopeReference.number; omega
  dsimp only
  rw [last, rest, ofDigit?_digit]

theorem encode_injective {scope other : ScopeReference} {reference : Int64} (encodes : scope.encode = .ok reference)
    (same : other.encode = .ok reference) : other = scope :=
  Except.ok.inj ((decode_encode same).symm.trans (decode_encode encodes))

theorem digit_ofDigit? {n : Nat} {kind : ScopeKind} (found : ScopeKind.ofDigit? n = some kind) : kind.digit = n := by
  unfold ScopeKind.ofDigit? at found
  split at found <;> cases found <;> rfl

theorem exists_ofDigit?_iff {n : Nat} : (∃ kind, ScopeKind.ofDigit? n = some kind) ↔ n = 1 ∨ n = 2 := by
  constructor
  · rintro ⟨kind, found⟩
    rw [← digit_ofDigit? found]
    cases kind with
    | locals => exact .inl rfl
    | globals => exact .inr rfl
  · rintro (rfl | rfl)
    · exact ⟨.locals, rfl⟩
    · exact ⟨.globals, rfl⟩

theorem number_of_decode {scope : ScopeReference} {reference : Int64} (decodes : decode reference = .ok scope) :
    reference.toInt = scope.number := by
  unfold decode at decodes
  split at decodes
  · cases decodes
  · next positive =>
    rw [Int64.lt_iff_toInt_lt, Int.not_lt] at positive
    have natural : reference.toInt.toNat = reference.toInt := Int.toNat_of_nonneg positive
    dsimp only at decodes
    split at decodes
    · next kind found =>
      obtain rfl := Except.ok.inj decodes
      have digit := digit_ofDigit? found
      unfold number
      dsimp only
      omega
    · cases decodes

/-- A scope has a reference just if the reference is of that scope. -/
theorem encode_eq_ok_iff {scope : ScopeReference} {reference : Int64} :
    scope.encode = .ok reference ↔ decode reference = .ok scope := by
  constructor
  · exact decode_encode
  · intro decodes
    have number := number_of_decode decodes
    have fits : scope.number ≤ 0x7FFFFFFFFFFFFFFF := by
      have below := reference.toInt_lt
      omega
    rw [encode_of_fits fits, ← number, Int64.ofInt_toInt]

theorem exists_encode_iff {scope : ScopeReference} :
    (∃ reference, scope.encode = .ok reference) ↔ scope.number ≤ 0x7FFFFFFFFFFFFFFF := by
  constructor
  · rintro ⟨reference, encodes⟩
    have number := encoded encodes
    have below := reference.toInt_lt
    omega
  · exact fun fits => ⟨_, encode_of_fits fits⟩

theorem exists_decode_iff {reference : Int64} : (∃ scope, decode reference = .ok scope) ↔
    0 ≤ reference.toInt ∧ (reference.toInt % 10 = 1 ∨ reference.toInt % 10 = 2) := by
  constructor
  · rintro ⟨scope, decodes⟩
    have number := number_of_decode decodes
    have bounds : scope.kind.digit = 1 ∨ scope.kind.digit = 2 := by cases scope.kind <;> decide
    unfold ScopeReference.number at number
    omega
  · rintro ⟨positive, last⟩
    obtain ⟨kind, found⟩ : ∃ kind, ScopeKind.ofDigit? (reference.toInt.toNat % 10) = some kind :=
      exists_ofDigit?_iff.mpr (by omega)
    have unsigned : ¬ reference < 0 := by
      rw [Int64.lt_iff_toInt_lt, Int.not_lt]
      exact positive
    refine ⟨⟨reference.toInt.toNat / 10, kind⟩, ?_⟩
    unfold decode
    rw [if_neg unsigned]
    dsimp only
    rw [found]

/-! ## Words of 64 bits -/

def word? (n : Int) : Option Int64 :=
  if -0x8000000000000000 ≤ n ∧ n ≤ 0x7FFFFFFFFFFFFFFF then some (Int64.ofInt n) else none

/-- The reference made in words: the frame must be one, ten times the frame, and the sum. -/
def stepwise (frame : UInt64) (kind : ScopeKind) : Option Int64 := do
  let frame ← word? frame.toNat
  let base ← word? (frame.toInt * 10)
  word? (base.toInt + kind.digit)

theorem word?_natural (n : Nat) :
    word? n = if n ≤ 0x7FFFFFFFFFFFFFFF then some (Int64.ofInt n) else none := by
  unfold word?
  split <;> split <;> first | rfl | omega

theorem toInt_word? {n : Nat} (fits : n ≤ 0x7FFFFFFFFFFFFFFF) : (Int64.ofInt n).toInt = n :=
  Int64.toInt_ofInt_of_le (by omega) (by omega)

/-- Wherever a word would be left on the way, the whole is too large. -/
theorem encode_stepwise (frame : UInt64) (kind : ScopeKind) : encode ⟨frame.toNat, kind⟩ =
    (stepwise frame kind).elim (.error (.tooLarge frame.toNat)) .ok := by
  have digit := digit_bounds kind
  have whole : encode ⟨frame.toNat, kind⟩ = (word? (frame.toNat * 10 + kind.digit : Nat)).elim
      (.error (.tooLarge frame.toNat)) .ok := by
    rw [word?_natural]
    unfold encode
    dsimp only
    split <;> rfl
  rw [whole]
  congr 1
  unfold stepwise
  by_cases narrow : frame.toNat ≤ 0x7FFFFFFFFFFFFFFF
  · have ten : (frame.toNat : Int) * 10 = (frame.toNat * 10 : Nat) := (Int.natCast_mul _ _).symm
    rw [word?_natural frame.toNat, if_pos narrow, Option.bind_eq_bind, Option.bind_some, toInt_word? narrow, ten]
    by_cases product : frame.toNat * 10 ≤ 0x7FFFFFFFFFFFFFFF
    · rw [word?_natural (frame.toNat * 10), if_pos product, Option.bind_some, toInt_word? product, Int.natCast_add]
    · rw [word?_natural, if_neg (by omega), word?_natural, if_neg product]
      rfl
  · rw [word?_natural, if_neg (by omega), word?_natural, if_neg narrow]
    rfl

/-- Where the reference is not negative, its quotient and remainder are those of the number it is. -/
theorem decode_stepwise (reference : Int64) : decode reference =
    if reference < 0 then .error (.invalid reference)
    else ((ScopeKind.ofDigit? (reference % 10).toInt.toNat).map
      fun kind => ScopeReference.mk (reference / 10).toInt.toNat kind).elim (.error (.invalid reference)) .ok := by
  have ten : (10 : Int64).toInt = 10 := rfl
  unfold decode
  split
  · rfl
  · next unsigned =>
    have positive : 0 ≤ reference.toInt := by
      rw [Int64.lt_iff_toInt_lt] at unsigned
      exact Int.not_lt.mp unsigned
    have remainder : (reference % 10).toInt.toNat = reference.toInt.toNat % 10 := by
      rw [Int64.toInt_mod, ten, Int.tmod_eq_emod_of_nonneg positive]
      omega
    have quotient : (reference / 10).toInt.toNat = reference.toInt.toNat / 10 := by
      rw [Int64.toInt_div_of_ne_right _ _ (by decide), ten, Int.tdiv_eq_ediv_of_nonneg positive]
      omega
    rw [remainder, quotient]
    dsimp only
    cases ScopeKind.ofDigit? (reference.toInt.toNat % 10) <;> rfl

/-- Scopes and references are paired off: the scopes whose number is a word, with the references that are not negative
and end in the digit of a kind. -/
theorem references_bijective (scope other : ScopeReference) (reference : Int64) :
    ((∃ found, scope.encode = .ok found) ↔ scope.frame * 10 + scope.kind.digit ≤ 0x7FFFFFFFFFFFFFFF) ∧
      ((∃ found, decode reference = .ok found) ↔
        0 ≤ reference.toInt ∧ (reference.toInt % 10 = 1 ∨ reference.toInt % 10 = 2)) ∧
      (scope.encode = .ok reference ↔ decode reference = .ok scope) ∧
      (scope.encode = .ok reference ∧ other.encode = .ok reference → scope = other) :=
  ⟨exists_encode_iff, exists_decode_iff, encode_eq_ok_iff, fun ⟨encodes, same⟩ => encode_injective same encodes⟩

end DebugBridge.Session.ScopeReference
