import DebugBridge.Text.Utf8
import Mathlib.Tactic.IntervalCases

/-! What is encoded is decoded to itself, and octets below 80 stand for themselves alone. -/

set_option autoImplicit false

namespace DebugBridge.Text.Utf8

theorem encodeChar_ascii {c : Char} (ascii : c.toNat < 0x80) : encodeChar c = [UInt8.ofNat c.toNat] := by
  simp only [encodeChar, if_pos ascii]

theorem toNat_octet {n : Nat} (below : n < 0x100) : (UInt8.ofNat n).toNat = n :=
  UInt8.toNat_ofNat_of_lt' below

theorem code_range (c : Char) : c.toNat < 0xD800 ∨ 0xDFFF < c.toNat ∧ c.toNat < 0x110000 := c.valid

theorem encodeChar_high {c : Char} (high : 0x80 ≤ c.toNat) : ∀ octet ∈ encodeChar c, 0x80 ≤ octet.toNat := by
  have range := code_range c
  intro octet member
  simp only [encodeChar, if_neg (Nat.not_lt.mpr high)] at member
  split at member
  · simp only [List.mem_cons, List.not_mem_nil, or_false] at member
    rcases member with rfl | rfl <;> rw [toNat_octet (by omega)] <;> omega
  · split at member <;> simp only [List.mem_cons, List.not_mem_nil, or_false] at member
    · rcases member with rfl | rfl | rfl <;> rw [toNat_octet (by omega)] <;> omega
    · rcases member with rfl | rfl | rfl | rfl <;> rw [toNat_octet (by omega)] <;> omega

theorem encodeChars_cons (c : Char) (text : List Char) :
    encodeChars (c :: text) = encodeChar c ++ encodeChars text :=
  List.flatMap_cons

theorem encodeChars_append (text more : List Char) :
    encodeChars (text ++ more) = encodeChars text ++ encodeChars more :=
  List.flatMap_append

theorem encode_append (text more : String) : encode (text ++ more) = encode text ++ encode more := by
  rw [encode, String.toList_append, encodeChars_append, encode, encode]

/-- The octet of an ASCII character occurs in the encoding of no other one. -/
theorem octet_mem_encodeChar {c other : Char} (ascii : c.toNat < 0x80) :
    UInt8.ofNat c.toNat ∈ encodeChar other ↔ c = other := by
  by_cases low : other.toNat < 0x80
  · rw [encodeChar_ascii low, List.mem_singleton]
    constructor
    · intro same
      have same := congrArg UInt8.toNat same
      rw [toNat_octet (by omega), toNat_octet (by omega)] at same
      rw [← Char.ofNat_toNat c, same, Char.ofNat_toNat]
    · rintro rfl
      rfl
  · constructor
    · intro member
      have high := encodeChar_high (Nat.not_lt.mp low) _ member
      rw [toNat_octet (by omega)] at high
      omega
    · rintro rfl
      exact absurd ascii low

theorem octet_mem_encodeChars {c : Char} (ascii : c.toNat < 0x80) (text : List Char) :
    UInt8.ofNat c.toNat ∈ encodeChars text ↔ c ∈ text := by
  simp only [encodeChars, List.mem_flatMap, octet_mem_encodeChar ascii]
  simp

/-! ## Decoding -/

theorem start_two {high : Nat} (least : 2 ≤ high) (greatest : high < 0x20) :
    start (UInt8.ofNat (0xC0 + high)) = .unfinished ⟨1, 0x80, 0xBF, high⟩ := by
  interval_cases high <;> rfl

theorem start_three {high : Nat} (greatest : high < 0x10) :
    start (UInt8.ofNat (0xE0 + high)) =
      .unfinished ⟨2, if high = 0 then 0xA0 else 0x80, if high = 0xD then 0x9F else 0xBF, high⟩ := by
  interval_cases high <;> rfl

theorem start_four {high : Nat} (greatest : high < 5) :
    start (UInt8.ofNat (0xF0 + high)) =
      .unfinished ⟨3, if high = 0 then 0x90 else 0x80, if high = 4 then 0x8F else 0xBF, high⟩ := by
  interval_cases high <;> rfl

theorem piecesFrom_unfinished {octet : UInt8} {u : Unfinished} (begins : start octet = .unfinished u)
    (rest : List UInt8) : piecesFrom none (octet :: rest) = piecesFrom (some u) rest := by
  simp only [piecesFrom, begins]

theorem piecesFrom_last {low high code n : Nat} (rest : List UInt8) (least : low ≤ 0x80 + n)
    (greatest : 0x80 + n ≤ high) (octet : n < 0x80) :
    piecesFrom (some ⟨1, low, high, code⟩) (UInt8.ofNat (0x80 + n) :: rest) =
      .char (Char.ofNat (code * 64 + n)) :: piecesFrom none rest := by
  have value := toNat_octet (n := 0x80 + n) (by omega)
  simp only [piecesFrom, value, if_pos (And.intro least greatest), Nat.le_refl, if_true, Nat.add_sub_cancel_left]

theorem piecesFrom_next {owed low high code n : Nat} (rest : List UInt8) (least : low ≤ 0x80 + n)
    (greatest : 0x80 + n ≤ high) (octet : n < 0x80) :
    piecesFrom (some ⟨owed + 2, low, high, code⟩) (UInt8.ofNat (0x80 + n) :: rest) =
      piecesFrom (some ⟨owed + 1, 0x80, 0xBF, code * 64 + n⟩) rest := by
  have value := toNat_octet (n := 0x80 + n) (by omega)
  simp only [piecesFrom, value, if_pos (And.intro least greatest), Nat.add_sub_cancel_left]
  rw [if_neg (by omega)]
  rfl

theorem piecesFrom_encodeChar (c : Char) (rest : List UInt8) :
    piecesFrom none (encodeChar c ++ rest) = .char c :: piecesFrom none rest := by
  have range := code_range c
  have whole {n : Nat} (same : n = c.toNat) : Char.ofNat n = c := by rw [same, Char.ofNat_toNat]
  unfold encodeChar
  extract_lets n
  have named : n = c.toNat := rfl
  split
  · have value := toNat_octet (n := n) (by omega)
    simp only [List.cons_append, List.nil_append, piecesFrom, start, value]
    rw [if_pos (by assumption), whole named]
  split
  · simp only [List.cons_append, List.nil_append]
    rw [piecesFrom_unfinished (start_two (by omega) (by omega)),
      piecesFrom_last rest (by omega) (by omega) (by omega), whole (by omega)]
  split
  · simp only [List.cons_append, List.nil_append]
    rw [piecesFrom_unfinished (start_three (by omega)),
      piecesFrom_next _ (by split <;> omega) (by split <;> omega) (by omega),
      piecesFrom_last rest (by omega) (by omega) (by omega), whole (by omega)]
  · simp only [List.cons_append, List.nil_append]
    rw [piecesFrom_unfinished (start_four (by omega)),
      piecesFrom_next _ (by split <;> omega) (by split <;> omega) (by omega),
      piecesFrom_next _ (by omega) (by omega) (by omega),
      piecesFrom_last rest (by omega) (by omega) (by omega), whole (by omega)]

theorem pieces_encodeChars (text : List Char) : pieces (encodeChars text) = text.map .char := by
  induction text with
  | nil => rfl
  | cons c text ih =>
    rw [encodeChars_cons, pieces, piecesFrom_encodeChar, ← pieces, ih, List.map_cons]

theorem decode?_encodeChars (text : List Char) : decode? (encodeChars text) = some (String.ofList text) := by
  have whole : (text.map Piece.char).mapM Piece.char? = some text := by
    induction text with
    | nil => rfl
    | cons c text ih => simp [Piece.char?, ih]
  rw [decode?, pieces_encodeChars, whole, Option.map_some]

theorem decodeLossy_encode (text : String) : decodeLossy (encode text) = text := by
  rw [decodeLossy, encode, pieces_encodeChars, List.map_map,
    show Piece.replaced ∘ Piece.char = id from rfl, List.map_id, String.ofList_toList]

/-! ## Octets of ASCII characters in an encoded text -/

theorem encodeChar_ne_nil (c : Char) : encodeChar c ≠ [] := by
  unfold encodeChar
  extract_lets
  split
  · simp
  split
  · simp
  split <;> simp

theorem encodeChars_eq_nil {text : List Char} (nothing : encodeChars text = []) : text = [] := by
  cases text with
  | nil => rfl
  | cons c text =>
    rw [encodeChars_cons, List.append_eq_nil_iff] at nothing
    exact absurd nothing.1 (encodeChar_ne_nil c)

/-- Where the octet of an ASCII character stands, the text has that character. -/
theorem encodeChars_split {c : Char} {text : List Char} (before : List UInt8) {after : List UInt8}
    (ascii : c.toNat < 0x80)
    (found : encodeChars text = before ++ UInt8.ofNat c.toNat :: after) :
    ∃ front back, text = front ++ c :: back ∧ before = encodeChars front ∧ after = encodeChars back := by
  induction text generalizing before with
  | nil => simp [encodeChars] at found
  | cons first text ih =>
    rw [encodeChars_cons, List.append_eq_append_iff] at found
    rcases found with ⟨middle, rfl, found⟩ | ⟨middle, found, rest⟩
    · obtain ⟨front, back, rfl, rfl, rfl⟩ := ih middle found
      exact ⟨first :: front, back, rfl, (encodeChars_cons first front).symm, rfl⟩
    cases middle with
    | nil =>
      obtain ⟨front, back, rfl, nothing, rfl⟩ := ih [] rest.symm
      rw [List.append_nil] at found
      refine ⟨first :: front, back, rfl, ?_, rfl⟩
      rw [encodeChars_cons, ← nothing, List.append_nil, found]
    | cons octet middle =>
      obtain ⟨rfl, rfl⟩ := List.cons.inj rest
      obtain rfl : c = first := (octet_mem_encodeChar ascii).mp (by simp [found])
      rw [encodeChar_ascii ascii, List.singleton_eq_append_iff] at found
      rcases found with ⟨rfl, alone⟩ | ⟨-, absent⟩
      · obtain ⟨-, rfl⟩ := List.cons.inj alone
        exact ⟨[], text, rfl, rfl, rfl⟩
      · cases absent

/-- Two such octets are adjacent only where the characters are. -/
theorem infix_of_infix_encodeChars {c d : Char} {text : List Char} (ascii : c.toNat < 0x80)
    (ascii' : d.toNat < 0x80) (adjacent : [UInt8.ofNat c.toNat, UInt8.ofNat d.toNat] <:+: encodeChars text) :
    [c, d] <:+: text := by
  obtain ⟨before, after, found⟩ := adjacent
  rw [List.append_assoc] at found
  obtain ⟨front, back, rfl, -, found⟩ := encodeChars_split before ascii found.symm
  obtain ⟨front', back', rfl, nothing, -⟩ := encodeChars_split [] ascii' found.symm
  rw [encodeChars_eq_nil nothing.symm, List.nil_append]
  exact ⟨front, back', by simp⟩

end DebugBridge.Text.Utf8
