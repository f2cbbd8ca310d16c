import Mathlib.Data.List.ReduceOption
import DebugBridge.Proofs.Protocol.Framing

/-! What a block of headers announces.

The reader accepts the blocks of a grammar and no others, and of several lengths it takes the last one. It breaks down
just over the blocks whose length is beyond every buffer; over all others it returns. -/

set_option autoImplicit false

namespace DebugBridge.Protocol.Framing

/-! ## The grammar -/

def lines : List UInt8 → List (List UInt8)
  | [] => []
  | octet :: rest => (splitLine (octet :: rest)).1 :: lines (splitLine (octet :: rest)).2
termination_by octets => octets.length
decreasing_by exact splitLine_rest_length octet rest

def content? (line : List UInt8) : Option (List Char) :=
  (Text.Utf8.decode? line).map fun text => Text.dropEndWhile isLineEnd text.toList

inductive Heads : List Char → Option Nat → Prop where
  | length {value : List Char} {n : Nat} : Text.Decimal.Numeral (Text.trim value) n → n ≤ greatestLength →
      Heads (lengthHeader ++ value) (some n)
  | other {text : List Char} : text ≠ [] → ¬ lengthHeader <+: text → Heads text none

inductive Headers : List (List UInt8) → List (Option Nat) → Prop where
  | closed {line : List UInt8} {later : List (List UInt8)} : content? line = some [] → Headers (line :: later) []
  | header {line : List UInt8} {text : List Char} {announced : Option Nat} {later : List (List UInt8)}
      {rest : List (Option Nat)} : content? line = some text → Heads text announced → Headers later rest →
      Headers (line :: later) (announced :: rest)

/-- The headers of a message, of which there is one at least. Blank lines may stand before them. -/
inductive Block : List (List UInt8) → List (Option Nat) → Prop where
  | blank {line : List UInt8} {later : List (List UInt8)} {announced : List (Option Nat)} :
      content? line = some [] → Block later announced → Block (line :: later) announced
  | begun {lines : List (List UInt8)} {announced : List (Option Nat)} : Headers lines announced → announced ≠ [] →
      Block lines announced

def Announces (octets : List UInt8) (length : Nat) : Prop :=
  ∃ announced, Block (lines octets) announced ∧ announced.reduceOption.getLast? = some length

/-! ## The reader and the grammar -/

theorem Heads.nonempty {announced : Option Nat} : ¬ Heads [] announced := by
  intro heads
  generalize nothing : ([] : List Char) = text at heads
  cases heads with
  | length => cases nothing
  | other nonempty => exact nonempty nothing.symm

theorem announcedLength_eq_ok_iff {text : List Char} {announced : Option Nat} (nonempty : text ≠ []) :
    announcedLength text = .ok announced ↔ Heads text announced := by
  constructor
  · intro read
    rw [announcedLength] at read
    split at read
    · next begins =>
      obtain ⟨value, rfl⟩ := List.isPrefixOf_iff_prefix.mp begins
      rw [List.drop_left] at read
      split at read
      · next n number =>
        obtain rfl := Except.ok.inj read
        obtain ⟨numeral, fits⟩ := Text.Decimal.readUnsigned_eq_ok_iff.mp number
        exact .length numeral fits
      · cases read
    · next other =>
      obtain rfl := Except.ok.inj read
      exact .other nonempty fun begins => other (List.isPrefixOf_iff_prefix.mpr begins)
  · intro heads
    cases heads with
    | @length value n numeral fits =>
      have begins : lengthHeader.isPrefixOf (lengthHeader ++ value) = true :=
        List.isPrefixOf_iff_prefix.mpr (List.prefix_append _ _)
      rw [announcedLength, if_pos begins, List.drop_left, Text.Decimal.readUnsigned_eq_ok_iff.mpr ⟨numeral, fits⟩]
    | other _ other => rw [announcedLength, if_neg (by rwa [List.isPrefixOf_iff_prefix])]

theorem readHeader_cons {octets line : List UInt8} {later : List (List UInt8)} (all : lines octets = line :: later) :
    ∃ after, lines after = later ∧ ∀ header, readHeader header octets =
      match content? line with
      | none => .error .headerNotText
      | some [] => if header.begun then .ok (some (header.length, after)) else readHeader header after
      | some text =>
        match announcedLength text with
        | .error fault => .error fault
        | .ok announced => readHeader ⟨true, announced.or header.length⟩ after := by
  cases octets with
  | nil =>
    rw [lines] at all
    cases all
  | cons octet rest =>
    rw [lines] at all
    obtain ⟨rfl, rfl⟩ := List.cons.inj all
    refine ⟨_, rfl, fun header => ?_⟩
    rw [readHeader, content?]
    cases Text.Utf8.decode? (splitLine (octet :: rest)).1 with
    | none => rfl
    | some text =>
      dsimp only [Option.map_some]
      cases content : Text.dropEndWhile isLineEnd text.toList with
      | nil => rfl
      | cons c text => rfl

theorem lines_eq_nil {octets : List UInt8} (nothing : lines octets = []) : octets = [] := by
  cases octets with
  | nil => rfl
  | cons octet rest =>
    rw [lines] at nothing
    cases nothing

theorem getLast?_announced (announced : Option Nat) (rest : List (Option Nat)) (known : Option Nat) :
    (announced :: rest).reduceOption.getLast?.or known = rest.reduceOption.getLast?.or (announced.or known) := by
  cases announced with
  | none => rfl
  | some n =>
    rw [List.reduceOption_cons_of_some, List.getLast?_cons]
    cases rest.reduceOption.getLast? <;> rfl

section

variable {line : List UInt8} {later : List (List UInt8)} {announced : List (Option Nat)}

theorem headers_unreadable (content : content? line = none) : ¬ Headers (line :: later) announced := by
  intro headers
  cases headers with
  | closed blank => cases content.symm.trans blank
  | header readable => cases content.symm.trans readable

theorem headers_blank (content : content? line = some []) : Headers (line :: later) announced ↔ announced = [] := by
  constructor
  · intro headers
    cases headers with
    | closed => rfl
    | header readable heads =>
      obtain rfl := Option.some.inj (content.symm.trans readable)
      exact absurd heads Heads.nonempty
  · rintro rfl
    exact .closed content

theorem headers_header {text : List Char} (content : content? line = some text) (nonempty : text ≠ []) :
    Headers (line :: later) announced ↔
      ∃ first rest, announced = first :: rest ∧ announcedLength text = .ok first ∧ Headers later rest := by
  constructor
  · intro headers
    cases headers with
    | closed blank => exact absurd (Option.some.inj (content.symm.trans blank)) nonempty
    | @header _ _ first _ rest readable heads headers =>
      obtain rfl := Option.some.inj (content.symm.trans readable)
      exact ⟨first, rest, rfl, (announcedLength_eq_ok_iff nonempty).mpr heads, headers⟩
  · rintro ⟨first, rest, rfl, heads, headers⟩
    exact .header content ((announcedLength_eq_ok_iff nonempty).mp heads) headers

theorem block_blank (content : content? line = some []) :
    Block (line :: later) announced ↔ Block later announced := by
  constructor
  · intro block
    cases block with
    | blank _ block => exact block
    | begun headers nonempty => exact absurd ((headers_blank content).mp headers) nonempty
  · exact .blank content

theorem block_header (content : content? line ≠ some []) :
    Block (line :: later) announced ↔ Headers (line :: later) announced := by
  constructor
  · intro block
    cases block with
    | blank blank => exact absurd blank content
    | begun headers => exact headers
  · intro headers
    refine .begun headers ?_
    rintro rfl
    cases headers with | closed blank => exact content blank

end

/-- Behind the first header the lines decide alone what is announced; until they do, what is known stands. -/
theorem readHeader_begun {octets : List UInt8} {known found : Option Nat} :
    (∃ after, readHeader ⟨true, known⟩ octets = .ok (some (found, after))) ↔
      ∃ announced, Headers (lines octets) announced ∧ announced.reduceOption.getLast?.or known = found := by
  generalize all : lines octets = front
  induction front generalizing octets known with
  | nil =>
    obtain rfl := lines_eq_nil all
    constructor
    · rintro ⟨after, read⟩
      rw [readHeader] at read
      cases read
    · rintro ⟨announced, headers, -⟩
      cases headers
  | cons line later ih =>
    obtain ⟨after, rest, read⟩ := readHeader_cons all
    rw [read]
    cases content : content? line with
    | none => simp [headers_unreadable content]
    | some text =>
      cases text with
      | nil => simp [headers_blank content]
      | cons c text =>
        have nonempty : c :: text ≠ [] := List.cons_ne_nil c text
        cases first : announcedLength (c :: text) with
        | error fault => simp [headers_header content nonempty, first]
        | ok announced =>
          simp only [first]
          rw [ih rest]
          constructor
          -- the length announced last counts, and what follows decides before what is known
          · rintro ⟨more, headers, last⟩
            refine ⟨announced :: more, (headers_header content nonempty).mpr ⟨_, _, rfl, first, headers⟩, ?_⟩
            rw [getLast?_announced, last]
          · rintro ⟨_, headers, last⟩
            obtain ⟨_, more, rfl, same, behind⟩ := (headers_header content nonempty).mp headers
            obtain rfl := Except.ok.inj (first.symm.trans same)
            exact ⟨more, behind, by rw [← getLast?_announced, last]⟩

/-- Before the first header blank lines are passed over. -/
theorem readHeader_unbegun {octets : List UInt8} {found : Option Nat} :
    (∃ after, readHeader ⟨false, none⟩ octets = .ok (some (found, after))) ↔
      ∃ announced, Block (lines octets) announced ∧ announced.reduceOption.getLast? = found := by
  generalize all : lines octets = front
  induction front generalizing octets with
  | nil =>
    obtain rfl := lines_eq_nil all
    constructor
    · rintro ⟨after, read⟩
      rw [readHeader] at read
      cases read
    · rintro ⟨announced, block, -⟩
      cases block with | begun headers => cases headers
  | cons line later ih =>
    obtain ⟨after, rest, read⟩ := readHeader_cons all
    by_cases content : content? line = some []
    · simp [read, content, block_blank content, ih rest]
    · have begun : readHeader ⟨false, none⟩ octets = readHeader ⟨true, none⟩ octets := by
        rw [read, read]
        split <;> simp_all
      rw [begun, readHeader_begun, all]
      simp [block_header content, Option.or_none]

theorem announces_iff {octets : List UInt8} {length : Nat} :
    Announces octets length ↔ ∃ after, readHeader ⟨false, none⟩ octets = .ok (some (some length, after)) :=
  readHeader_unbegun.symm

theorem Headers.bounded {lines : List (List UInt8)} {announced : List (Option Nat)}
    (headers : Headers lines announced) : ∀ length, some length ∈ announced → length ≤ greatestLength := by
  induction headers with
  | closed => exact nofun
  | header _ heads _ ih =>
    intro length member
    rcases List.mem_cons.mp member with rfl | member
    · cases heads with | length _ fits => exact fits
    · exact ih length member

theorem Block.bounded {lines : List (List UInt8)} {announced : List (Option Nat)}
    (block : Block lines announced) : ∀ length, some length ∈ announced → length ≤ greatestLength := by
  induction block with
  | blank _ _ ih => exact ih
  | begun headers => exact headers.bounded

/-- A length that is announced is a number of 64 bits, and nothing more is asked of it. -/
theorem Announces.bounded {octets : List UInt8} {length : Nat} (announces : Announces octets length) :
    length ≤ greatestLength := by
  obtain ⟨announced, block, last⟩ := announces
  exact block.bounded length (List.reduceOption_mem_iff.mp (List.mem_of_getLast? last))

theorem announces_dressed (d : Dressing) {length : Nat} (fits : length ≤ greatestLength) (after : List UInt8) :
    Announces (Text.Utf8.encodeChars (d.header length) ++ after) length :=
  announces_iff.mpr ⟨after, readHeader_dressed d fits after⟩

/-! ## Breaking down -/

theorem announcedLength_fault {text : List Char} {fault : ReadFault} (faulty : announcedLength text = .error fault) :
    ∃ cause, fault = .badLength cause := by
  rw [announcedLength] at faulty
  split at faulty
  · split at faulty
    · cases faulty
    · next cause _ => exact ⟨cause, (Except.error.inj faulty).symm⟩
  · cases faulty

theorem readHeader_returns (header : Header) (octets : List UInt8) :
    readHeader header octets ≠ .error .lengthBeyondMemory := by
  intro broken
  fun_induction readHeader header octets with
  | case1 | case2 | case3 | case4 => cases broken
  | case5 =>
    rename_i passed
    exact passed broken
  | case6 =>
    rename_i faulty
    obtain ⟨cause, rfl⟩ := announcedLength_fault faulty
    cases broken
  | case7 =>
    rename_i onward
    exact onward broken

/-- A read breaks down just where more is announced than any buffer holds. -/
theorem readMessage_beyond_iff {octets : List UInt8} :
    readMessage octets = .error .lengthBeyondMemory ↔ ∃ length, Announces octets length ∧ greatestBuffer < length := by
  constructor
  · intro broken
    rw [readMessage] at broken
    split at broken
    · next read =>
      obtain rfl := Except.error.inj broken
      exact absurd read (readHeader_returns _ octets)
    · cases broken
    · cases broken
    · next length rest read =>
      split at broken
      · next beyond => exact ⟨length, announces_iff.mpr ⟨rest, read⟩, beyond⟩
      · split at broken
        · cases broken
        · split at broken <;> cases broken
  · rintro ⟨length, announces, beyond⟩
    obtain ⟨rest, read⟩ := announces_iff.mp announces
    simp only [readMessage, read, if_pos beyond]

/-- Of a whole stream, it is the read behind the last message that may break down. -/
theorem readAll_beyond_iff {octets : List UInt8} :
    (readAll octets).2 = some .lengthBeyondMemory ↔
      ∃ length, Announces (readSome octets).2 length ∧ greatestBuffer < length := by
  rw [← readMessage_beyond_iff, readAll]
  cases readMessage (readSome octets).2 <;> simp

end DebugBridge.Protocol.Framing
