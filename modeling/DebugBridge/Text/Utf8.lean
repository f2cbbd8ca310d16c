/-! UTF-8, one octet at a time.

`decode?` accepts well-formed text only; `decodeLossy` puts one replacement character in place of
every maximal ill-formed part. Both read the same list of pieces, so they agree on well-formed text. -/

set_option autoImplicit false

namespace DebugBridge.Text.Utf8

def encodeChar (c : Char) : List UInt8 :=
  let n := c.toNat
  if n < 0x80 then [UInt8.ofNat n]
  else if n < 0x800 then [UInt8.ofNat (0xC0 + n / 64), UInt8.ofNat (0x80 + n % 64)]
  else if n < 0x10000 then
    [UInt8.ofNat (0xE0 + n / 4096), UInt8.ofNat (0x80 + n / 64 % 64), UInt8.ofNat (0x80 + n % 64)]
  else
    [UInt8.ofNat (0xF0 + n / 262144), UInt8.ofNat (0x80 + n / 4096 % 64),
      UInt8.ofNat (0x80 + n / 64 % 64), UInt8.ofNat (0x80 + n % 64)]

def encodeChars (text : List Char) : List UInt8 := text.flatMap encodeChar

def encode (text : String) : List UInt8 := encodeChars text.toList

/-- A character of which some octets are still owed; the next one lies between `low` and `high`. -/
structure Unfinished where
  owed : Nat
  low : Nat
  high : Nat
  code : Nat

inductive Piece where
  | char (c : Char)
  | illFormed
  deriving DecidableEq

inductive Start where
  | char (c : Char)
  | unfinished (u : Unfinished)
  | illFormed

/-- The octets `C0`, `C1` and those from `F5` on start nothing. After `E0`, `ED`, `F0` and `F4` the second
octet is confined further, which rules out overlong forms, surrogates and codes past `10FFFF`. -/
def start (octet : UInt8) : Start :=
  let n := octet.toNat
  if n < 0x80 then .char (Char.ofNat n)
  else if n < 0xC2 then .illFormed
  else if n < 0xE0 then .unfinished ⟨1, 0x80, 0xBF, n - 0xC0⟩
  else if n = 0xE0 then .unfinished ⟨2, 0xA0, 0xBF, 0⟩
  else if n = 0xED then .unfinished ⟨2, 0x80, 0x9F, 0xD⟩
  else if n < 0xF0 then .unfinished ⟨2, 0x80, 0xBF, n - 0xE0⟩
  else if n = 0xF0 then .unfinished ⟨3, 0x90, 0xBF, 0⟩
  else if n < 0xF4 then .unfinished ⟨3, 0x80, 0xBF, n - 0xF0⟩
  else if n = 0xF4 then .unfinished ⟨3, 0x80, 0x8F, 4⟩
  else .illFormed

def piecesFrom : Option Unfinished → List UInt8 → List Piece
  | none, [] => []
  | some _, [] => [.illFormed]
  | none, octet :: rest =>
    match start octet with
    | .char c => .char c :: piecesFrom none rest
    | .unfinished u => piecesFrom (some u) rest
    | .illFormed => .illFormed :: piecesFrom none rest
  | some u, octet :: rest =>
    if u.low ≤ octet.toNat ∧ octet.toNat ≤ u.high then
      let code := u.code * 64 + (octet.toNat - 0x80)
      if u.owed ≤ 1 then .char (Char.ofNat code) :: piecesFrom none rest
      else piecesFrom (some ⟨u.owed - 1, 0x80, 0xBF, code⟩) rest
    else
      -- the unfinished character ends here, and this octet starts afresh
      match start octet with
      | .char c => .illFormed :: .char c :: piecesFrom none rest
      | .unfinished v => .illFormed :: piecesFrom (some v) rest
      | .illFormed => .illFormed :: .illFormed :: piecesFrom none rest

def pieces (octets : List UInt8) : List Piece := piecesFrom none octets

def Piece.replaced : Piece → Char
  | .char c => c
  | .illFormed => '\uFFFD'

def Piece.char? : Piece → Option Char
  | .char c => some c
  | .illFormed => none

def decodeLossy (octets : List UInt8) : String :=
  String.ofList ((pieces octets).map Piece.replaced)

def decode? (octets : List UInt8) : Option String :=
  ((pieces octets).mapM Piece.char?).map String.ofList

end DebugBridge.Text.Utf8
