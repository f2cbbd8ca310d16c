/-! Decimal integers: their digits, reading them into a bounded range, and durations as text. -/

set_option autoImplicit false

namespace DebugBridge.Text

namespace Decimal

inductive Fault where
  | empty
  | invalidDigit
  | tooLarge
  | tooSmall
  deriving DecidableEq, Repr

def Fault.message : Fault → String
  | .empty => "cannot parse integer from empty string"
  | .invalidDigit => "invalid digit found in string"
  | .tooLarge => "number too large to fit in target type"
  | .tooSmall => "number too small to fit in target type"

def digitValue (c : Char) : Nat := c.toNat - '0'.toNat

/-- Digits are taken one by one: the first that is none, or that leaves the range, decides the fault. -/
def accumulate (limit : Nat) (outside : Fault) : Nat → List Char → Except Fault Nat
  | value, [] => .ok value
  | value, c :: rest =>
    if c.isDigit then
      let next := value * 10 + digitValue c
      if next ≤ limit then accumulate limit outside next rest else .error outside
    else .error .invalidDigit

/-- An unsigned integer of at most `limit`; a leading `+` is allowed, but not alone. -/
def readUnsigned (limit : Nat) : List Char → Except Fault Nat
  | [] => .error .empty
  | ['+'] => .error .invalidDigit
  | '+' :: digits => accumulate limit .tooLarge 0 digits
  | digits => accumulate limit .tooLarge 0 digits

def readSigned (limit : Nat) : List Char → Except Fault Int
  | ['-'] => .error .invalidDigit
  | '-' :: digits => (accumulate (limit + 1) .tooSmall 0 digits).map fun n => -(n : Int)
  | text => (readUnsigned limit text).map Int.ofNat

def readUInt64 (text : String) : Except Fault UInt64 :=
  (readUnsigned (0xFFFFFFFFFFFFFFFF) text.toList).map UInt64.ofNat

def readInt64 (text : String) : Except Fault Int64 :=
  (readSigned (0x7FFFFFFFFFFFFFFF) text.toList).map Int64.ofInt

def digits (n : Nat) : List Char := Nat.toDigits 10 n

def showNat (n : Nat) : String := String.ofList (digits n)

def showInt (i : Int) : String :=
  match i with
  | .ofNat n => showNat n
  | .negSucc n => String.ofList ('-' :: digits (n + 1))

def showInt64 (i : Int64) : String := showInt i.toInt

end Decimal

/-! ## Durations

A duration is shown in the greatest unit of which there is at least one. -/

def places (width n : Nat) : List Char :=
  let digits := Decimal.digits n
  let padded := List.replicate (width - digits.length) '0' ++ digits
  (padded.reverse.dropWhile (· == '0')).reverse

def showInUnit (width : Nat) (unit : String) (parts : Nat) : String :=
  let whole := parts / Nat.pow 10 width
  let rest := parts % Nat.pow 10 width
  Decimal.showNat whole ++ (if rest = 0 then "" else "." ++ String.ofList (places width rest)) ++ unit

def showNanoseconds (n : Nat) : String :=
  if n < 1000 then showInUnit 0 "ns" n
  else if n < 1000000 then showInUnit 3 "µs" n
  else if n < 1000000000 then showInUnit 6 "ms" n
  else showInUnit 9 "s" n

def showMilliseconds (n : Nat) : String := showNanoseconds (n * 1000000)

end DebugBridge.Text
