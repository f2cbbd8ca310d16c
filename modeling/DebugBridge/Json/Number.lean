import DebugBridge.Json.Value

/-! Reading the text of a JSON number.

Integers that fit into 64 bits are exact. Any other number is read as its leading digits, as many as fit
into 64 bits, times a power of ten, and rounded to binary64 at both steps. -/

set_option autoImplicit false

namespace DebugBridge.Json

inductive Fault where
  | truncated
  | malformed
  deriving DecidableEq, Repr

/-- Append digits to a number as long as it fits into 64 bits; the digits left over. -/
def takeFitting (value : Nat) : List Char → Nat × List Char
  | [] => (value, [])
  | c :: rest =>
    let next := value * 10 + Text.Decimal.digitValue c
    if next ≤ 0xFFFFFFFFFFFFFFFF then takeFitting next rest else (value, c :: rest)

def realOf (negative : Bool) (digits : Nat) (exponent : Int) : Except Fault Json :=
  match (Binary64.ofNat negative digits).bind (·.scale10 exponent) with
  | some x => .ok (.real x)
  | none => .error .malformed

def integerOf (negative : Bool) (digits : Nat) : Except Fault Json :=
  if ¬ negative then .ok (.integer digits)
  else if 0 < digits ∧ digits ≤ 0x8000000000000000 then .ok (.integer (-digits))
  else realOf true digits 0

/-- An exponent beyond 32 bits settles the number alone: it is out of range, or it is zero. -/
def exponentLimit : Nat := 0x7FFFFFFF

/-- What an exponent part does to a number, the part given without its `e`. `due` is the fault of a text
that ends where a digit is due. -/
def readExponent (due : Fault) (negative : Bool) (digits : Nat) (exponent : Int) (part : List Char) :
    Except Fault Json :=
  let down := part.head? = some '-'
  let amount := if down ∨ part.head? = some '+' then part.tail else part
  if amount.isEmpty then .error due
  else if ¬ amount.all Char.isDigit then .error .malformed
  else
    let n := amount.foldl (fun n c => n * 10 + Text.Decimal.digitValue c) 0
    if n ≤ exponentLimit then realOf negative digits (if down then exponent - n else exponent + n)
    else if digits = 0 ∨ down then .ok (.real (.zero negative))
    else .error .malformed

def readTail (due : Fault) (negative : Bool) (digits : Nat) (exponent : Int) (tail : List Char) :
    Except Fault Json :=
  match tail with
  | [] => realOf negative digits exponent
  | e :: part =>
    if e = 'e' ∨ e = 'E' then readExponent due negative digits exponent part else .error .malformed

def readUnsigned (due : Fault) (negative : Bool) (text : List Char) : Except Fault Json :=
  let whole := text.takeWhile Char.isDigit
  -- digits that do not fit only count as a power of ten
  let (digits, left) := takeFitting 0 whole
  if text.isEmpty then .error due
  else if whole.isEmpty ∨ (whole.head? = some '0' ∧ whole ≠ ['0']) then .error .malformed
  else
    match text.dropWhile Char.isDigit with
    | [] => if left.isEmpty then integerOf negative digits else realOf negative digits left.length
    | '.' :: rest =>
      let fraction := rest.takeWhile Char.isDigit
      let (digits, unused) := takeFitting digits fraction
      if rest.isEmpty then .error due
      else if fraction.isEmpty then .error .malformed
      else
        readTail due negative digits (left.length - (fraction.length - unused.length : Int))
          (rest.dropWhile Char.isDigit)
    | tail => readTail due negative digits left.length tail

def readNumber (due : Fault) : List Char → Except Fault Json
  | '-' :: text => readUnsigned due true text
  | text => readUnsigned due false text

end DebugBridge.Json
