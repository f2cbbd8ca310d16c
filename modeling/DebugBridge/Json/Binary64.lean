import DebugBridge.Text.Decimal

/-! Finite binary64 numbers in exact arithmetic: rounding, scaling by powers of ten, and the shortest
decimal text that reads back. -/

set_option autoImplicit false

namespace DebugBridge.Json

/-- The number `significand · 2 ^ exponent`, or its negative. The significand has at most 53 bits; it has
fewer only at the least exponent, -1074. -/
structure Binary64 where
  negative : Bool
  significand : Nat
  exponent : Int
  deriving DecidableEq, Repr

namespace Binary64

def zero (negative : Bool) : Binary64 := ⟨negative, 0, -1074⟩

def leastNormal : Nat := 0x10000000000000

def leastExponent : Int := -1074

def greatestExponent : Int := 971

def scaled (n base : Nat) (e : Int) : Nat × Nat :=
  if e < 0 then (n, Nat.pow base e.natAbs) else (n * Nat.pow base e.natAbs, 1)

/-- Round a quotient to the nearest integer, a half to the even neighbour. -/
def roundQuotient (numerator denominator : Nat) : Nat :=
  let q := numerator / denominator
  let r := numerator % denominator
  if 2 * r > denominator ∨ (2 * r = denominator ∧ q % 2 = 1) then q + 1 else q

def exponentOf (numerator denominator : Nat) : Int :=
  let guess : Int := (numerator.log2 : Int) - denominator.log2 - 52
  -- the guess is one too large if the quotient is below the power of two it was made for
  let (n, d) := scaled 1 2 (-guess)
  let exact := if numerator * n < leastNormal * (denominator * d) then guess - 1 else guess
  max exact leastExponent

/-- Round a quotient to binary64, the sign given apart. None is past the greatest number. -/
def ofQuotient (negative : Bool) (numerator denominator : Nat) : Option Binary64 :=
  if numerator = 0 then some (zero negative)
  else
    let e := exponentOf numerator denominator
    let (n, d) := scaled 1 2 (-e)
    let m := roundQuotient (numerator * n) (denominator * d)
    -- rounding up can fill one bit more, and then all others are zero
    let (m, e) := if m = 2 * leastNormal then (leastNormal, e + 1) else (m, e)
    if e > greatestExponent then none else some ⟨negative, m, e⟩

def quotient (x : Binary64) : Nat × Nat := scaled x.significand 2 x.exponent

def ofNat (negative : Bool) (n : Nat) : Option Binary64 := ofQuotient negative n 1

def mul (x y : Binary64) : Option Binary64 :=
  ofQuotient (x.negative != y.negative) (x.quotient.1 * y.quotient.1) (x.quotient.2 * y.quotient.2)

def div (x y : Binary64) : Option Binary64 :=
  ofQuotient (x.negative != y.negative) (x.quotient.1 * y.quotient.2) (x.quotient.2 * y.quotient.1)

def powerOfTen (n : Nat) : Option Binary64 := ofNat false (Nat.pow 10 n)

def greatestPower : Nat := 308

def divPower (x : Binary64) (n : Nat) : Option Binary64 := (powerOfTen n).bind x.div

/-- Multiply by a power of ten, rounding at every step of at most `10 ^ 308`. None is past the greatest number. -/
def scale10 (x : Binary64) (e : Int) : Option Binary64 :=
  if x.significand = 0 then some x
  else if 0 ≤ e then
    if e.toNat ≤ greatestPower then (powerOfTen e.toNat).bind x.mul else none
  else if e.natAbs ≤ greatestPower then x.divPower e.natAbs
  else (x.divPower greatestPower).bind fun y => y.scale10 (e + greatestPower)
termination_by e.natAbs
decreasing_by
  have power : greatestPower = 308 := rfl
  omega

structure Decimal where
  digits : Nat
  exponent : Int
  deriving DecidableEq, Repr

/-- The reals that round to a positive number lie between these two, given in units of `2 ^ (exponent - 2)`.
Below a power of two the numbers lie closer, so the lower bound is nearer there. -/
def roundingInterval (x : Binary64) : Nat × Nat :=
  let m := 4 * x.significand
  (if x.significand = leastNormal ∧ x.exponent ≠ leastExponent then m - 1 else m - 2, m + 2)

/-- Whether `digits · 10 ^ e` rounds to `x`. The ends of the interval do iff the significand is even. -/
def readsBack (x : Binary64) (d : Decimal) : Bool :=
  let (low, high) := x.roundingInterval
  let (tenUp, tenDown) := scaled d.digits 10 d.exponent
  let (unitUp, unitDown) := scaled 1 2 (x.exponent - 2)
  -- compare digits · 10 ^ e with bound · 2 ^ (exponent - 2), both sides times the denominators
  let value := tenUp * unitDown
  let lower := low * unitUp * tenDown
  let upper := high * unitUp * tenDown
  if x.significand % 2 = 0 then lower ≤ value && value ≤ upper else lower < value && value < upper

def distance (x : Binary64) (d : Decimal) : Nat :=
  let (up, down) := x.quotient
  let (tenUp, tenDown) := scaled d.digits 10 d.exponent
  ((tenUp * down : Int) - up * tenDown).natAbs

def neighbours (x : Binary64) (e : Int) : Decimal × Decimal :=
  let (up, down) := x.quotient
  let (tenUp, tenDown) := scaled 1 10 e
  let below := up * tenDown / (down * tenUp)
  (⟨below, e⟩, ⟨below + 1, e⟩)

/-- The nearest of the two neighbours that reads back, if one does; a tie goes to the even one. -/
def shortestAt (x : Binary64) (e : Int) : Option Decimal :=
  let (below, above) := x.neighbours e
  match x.readsBack below, x.readsBack above with
  | true, true =>
    let near := x.distance below
    let far := x.distance above
    some (if near < far ∨ (near = far ∧ below.digits % 2 = 0) then below else above)
  | true, false => some below
  | false, true => some above
  | false, false => none

/-- How many digits stand before the point; zeros right after it count as so many fewer than none. -/
def magnitude10 (x : Binary64) : Int :=
  let (up, down) := x.quotient
  if down ≤ up then (Nat.toDigits 10 (up / down)).length
  else 1 - ((Nat.toDigits 10 (down / up)).length : Int)

def shortestFrom (x : Binary64) (e : Int) : Nat → Decimal
  | 0 => (x.neighbours e).1
  | tries + 1 =>
    match x.shortestAt e with
    | some d => d
    | none => shortestFrom x (e - 1) tries

def shortest (x : Binary64) : Decimal :=
  -- coarse grids come first, and a grid of seventeen digits always has a hit
  shortestFrom x (x.magnitude10 + 1) 20

/-- How a number is written: positional notation from `leastPositional` on, up to and including
`greatestPositional`, both decimal exponents of the first digit; otherwise an exponent, always with its sign. -/
structure Style where
  leastPositional : Int
  greatestPositional : Int

def jsonStyle : Style := ⟨-5, 15⟩

def layout (style : Style) (digits : List Char) (first : Int) : List Char :=
  if style.leastPositional ≤ first ∧ first ≤ style.greatestPositional then
    if first < 0 then '0' :: '.' :: (List.replicate (first.natAbs - 1) '0' ++ digits)
    else
      let whole := digits.take (first.toNat + 1)
      let fraction := digits.drop (first.toNat + 1)
      whole ++ List.replicate (first.toNat + 1 - digits.length) '0' ++ '.' ::
        (if fraction.isEmpty then ['0'] else fraction)
  else
    let mantissa := match digits with
      | d :: [] => [d]
      | d :: rest => d :: '.' :: rest
      | [] => []
    mantissa ++ 'e' :: (if first < 0 then '-' else '+') :: Nat.toDigits 10 first.natAbs

def dropTrailingZeros (digits : List Char) : List Char :=
  (digits.reverse.dropWhile (· == '0')).reverse

def text (x : Binary64) : List Char :=
  let magnitude :=
    if x.significand = 0 then ['0', '.', '0']
    else
      let d := x.shortest
      let digits := Nat.toDigits 10 d.digits
      layout jsonStyle (dropTrailingZeros digits) (d.exponent + digits.length - 1)
  if x.negative then '-' :: magnitude else magnitude

end Binary64

end DebugBridge.Json
