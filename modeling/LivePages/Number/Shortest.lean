import LivePages.Number.Binary64

namespace LivePages

/-- Which of two equally near decimals is chosen. -/
inductive Tie where
  | up
  | even
  deriving DecidableEq

/-- A decimal: its digits as one number, and the power of ten of the last one. -/
structure Decimal where
  digits : Nat
  exponent : Int
  deriving DecidableEq

/-- The numbers that round to a mantissa, in quarters of its unit. The interval is narrower below
a power of two, and its ends belong to it exactly if the mantissa is even. -/
structure RoundingInterval where
  low : Nat
  high : Nat
  closed : Bool
  deriving DecidableEq

namespace RoundingInterval

def ofMantissa (mantissa : Nat) (exponent : Int) : RoundingInterval :=
  let atPower := mantissa = twoPow 52 ∧ Binary64.leastExponent < exponent
  { low := 4 * mantissa - (if atPower then 1 else 2)
    high := 4 * mantissa + 2
    closed := mantissa % 2 = 0 }

/-- Whether a quotient of quarters lies in the interval. -/
def holds (i : RoundingInterval) (num den : Nat) : Bool :=
  if i.closed then decide (i.low * den ≤ num ∧ num ≤ i.high * den)
  else decide (i.low * den < num ∧ num < i.high * den)

end RoundingInterval

/-- A quotient divided by a power of ten. -/
def scaledByTen (num den : Nat) (exponent : Int) : Nat × Nat :=
  if exponent < 0 then (num * tenPow exponent.natAbs, den) else (num, den * tenPow exponent.toNat)

/-- The exponent of the least power of ten above a positive quotient. -/
def decimalMagnitude (num den : Nat) : Int :=
  let guess : Int := (Binary64.decimalLength num : Int) - Binary64.decimalLength den
  let (n, d) := scaledByTen num den guess
  if n < d then guess else guess + 1

/-- The decimals that step by one power of ten and are next to a number, if they round to it. -/
def decimalAt (tie : Tie) (mantissa : Nat) (exponent step : Int) : Option Decimal :=
  let interval := RoundingInterval.ofMantissa mantissa exponent
  let (num, den) := Binary64.quotient mantissa exponent
  let (n, d) := scaledByTen num den step
  let below := n / d
  let rest := n % d
  -- A candidate in quarters of the mantissa's unit is `4 * mantissa * candidate * d / n`.
  let fits (candidate : Nat) : Bool := interval.holds (4 * mantissa * candidate * d) n
  let upper : Bool :=
    match tie with
    | .up => decide (d ≤ 2 * rest)
    | .even => decide (d < 2 * rest ∨ (2 * rest = d ∧ below % 2 = 1))
  match fits below, fits (below + 1) with
  | true, true => some ⟨if upper then below + 1 else below, step⟩
  | true, false => some ⟨below, step⟩
  | false, true => some ⟨below + 1, step⟩
  | false, false => none

def shortestFrom (tie : Tie) (mantissa : Nat) (exponent magnitude : Int) : Nat → Nat → Decimal
  | 0, _ => ⟨0, 0⟩
  | tries + 1, count =>
    match decimalAt tie mantissa exponent (magnitude - count) with
    | some decimal => decimal
    | none => shortestFrom tie mantissa exponent magnitude tries (count + 1)

/-- The decimal with the fewest digits that rounds to a positive number, and of those the nearest.
Seventeen digits are always enough. -/
def shortestDecimal (tie : Tie) (mantissa : Nat) (exponent : Int) : Decimal :=
  let (num, den) := Binary64.quotient mantissa exponent
  shortestFrom tie mantissa exponent (decimalMagnitude num den) 17 1

end LivePages
