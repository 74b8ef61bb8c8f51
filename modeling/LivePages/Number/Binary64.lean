namespace LivePages

/-- A number of the binary64 format; a finite one is its mantissa times a power of two. -/
inductive Binary64 where
  | finite (negative : Bool) (mantissa : Nat) (exponent : Int)
  | infinity (negative : Bool)
  | notANumber
  deriving DecidableEq

/-- The nearest natural number to a quotient; a half goes to the even one. -/
def roundQuotient (num den : Nat) : Nat :=
  let q := num / den
  let r := num % den
  if den < 2 * r ∨ (2 * r = den ∧ q % 2 = 1) then q + 1 else q

def twoPow (n : Nat) : Nat :=
  Nat.pow 2 n

def tenPow (n : Nat) : Nat :=
  Nat.pow 10 n

/-- A quotient divided by a power of two. -/
def scaledDown (num den : Nat) (exponent : Int) : Nat × Nat :=
  if exponent < 0 then (num * twoPow exponent.natAbs, den) else (num, den * twoPow exponent.toNat)

namespace Binary64

def leastExponent : Int := -1074

def greatestExponent : Int := 971

/-- The exponent at which a positive quotient has a mantissa of 53 bits, if there is one. -/
def exponentOf (num den : Nat) : Int :=
  let guess : Int := (num.log2 : Int) - den.log2 - 52
  let (n, d) := scaledDown num den guess
  max leastExponent (if n < twoPow 52 * d then guess - 1 else guess)

/-- The number nearest to a quotient; a half goes to the even mantissa. -/
def round (negative : Bool) (num den : Nat) : Binary64 :=
  let exponent := exponentOf num den
  let (n, d) := scaledDown num den exponent
  let mantissa := roundQuotient n d
  let (mantissa, exponent) :=
    if mantissa = twoPow 53 then (twoPow 52, exponent + 1) else (mantissa, exponent)
  if num = 0 then finite negative 0 leastExponent
  else if greatestExponent < exponent then infinity negative
  else finite negative mantissa exponent

def ofNat (n : Nat) : Binary64 :=
  round false n 1

def ofInt (n : Int) : Binary64 :=
  round (n < 0) n.natAbs 1

def decimalLength (n : Nat) : Nat :=
  (Nat.toDigits 10 n).length

/-- The number nearest to a decimal. Decimals far beyond the greatest number or below the least
are decided by their magnitude alone. -/
def ofDecimal (negative : Bool) (digits : Nat) (exponent : Int) : Binary64 :=
  let magnitude := exponent + decimalLength digits
  if digits = 0 ∨ magnitude < -330 then finite negative 0 leastExponent
  else if 310 < magnitude then infinity negative
  else if exponent < 0 then round negative digits (tenPow exponent.natAbs)
  else round negative (digits * tenPow exponent.toNat) 1

def isFinite : Binary64 → Bool
  | finite _ _ _ => true
  | _ => false

def isZero : Binary64 → Bool
  | finite _ mantissa _ => mantissa == 0
  | _ => false

/-- Finite and not below zero; a zero may have either sign. -/
def isAmount : Binary64 → Bool
  | finite negative mantissa _ => !negative || mantissa == 0
  | _ => false

def negate : Binary64 → Binary64
  | finite negative mantissa exponent => finite (!negative) mantissa exponent
  | infinity negative => infinity (!negative)
  | notANumber => notANumber

/-- A finite number without its sign, as a quotient. -/
def quotient (mantissa : Nat) (exponent : Int) : Nat × Nat :=
  if exponent < 0 then (mantissa, twoPow exponent.natAbs) else (mantissa * twoPow exponent.toNat, 1)

/-- The product with a power of ten, rounded once; the factor is itself a rounded number. -/
def timesPowerOfTen (x : Binary64) (power : Nat) : Binary64 :=
  match x, ofDecimal false 1 power with
  | finite negative m e, finite _ m' e' =>
    let (n, d) := quotient m e
    let (n', d') := quotient m' e'
    round negative (n * n') (d * d')
  | finite negative m _, infinity _ => if m = 0 then notANumber else infinity negative
  | x, _ => x

/-- The quotient by a power of ten, rounded once; the divisor is itself a rounded number. -/
def overPowerOfTen (x : Binary64) (power : Nat) : Binary64 :=
  match x, ofDecimal false 1 power with
  | finite negative m e, finite _ m' e' =>
    let (n, d) := quotient m e
    let (n', d') := quotient m' e'
    round negative (n * d') (d * n')
  | finite negative _ _, infinity _ => finite negative 0 leastExponent
  | x, _ => x

end Binary64

end LivePages
