import LivePages.Number.Shortest

namespace LivePages

/-- How finite numbers are written. -/
structure NumberStyle where
  tie : Tie
  /-- The least exponent that is written without one. -/
  leastPlain : Int
  /-- The greatest exponent that is written without one. -/
  greatestPlain : Int
  /-- What stands before a positive exponent. -/
  plus : String

/-- Numbers in texts that people read. -/
def NumberStyle.plain : NumberStyle :=
  ⟨.up, -4, 15, ""⟩

/-- Numbers in JSON texts. -/
def NumberStyle.json : NumberStyle :=
  ⟨.even, -5, 15, "+"⟩

def dropTrailingZeros (digits : List Char) : List Char :=
  (digits.reverse.dropWhile (· == '0')).reverse

/-- A number with a point and at least one digit on each side of it. -/
def positional (digits : List Char) (exponent : Int) : List Char :=
  if exponent < 0 then '0' :: '.' :: List.replicate (exponent.natAbs - 1) '0' ++ digits
  else
    let whole := exponent.toNat + 1
    let fraction := digits.drop whole
    digits.take whole ++ List.replicate (whole - digits.length) '0' ++ '.' ::
      (if fraction.isEmpty then ['0'] else fraction)

/-- A number with one digit before the point, times a power of ten. -/
def exponential (plus : String) (digits : List Char) (exponent : Int) : List Char :=
  let fraction := digits.drop 1
  digits.take 1 ++ (if fraction.isEmpty then [] else '.' :: fraction) ++ 'e' ::
    (if exponent < 0 then ['-'] else plus.toList) ++ Nat.toDigits 10 exponent.natAbs

def writeDecimal (style : NumberStyle) (d : Decimal) : List Char :=
  let all := Nat.toDigits 10 d.digits
  let exponent := d.exponent + all.length - 1
  let digits := dropTrailingZeros all
  if style.leastPlain ≤ exponent ∧ exponent ≤ style.greatestPlain then positional digits exponent
  else exponential style.plus digits exponent

def writeFinite (style : NumberStyle) (negative : Bool) (mantissa : Nat) (exponent : Int) :
    String :=
  (if negative then "-" else "") ++
    if mantissa = 0 then "0.0"
    else String.ofList (writeDecimal style (shortestDecimal style.tie mantissa exponent))

namespace Binary64

/-- The fewest digits that read back as the number. -/
def text : Binary64 → String
  | finite negative mantissa exponent => writeFinite .plain negative mantissa exponent
  | infinity negative => if negative then "-inf" else "inf"
  | notANumber => "NaN"

/-- The number in a JSON text, which knows finite numbers only. -/
def json : Binary64 → String
  | finite negative mantissa exponent => writeFinite .json negative mantissa exponent
  | _ => "null"

end Binary64

end LivePages
