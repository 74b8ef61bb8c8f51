import LivePages.Number.Binary64
import LivePages.Number.Digits

namespace LivePages

def greatestCount : Nat := 18446744073709551615

def dropPlus : List Char → List Char
  | '+' :: rest => rest
  | cs => cs

/-- A count: digits, perhaps after a plus. -/
def readCount (text : String) : Option Nat :=
  let digits := dropPlus text.toList
  let n := digitsValue 10 digits
  if digits.isEmpty || !digits.all isDecimalDigit || n > greatestCount then none else some n

/-- A sign, if there is one: whether it is a minus, and what follows. -/
def readSign : List Char → Bool × List Char
  | '-' :: rest => (true, rest)
  | '+' :: rest => (false, rest)
  | cs => (false, cs)

/-- An exponent that takes up all of a text; a missing one is zero. -/
def readExponent : List Char → Option Int
  | [] => some 0
  | c :: rest =>
    if c == 'e' || c == 'E' then
      let (negative, digits) := readSign rest
      if digits.isEmpty || !digits.all isDecimalDigit then none
      else
        let n : Int := digitsValue 10 digits
        some (if negative then -n else n)
    else none

/-- A number in decimal notation: digits with or without a point, perhaps a sign and an exponent.
At least one digit stands before or after the point. -/
def readDecimal (text : String) : Option Binary64 :=
  let (negative, unsigned) := readSign text.toList
  let whole := unsigned.takeWhile isDecimalDigit
  let afterWhole := unsigned.dropWhile isDecimalDigit
  let (fraction, rest) :=
    match afterWhole with
    | '.' :: cs => (cs.takeWhile isDecimalDigit, cs.dropWhile isDecimalDigit)
    | cs => ([], cs)
  if whole.isEmpty && fraction.isEmpty then none
  else
    (readExponent rest).map fun exponent =>
      .ofDecimal negative (digitsValue 10 (whole ++ fraction)) (exponent - fraction.length)

end LivePages
