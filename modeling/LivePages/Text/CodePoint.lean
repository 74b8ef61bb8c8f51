import LivePages.Number.Digits

namespace LivePages

/-- The halves of a code point in sixteen-bit units are not characters themselves. -/
def isHighHalf (n : Nat) : Bool :=
  0xd800 ≤ n && n ≤ 0xdbff

def isLowHalf (n : Nat) : Bool :=
  0xdc00 ≤ n && n ≤ 0xdfff

/-- The code point of two halves. -/
def joinHalves (high low : Nat) : Nat :=
  0x10000 + (high - 0xd800) * 0x400 + (low - 0xdc00)

def charOfCode? (n : Nat) : Option Char :=
  if h : n.isValidChar then some (Char.ofNatAux n h) else none

/-- The character whose code point a list of digits gives. -/
def charOfHex? (digits : List Char) : Option Char :=
  if digits.all isHexDigit then charOfCode? (digitsValue 16 digits) else none

end LivePages
