import LivePages.Html.Characters
import LivePages.Html.NamedCharacters

namespace LivePages

def hexDigitValue? (c : Char) : Option Nat :=
  if '0' ≤ c && c ≤ '9' then some (c.toNat - '0'.toNat)
  else if 'a' ≤ c && c ≤ 'f' then some (c.toNat - 'a'.toNat + 10)
  else if 'A' ≤ c && c ≤ 'F' then some (c.toNat - 'A'.toNat + 10)
  else none

def decimalDigitValue? (c : Char) : Option Nat :=
  if '0' ≤ c && c ≤ '9' then some (c.toNat - '0'.toNat) else none

/-- Reads digits of a base as far as they go: their value, if there are any, and the rest. -/
def readDigits (base : Nat) (digit? : Char → Option Nat) :
    Option Nat → List Char → Option Nat × List Char
  | value, [] => (value, [])
  | value, c :: cs =>
    match digit? c with
    | some d => readDigits base digit? (some (value.getD 0 * base + d)) cs
    | none => (value, c :: cs)

/-- What the code points 128 to 159 stand for in a numeric reference; 0 keeps the code point. -/
def controlReplacements : List Nat :=
  [0x20ac, 0, 0x201a, 0x0192, 0x201e, 0x2026, 0x2020, 0x2021, 0x02c6, 0x2030, 0x0160, 0x2039,
    0x0152, 0, 0x017d, 0, 0, 0x2018, 0x2019, 0x201c, 0x201d, 0x2022, 0x2013, 0x2014, 0x02dc,
    0x2122, 0x0161, 0x203a, 0x0153, 0, 0x017e, 0x0178]

/-- The character that a number stands for. -/
def numericCharacter (n : Nat) : Char :=
  if n = 0 || n > 0x10ffff || (0xd800 ≤ n && n ≤ 0xdfff) then '\ufffd'
  else if 0x80 ≤ n && n ≤ 0x9f then
    match controlReplacements.getD (n - 0x80) 0 with
    | 0 => Char.ofNat n
    | m => Char.ofNat m
  else Char.ofNat n

/-- The longest name of a list that the input starts with: its text, its meaning and the rest. -/
def longestName (cs : List Char) : List (String × List Nat) →
    Option (List Char × List Nat × List Char) → Option (List Char × List Nat × List Char)
  | [], best => best
  | (name, meaning) :: names, best =>
    match afterText? name.toList cs with
    | none => longestName cs names best
    | some rest =>
      match best with
      | some (found, _, _) =>
        if found.length < name.toList.length then
          longestName cs names (some (name.toList, meaning, rest))
        else longestName cs names best
      | none => longestName cs names (some (name.toList, meaning, rest))

/-- A name without semicolon is plain text in an attribute where it could be part of an address. -/
def continuesAddress : List Char → Bool
  | [] => false
  | c :: _ => c == '=' || isAsciiAlphanumeric c

def dropSemicolon : List Char → List Char
  | ';' :: rest => rest
  | cs => cs

def numericReference? (base : Nat) (digit? : Char → Option Nat) (cs : List Char) :
    Option (List Char × List Char) :=
  match readDigits base digit? none cs with
  | (none, _) => none
  | (some n, rest) => some ([numericCharacter n], dropSemicolon rest)

def namedReference? (inAttribute : Bool) (cs : List Char) : Option (List Char × List Char) :=
  match longestName cs (charactersNamedFrom (cs.headD ' ')) none with
  | none => none
  | some (name, meaning, rest) =>
    if inAttribute && name.getLast? != some ';' && continuesAddress rest then none
    else some (meaning.map Char.ofNat, rest)

/-- The characters of the reference whose ampersand has just been read, and the rest. -/
def characterReference? (inAttribute : Bool) : List Char → Option (List Char × List Char)
  | '#' :: 'x' :: cs => numericReference? 16 hexDigitValue? cs
  | '#' :: 'X' :: cs => numericReference? 16 hexDigitValue? cs
  | '#' :: cs => numericReference? 10 decimalDigitValue? cs
  | cs => namedReference? inAttribute cs

/-- Replaces character references, reading at most as many characters as the first argument. -/
def decodeReferencesUpTo (inAttribute : Bool) : Nat → List Char → List Char
  | 0, _ => []
  | _ + 1, [] => []
  | bound + 1, '&' :: cs =>
    match characterReference? inAttribute cs with
    | some (found, rest) => found ++ decodeReferencesUpTo inAttribute bound rest
    | none => '&' :: decodeReferencesUpTo inAttribute bound cs
  | bound + 1, c :: cs => c :: decodeReferencesUpTo inAttribute bound cs

/-- Replaces the character references of a text or of an attribute value. -/
def decodeReferences (inAttribute : Bool) (cs : List Char) : List Char :=
  decodeReferencesUpTo inAttribute cs.length cs

end LivePages
