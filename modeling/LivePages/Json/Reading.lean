import LivePages.Json.Value
import LivePages.Number.Reading
import LivePages.Text.CodePoint

namespace LivePages

def isJsonBlank (c : Char) : Bool :=
  c == ' ' || c == '\n' || c == '\t' || c == '\r'

def dropJsonBlanks (cs : List Char) : List Char :=
  cs.dropWhile isJsonBlank

/-- The character after a backslash, if one letter names it. -/
def jsonEscape : Char → Option Char
  | '"' => some '"'
  | '\\' => some '\\'
  | '/' => some '/'
  | 'b' => some '\x08'
  | 'f' => some '\x0c'
  | 'n' => some '\n'
  | 'r' => some '\r'
  | 't' => some '\t'
  | _ => none

def consUnit (n : Nat) (r : Option (List Nat × List Char)) : Option (List Nat × List Char) :=
  r.map fun (units, rest) => (n :: units, rest)

/-- The code units of a text, from behind its first quote; an escape gives one unit. -/
def readUnits : List Char → Option (List Nat × List Char)
  | [] => none
  | '"' :: rest => some ([], rest)
  | '\\' :: 'u' :: a :: b :: c :: d :: rest =>
    if [a, b, c, d].all isHexDigit then consUnit (digitsValue 16 [a, b, c, d]) (readUnits rest)
    else none
  | '\\' :: c :: rest => (jsonEscape c).bind fun e => consUnit e.toNat (readUnits rest)
  | c :: rest => if c < ' ' then none else consUnit c.toNat (readUnits rest)

/-- The characters of code units; two halves make one character, and no half stands alone. -/
def joinUnits : List Nat → Option (List Char)
  | [] => some []
  | [n] => (charOfCode? n).map ([·])
  | n :: m :: rest =>
    if isHighHalf n ∧ isLowHalf m then
      (charOfCode? (joinHalves n m)).bind fun c => (joinUnits rest).map (c :: ·)
    else (charOfCode? n).bind fun c => (joinUnits (m :: rest)).map (c :: ·)

/-- A text from behind its first quote; nothing if it has half a character. -/
def readJsonText (cs : List Char) : Option (Option String × List Char) :=
  (readUnits cs).map fun (units, rest) => ((joinUnits units).map String.ofList, rest)

/-- Adds digits to a number as long as it has 64 bits; also the digits that did not fit. -/
def gather : Nat → List Char → Nat × List Char
  | n, [] => (n, [])
  | n, c :: cs =>
    let next := n * 10 + digitsValue 10 [c]
    if greatestCount < next then (n, c :: cs) else gather next cs

/-- The quotient by a power of ten in steps that a power can be written down for; every step is
rounded. -/
def divideByTens (x : Binary64) (power : Nat) : Binary64 :=
  if power ≤ 308 then x.overPowerOfTen power
  else if x.isZero then x
  else divideByTens (x.overPowerOfTen 308) (power - 308)
termination_by power

/-- A rounded significand times a power of ten, rounded again. -/
def scaledNumber (negative : Bool) (significand : Nat) (exponent : Int) : JsonValue :=
  let x := Binary64.ofNat significand
  let y :=
    if exponent < 0 then divideByTens x exponent.natAbs
    else if x.isZero then x
    else if 308 < exponent then .infinity false
    else x.timesPowerOfTen exponent.toNat
  if y.isFinite then .number (if negative then y.negate else y) else .unreadable

/-- The digits behind a point, if there is one. -/
def jsonFraction : List Char → Option (List Char × List Char)
  | '.' :: rest =>
    let digits := rest.takeWhile isDecimalDigit
    if digits.isEmpty then none else some (digits, rest.dropWhile isDecimalDigit)
  | cs => some ([], cs)

def jsonExponent : List Char → Option (Option Int × List Char)
  | [] => some (none, [])
  | c :: rest =>
    if c = 'e' ∨ c = 'E' then
      let (negative, rest) := readSign rest
      let digits := rest.takeWhile isDecimalDigit
      let n : Int := digitsValue 10 digits
      if digits.isEmpty then none
      else some (some (if negative then -n else n), rest.dropWhile isDecimalDigit)
    else some (none, c :: rest)

/-- A number without its sign. A natural number has 64 bits; beyond that, and with a point or an
exponent, the first digits that have 64 bits count. -/
def readJsonNumber (negative : Bool) (cs : List Char) : Option (JsonValue × List Char) := do
  let digits := cs.takeWhile isDecimalDigit
  if digits.isEmpty ∨ (digits.headD '0' = '0' ∧ digits.length ≠ 1) then none
  else
    let (fraction, rest) ← jsonFraction (cs.dropWhile isDecimalDigit)
    let (exponent, rest) ← jsonExponent rest
    let (n, excess) := gather 0 digits
    let value :=
      if fraction.isEmpty ∧ exponent.isNone ∧ excess.isEmpty then
        if negative then .number (.round true n 1) else .natural n
      else
        let (significand, dropped) := gather n fraction
        scaledNumber negative significand
          (excess.length - (fraction.length - dropped.length : Nat) + exponent.getD 0)
    some (value, rest)

/-- A word that stands for one value. -/
def readJsonWord (word : String) (value : JsonValue) (cs : List Char) :
    Option (JsonValue × List Char) :=
  if word.toList.isPrefixOf cs then some (value, cs.drop word.length) else none

mutual

def readJsonValue : Nat → List Char → Option (JsonValue × List Char)
  | 0, _ => none
  | bound + 1, cs =>
    match dropJsonBlanks cs with
    | '[' :: rest =>
      match dropJsonBlanks rest with
      | ']' :: rest => some (.list [], rest)
      | rest => (readJsonItems bound rest).map fun (items, rest) => (.list items, rest)
    | '\x7b' :: rest =>
      match dropJsonBlanks rest with
      | '\x7d' :: rest => some (.record [], rest)
      | rest => (readJsonFields bound rest).map fun (fields, rest) =>
          (match fields with
            | some fields => .record fields
            | none => .unreadable, rest)
    | '"' :: rest => (readJsonText rest).map fun (s, rest) =>
        (match s with
          | some s => .text s
          | none => .unreadable, rest)
    | '-' :: rest => readJsonNumber true rest
    | 't' :: rest => readJsonWord "true" (.boolean true) ('t' :: rest)
    | 'f' :: rest => readJsonWord "false" (.boolean false) ('f' :: rest)
    | 'n' :: rest => readJsonWord "null" .null ('n' :: rest)
    | rest => readJsonNumber false rest

/-- The items of a list that has at least one. -/
def readJsonItems : Nat → List Char → Option (List JsonValue × List Char)
  | 0, _ => none
  | bound + 1, cs => do
    let (item, rest) ← readJsonValue bound cs
    match dropJsonBlanks rest with
    | ',' :: rest =>
      let (items, rest) ← readJsonItems bound rest
      some (item :: items, rest)
    | ']' :: rest => some ([item], rest)
    | _ => none

/-- The fields of a record that has at least one; nothing if a name has half a character. -/
def readJsonFields : Nat → List Char → Option (Option (List (String × JsonValue)) × List Char)
  | 0, _ => none
  | bound + 1, cs =>
    match dropJsonBlanks cs with
    | '"' :: rest => do
      let (name, rest) ← readJsonText rest
      match dropJsonBlanks rest with
      | ':' :: rest =>
        let (value, rest) ← readJsonValue bound rest
        match dropJsonBlanks rest with
        | ',' :: rest =>
          let (fields, rest) ← readJsonFields bound rest
          some (name.bind fun name => fields.map ((name, value) :: ·), rest)
        | '\x7d' :: rest => some (name.map fun name => [(name, value)], rest)
        | _ => none
      | _ => none
    | _ => none

end

def JsonValue.ofText? (text : String) : Option JsonValue :=
  match readJsonValue (text.toList.length + 1) text.toList with
  | some (value, rest) => if (dropJsonBlanks rest).isEmpty then some value else none
  | none => none

end LivePages
