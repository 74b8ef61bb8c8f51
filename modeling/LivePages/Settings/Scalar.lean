import LivePages.Number.Reading
import LivePages.Settings.Value
import LivePages.Text.CodePoint
import LivePages.Text.Pieces

namespace LivePages

/-- A character that stands for itself in a quoted text. -/
def isPlainChar (c : Char) : Bool :=
  c == '\t' || (' ' ≤ c && c != '\x7f')

/-- The character after a backslash, if one letter names it. -/
def namedEscape : Char → Option Char
  | 'b' => some '\x08'
  | 'f' => some '\x0c'
  | 'n' => some '\n'
  | 'r' => some '\r'
  | 't' => some '\t'
  | '\\' => some '\\'
  | '"' => some '"'
  | _ => none

def consRead (c : Char) (r : Option (List Char × List Char)) : Option (List Char × List Char) :=
  r.map fun (cs, rest) => (c :: cs, rest)

/-- A text in double quotes on one line, from behind the first quote. -/
def readQuoted : List Char → Option (List Char × List Char)
  | [] => none
  | '"' :: rest => some ([], rest)
  | '\\' :: 'u' :: a :: b :: c :: d :: rest =>
    (charOfHex? [a, b, c, d]).bind fun e => consRead e (readQuoted rest)
  | '\\' :: 'U' :: a :: b :: c :: d :: e :: f :: g :: h :: rest =>
    (charOfHex? [a, b, c, d, e, f, g, h]).bind fun e => consRead e (readQuoted rest)
  | '\\' :: c :: rest => (namedEscape c).bind fun e => consRead e (readQuoted rest)
  | c :: rest => if isPlainChar c then consRead c (readQuoted rest) else none

/-- Whether the rest of the line is blank and another line follows. -/
def endsLine : List Char → Bool
  | ' ' :: rest => endsLine rest
  | '\t' :: rest => endsLine rest
  | '\n' :: _ => true
  | '\r' :: '\n' :: _ => true
  | _ => false

/-- Up to two quotes that stand before the three closing ones. -/
def readClosing (quote : Char) : List Char → List Char × List Char
  | a :: b :: rest =>
    if a = quote ∧ b = quote then ([a, b], rest)
    else if a = quote then ([a], b :: rest) else ([], a :: b :: rest)
  | [a] => if a = quote then ([a], []) else ([], [a])
  | [] => ([], [])

/-- A text in three double quotes. After a backslash at the end of a line everything is skipped up
to the next visible character. -/
def readQuotedLines : Bool → List Char → Option (List Char × List Char)
  | _, [] => none
  | _, '"' :: '"' :: '"' :: rest => some (readClosing '"' rest)
  | skipping, '\r' :: '\n' :: rest =>
    if skipping then readQuotedLines true rest else consRead '\n' (readQuotedLines false rest)
  | _, '\\' :: 'u' :: a :: b :: c :: d :: rest =>
    (charOfHex? [a, b, c, d]).bind fun e => consRead e (readQuotedLines false rest)
  | _, '\\' :: 'U' :: a :: b :: c :: d :: e :: f :: g :: h :: rest =>
    (charOfHex? [a, b, c, d, e, f, g, h]).bind fun e => consRead e (readQuotedLines false rest)
  | _, '\\' :: c :: rest =>
    match namedEscape c with
    | some e => consRead e (readQuotedLines false rest)
    | none => if endsLine (c :: rest) then readQuotedLines true (c :: rest) else none
  | skipping, c :: rest =>
    if skipping ∧ (c = ' ' ∨ c = '\t' ∨ c = '\n') then readQuotedLines true rest
    else if isPlainChar c ∨ c = '\n' then consRead c (readQuotedLines false rest) else none

/-- A text in single quotes on one line; a backslash stands for itself. -/
def readLiteral : List Char → Option (List Char × List Char)
  | [] => none
  | c :: rest =>
    if c = '\'' then some ([], rest)
    else if isPlainChar c then consRead c (readLiteral rest) else none

def readLiteralLines : List Char → Option (List Char × List Char)
  | [] => none
  | '\'' :: '\'' :: '\'' :: rest => some (readClosing '\'' rest)
  | '\r' :: '\n' :: rest => consRead '\n' (readLiteralLines rest)
  | c :: rest =>
    if isPlainChar c ∨ c = '\n' then consRead c (readLiteralLines rest) else none

/-- A line break behind the opening quotes does not belong to the text. -/
def dropLineBreak : List Char → List Char
  | '\n' :: rest => rest
  | '\r' :: '\n' :: rest => rest
  | cs => cs

def textRead (r : Option (List Char × List Char)) : Option (String × List Char) :=
  r.map fun (cs, rest) => (String.ofList cs, rest)

def readText : List Char → Option (String × List Char)
  | '"' :: '"' :: '"' :: rest => textRead (readQuotedLines false (dropLineBreak rest))
  | '"' :: rest => textRead (readQuoted rest)
  | '\'' :: '\'' :: '\'' :: rest => textRead (readLiteralLines (dropLineBreak rest))
  | '\'' :: rest => textRead (readLiteral rest)
  | _ => none

/-- Digits without their underscores; each underscore stands between two digits. -/
def joinDigits? (isDigit : Char → Bool) (digits : List Char) : Option (List Char) :=
  let groups := splitAtChar '_' digits
  if groups.all fun g => !g.isEmpty && g.all isDigit then some groups.flatten else none

/-- A whole number without superfluous zeros. -/
def wholeDigits? (digits : List Char) : Option (List Char) :=
  if digits.headD '0' = '0' ∧ digits ≠ ['0'] then none else joinDigits? isDecimalDigit digits

def isGroupedDigit (c : Char) : Bool :=
  isDecimalDigit c || c == '_'

/-- The digits between a point and what follows; there is no point if there are none. -/
def fractionDigits? : List Char → Option (List Char × List Char)
  | '.' :: rest =>
    (joinDigits? isDecimalDigit (rest.takeWhile isGroupedDigit)).map
      (·, rest.dropWhile isGroupedDigit)
  | cs => some ([], cs)

def exponent? : List Char → Option Int
  | [] => some 0
  | c :: rest =>
    if c = 'e' ∨ c = 'E' then
      let (negative, digits) := readSign rest
      (joinDigits? isDecimalDigit digits).map fun ds =>
        if negative then -(digitsValue 10 ds : Int) else digitsValue 10 ds
    else none

/-- A number with a point or an exponent. It does not exceed the greatest one. -/
def readFraction? (negative : Bool) (cs : List Char) : Option Binary64 := do
  let whole ← wholeDigits? (cs.takeWhile isGroupedDigit)
  let rest := cs.dropWhile isGroupedDigit
  let (fraction, rest) ← fractionDigits? rest
  let exponent ← exponent? rest
  let number := Binary64.ofDecimal negative (digitsValue 10 (whole ++ fraction))
    (exponent - fraction.length)
  if number = .infinity false then none else some number

/-- Whole numbers have 64 bits, one of them for the sign. -/
def integer? (n : Int) : Option SettingValue :=
  if -9223372036854775808 ≤ n ∧ n ≤ 9223372036854775807 then some (.integer n) else none

def readBased? (base : Nat) (isDigit : Char → Bool) (digits : List Char) : Option SettingValue :=
  (joinDigits? isDigit digits).bind fun ds => integer? (digitsValue base ds)

/-- A number or a truth value from all characters of its word. -/
def readWord? (word : List Char) : Option SettingValue :=
  match word with
  | ['t', 'r', 'u', 'e'] => some (.flag true)
  | ['f', 'a', 'l', 's', 'e'] => some (.flag false)
  | '0' :: 'x' :: digits => readBased? 16 isHexDigit digits
  | '0' :: 'o' :: digits => readBased? 8 (fun c => '0' ≤ c && c ≤ '7') digits
  | '0' :: 'b' :: digits => readBased? 2 (fun c => c == '0' || c == '1') digits
  | _ =>
    let (negative, unsigned) := readSign word
    if unsigned = ['i', 'n', 'f'] then some (.number (.infinity negative))
    else if unsigned = ['n', 'a', 'n'] then some (.number .notANumber)
    else if unsigned.all isGroupedDigit then
      (wholeDigits? unsigned).bind fun ds =>
        integer? (if negative then -(digitsValue 10 ds : Int) else digitsValue 10 ds)
    else (readFraction? negative unsigned).map .number

end LivePages
