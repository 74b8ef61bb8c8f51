import LivePages.Text.Hex

namespace LivePages

inductive ScalarStyle where
  | plain
  | single
  | double
  | literal
  deriving DecidableEq

/-- Characters that need no escape: neither control characters nor the marks of byte order. -/
def isPrintable (c : Char) : Bool :=
  let n := c.toNat
  c == '\n' || (0x20 ≤ n && n ≤ 0x7e) ||
    (0xa0 ≤ n && n != 0xfeff && n != 0xfffe && n != 0xffff)

def isLineBreak (c : Char) : Bool :=
  c == '\n' || c == '\r' || c == '\x85' || c == '\u2028' || c == '\u2029'

def endsWord (c : Char) : Bool :=
  c == ' ' || c == '\t' || c == '\x00' || isLineBreak c

def startsWithEnd : List Char → Bool
  | [] => true
  | c :: _ => endsWord c

/-- Whether two kinds of characters stand side by side. -/
def adjacent (p q : Char → Bool) : List Char → Bool
  | a :: b :: rest => (p a && q b) || adjacent p q (b :: rest)
  | _ => false

/-- Characters that start something else than a plain text. -/
def isIndicator (c : Char) : Bool :=
  ['#', ',', '[', ']', '\x7b', '\x7d', '&', '*', '!', '|', '>', '\'', '"', '%', '@',
    '\x60'].contains c

/-- A colon at the end of a word makes a key, and a hash at the start of one a comment. -/
def hasInnerIndicator (afterWord : Bool) : List Char → Bool
  | [] => false
  | c :: rest =>
    (c == ':' && startsWithEnd rest) || (c == '#' && afterWord) ||
      hasInnerIndicator (endsWord c) rest

def hasFirstIndicator : List Char → Bool
  | [] => false
  | c :: rest =>
    isIndicator c || ((c == '?' || c == ':' || c == '-') && startsWithEnd rest)

/-- Three dashes or points at the start end a document. -/
def startsDocument (cs : List Char) : Bool :=
  ['-', '-', '-'].isPrefixOf cs || ['.', '.', '.'].isPrefixOf cs

def hasIndicator (cs : List Char) : Bool :=
  startsDocument cs || hasFirstIndicator cs ||
    hasInnerIndicator (cs.head?.any endsWord) (cs.drop 1)

def isBlankEnd (c : Char) : Bool :=
  c == ' ' || isLineBreak c

def hasBlankEnds (cs : List Char) : Bool :=
  cs.head?.any isBlankEnd || cs.getLast?.any isBlankEnd

def needsEscapes (cs : List Char) : Bool :=
  cs.any (fun c => !isPrintable c) || adjacent (· == ' ') isLineBreak cs

def styleOf (cs : List Char) : ScalarStyle :=
  if cs.contains '\n' then
    if needsEscapes cs || cs.getLast? == some ' ' then .double else .literal
  else if needsEscapes cs || adjacent isLineBreak (· == ' ') cs then .double
  else if hasBlankEnds cs || cs.any isLineBreak || hasIndicator cs then .single
  else .plain

def padding (indent : Nat) : List Char :=
  List.replicate indent ' '

/-- Between single quotes, a quote is written twice and each line starts at the indent. -/
def writeSingle (indent : Nat) (afterBreak : Bool) : List Char → List Char
  | [] => []
  | c :: cs =>
    if isLineBreak c then c :: writeSingle indent true cs
    else if c = ' ' then c :: writeSingle indent afterBreak cs
    else
      (if afterBreak then padding indent else []) ++ (if c = '\'' then ['\'', '\''] else [c]) ++
        writeSingle indent false cs

/-- A character by the digits of its code point. -/
def escapeCode (mark : Char) (width n : Nat) : List Char :=
  let digits := (Nat.toDigits 16 n).map Char.toUpper
  '\\' :: mark :: List.replicate (width - digits.length) '0' ++ digits

def escapeScalarChar (c : Char) : List Char :=
  match c with
  | '\x00' => ['\\', '0']
  | '\x07' => ['\\', 'a']
  | '\x08' => ['\\', 'b']
  | '\t' => ['\\', 't']
  | '\n' => ['\\', 'n']
  | '\x0b' => ['\\', 'v']
  | '\x0c' => ['\\', 'f']
  | '\r' => ['\\', 'r']
  | '\x1b' => ['\\', 'e']
  | '"' => ['\\', '"']
  | '\\' => ['\\', '\\']
  | '\x85' => ['\\', 'N']
  | '\u2028' => ['\\', 'L']
  | '\u2029' => ['\\', 'P']
  | c =>
    if isPrintable c then [c]
    else if c.toNat ≤ 0xff then escapeCode 'x' 2 c.toNat
    else if c.toNat ≤ 0xffff then escapeCode 'u' 4 c.toNat
    else escapeCode 'U' 8 c.toNat

/-- Lines that stand for themselves, each at the indent unless it is empty. -/
def writeLiteral (indent : Nat) (afterBreak : Bool) : List Char → List Char
  | [] => []
  | c :: cs =>
    if isLineBreak c then c :: writeLiteral indent true cs
    else (if afterBreak then padding indent else []) ++ c :: writeLiteral indent false cs

/-- What stands before literal lines: an indent if they start with a blank, and that no line break
follows the last one. -/
def literalHeader (cs : List Char) : List Char :=
  '|' :: (if cs.head?.any isBlankEnd then ['2'] else []) ++ ['-', '\n']

/-- A text that does not end with a line break and could not be taken for anything but a text. -/
def writeScalar (indent : Nat) (text : String) : String :=
  let cs := text.toList
  String.ofList
    (match styleOf cs with
      | .plain => cs
      | .single => '\'' :: writeSingle indent false cs ++ ['\'']
      | .double => '"' :: cs.flatMap escapeScalarChar ++ ['"']
      | .literal => literalHeader cs ++ writeLiteral indent true cs)

end LivePages
