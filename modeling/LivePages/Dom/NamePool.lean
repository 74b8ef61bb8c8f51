import LivePages.Dom.NameTable
import LivePages.Text.Map

namespace LivePages

/-- The characters behind a number of bytes. A number that ends inside a character or behind the last
one leads nowhere. -/
def dropBytes : Nat → List Char → Option (List Char)
  | 0, cs => some cs
  | _ + 1, [] => none
  | n + 1, c :: cs => if c.utf8Size ≤ n + 1 then dropBytes (n + 1 - c.utf8Size) cs else none

/-- The characters that fill a number of bytes. -/
def takeBytes : Nat → List Char → Option (List Char)
  | 0, _ => some []
  | _ + 1, [] => none
  | n + 1, c :: cs =>
    if c.utf8Size ≤ n + 1 then (takeBytes (n + 1 - c.utf8Size) cs).map (c :: ·) else none

/-- A stretch of a text by its start and its length in bytes. -/
def stretch? (text : String) (start length : Nat) : Option String :=
  ((dropBytes start text.toList).bind (takeBytes length)).map String.ofList

/-- Where a name stands in the joined text, in bytes. -/
structure NameSpan where
  start : UInt32
  length : UInt32
  deriving DecidableEq

def NameSpan.behind (joined name : String) : NameSpan :=
  ⟨joined.utf8ByteSize.toUInt32, name.utf8ByteSize.toUInt32⟩

/-- Distinct names, one behind the other in a single text. The stretches of that text stand in the
order of the numbers, and each name leads to its number. -/
structure NamePool where
  joined : String
  spans : Array NameSpan
  numbers : TextMap UInt32

namespace NamePool

def empty : NamePool :=
  ⟨"", #[], .empty⟩

/-- The number of a name that has been used. -/
def lookup (p : NamePool) (name : String) : Option UInt32 :=
  p.numbers.lookup name

/-- Puts a new name behind the others, under the next number. -/
def add (p : NamePool) (name : String) : NamePool where
  joined := p.joined ++ name
  spans := p.spans.push (.behind p.joined name)
  numbers := p.numbers.insert name p.spans.size.toUInt32

def intern (p : NamePool) (name : String) : NamePool × UInt32 :=
  match p.lookup name with
  | some number => (p, number)
  | none => (p.add name, p.spans.size.toUInt32)

def internAll (p : NamePool) (names : List String) : NamePool :=
  names.foldl (fun p name => (p.intern name).1) p

/-- The name with a given number; the empty name stands for every unused number. There is no answer
if a stretch does not start and end between characters of the joined text. -/
def get? (p : NamePool) (number : UInt32) : Option String :=
  match p.spans[number.toNat]? with
  | some span => stretch? p.joined span.start.toNat span.length.toNat
  | none => some ""

def length (p : NamePool) : Nat :=
  p.spans.size

def isEmpty (p : NamePool) : Bool :=
  p.spans.isEmpty

/-- The names every page uses have the same numbers as in a table. -/
def standard : NamePool :=
  empty.internAll NameTable.standard.names

end NamePool

end LivePages
