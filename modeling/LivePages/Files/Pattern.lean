import LivePages.Text.Pieces

namespace LivePages

/-- The characters that do not stand for themselves in a pattern. -/
def isPatternMark (c : Char) : Bool :=
  c == '?' || c == '*' || c == '[' || c == ']'

/-- The text as a pattern that matches nothing else: what is special stands in brackets. -/
def escapePattern (text : String) : String :=
  String.ofList (text.toList.flatMap fun c => if isPatternMark c then ['[', c, ']'] else [c])

/-- The one text that a pattern matches whose special characters all stand in brackets. -/
def literalText? : List Char → Option (List Char)
  | [] => some []
  | '[' :: c :: ']' :: rest => if isPatternMark c then (literalText? rest).map (c :: ·) else none
  | c :: rest => if isPatternMark c then none else (literalText? rest).map (c :: ·)

/-- A piece of a pattern that matches one name. Where something stands in brackets, the name is
looked for among the entries of a directory. -/
structure PatternPiece where
  name : String
  bracketed : Bool
  deriving DecidableEq

def PatternPiece.ofText? (piece : String) : Option PatternPiece :=
  (literalText? piece.toList).map fun name => ⟨String.ofList name, piece.toList.any isPatternMark⟩

end LivePages
