namespace LivePages

/-- Where a command line is being read. -/
inductive CommandState where
  | blank
  | comment
  | word
  | single
  | double
  deriving DecidableEq

def isCommandBlank (c : Char) : Bool :=
  c == ' ' || c == '\t' || c == '\n'

/-- What a backslash escapes within double quotes. -/
def isEscapable (c : Char) : Bool :=
  c == '$' || c == '\x60' || c == '"' || c == '\\'

/-- Puts a character before the first word. -/
def consChar (c : Char) : List (List Char) → List (List Char)
  | [] => [[c]]
  | word :: words => (c :: word) :: words

/-- The words of a command line; in a word, the first of them is the rest of it. Quotes may join
parts of a word, a backslash takes the next character as it is, and a comment goes up to the end
of its line. An open quote or a backslash at the end is a mistake. -/
def splitWords : CommandState → List Char → Option (List (List Char))
  | .blank, [] => some []
  | .comment, [] => some []
  | .word, [] => some [[]]
  | .single, [] => none
  | .double, [] => none
  | .comment, c :: cs => splitWords (if c = '\n' then .blank else .comment) cs
  | .single, c :: cs =>
    if c = '\'' then splitWords .word cs else (splitWords .single cs).map (consChar c)
  | .double, '\\' :: c :: cs =>
    if isEscapable c then (splitWords .double cs).map (consChar c)
    else if c = '\n' then splitWords .double cs
    else (splitWords .double cs).map fun words => consChar '\\' (consChar c words)
  | .double, c :: cs =>
    if c = '"' then splitWords .word cs
    else if c = '\\' then none
    else (splitWords .double cs).map (consChar c)
  | _, '\\' :: c :: cs =>
    if c = '\n' then splitWords .word cs else (splitWords .word cs).map (consChar c)
  | state, c :: cs =>
    if c = '\\' then none
    else if c = '"' then splitWords .double cs
    else if c = '\'' then splitWords .single cs
    else if isCommandBlank c then
      if state = .blank then splitWords .blank cs else (splitWords .blank cs).map ([] :: ·)
    else if c = '#' ∧ state = .blank then splitWords .comment cs
    else (splitWords .word cs).map (consChar c)

def commandWords (text : String) : Option (List String) :=
  (splitWords .blank text.toList).map fun words => words.map String.ofList

end LivePages
