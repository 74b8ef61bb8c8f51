import LivePages.Html.Characters

namespace LivePages

structure Tag where
  name : String
  attributes : List (String × String)
  selfClosing : Bool
  deriving DecidableEq

namespace Tag

def bare (name : String) : Tag :=
  ⟨name, [], false⟩

def attribute? (t : Tag) (name : String) : Option String :=
  t.attributes.lookup name

/-- The same name with the same attributes in any order. -/
def isLike (t u : Tag) : Bool :=
  t.name == u.name && t.attributes.isPerm u.attributes

end Tag

structure Doctype where
  name : Option String
  publicId : Option String
  systemId : Option String
  /-- Set where the declaration is malformed. -/
  forceQuirks : Bool

/-- What a page is made of, in the order of its text. Character data come as runs of space and runs
of other characters. -/
inductive Token where
  | space (run : String)
  | text (run : String)
  | null
  | startTag (tag : Tag)
  | endTag (tag : Tag)
  | comment (content : String)
  | doctype (d : Doctype)
  | endOfFile

/-- How the text after a start tag is read. -/
inductive ContentModel where
  | markup
  | escapable
  | raw
  | script
  | plain
  deriving DecidableEq

/-- Splits a list into maximal runs on which a classification is constant. -/
def runsBy {κ : Type} [DecidableEq κ] (kind : Char → κ) : List Char → List (κ × List Char)
  | [] => []
  | c :: cs =>
    match runsBy kind cs with
    | (k, run) :: rest => if kind c = k then (k, c :: run) :: rest else (kind c, [c]) :: (k, run) :: rest
    | [] => [(kind c, [c])]

def spaceTokens (cs : List Char) : List Token :=
  (runsBy isHtmlSpace cs).map fun (space, run) =>
    if space then .space (String.ofList run) else .text (String.ofList run)

/-- The tokens of character data in which every NUL stands for itself. -/
def characterTokens (decode : List Char → List Char) (cs : List Char) : List Token :=
  (runsBy (· == '\x00') cs).flatMap fun (null, run) =>
    if null then run.map fun _ => .null else spaceTokens (decode run)

end LivePages
