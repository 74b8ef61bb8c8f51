import LivePages.Dom.Edit
import LivePages.Dom.Traversal
import LivePages.Text.Order

namespace LivePages

/-- A small element described outside any tree. -/
structure Template where
  tag : String
  attributes : List (String × String)
  text : Option String
  deriving DecidableEq

namespace Template

/-- An element without attributes or text; ASCII letters of the tag become lower case. -/
def ofTag (tag : String) : Template :=
  ⟨String.ofList (tag.toList.map Char.toLower), [], none⟩

def withAttribute (t : Template) (name value : String) : Template :=
  { t with attributes := t.attributes ++ [(name, value)] }

def withText (t : Template) (text : String) : Template :=
  { t with text := some text }

def scriptSource (src : String) : Template :=
  (ofTag "script").withAttribute "src" src

def inlineScript (code : String) : Template :=
  (ofTag "script").withText code

def stylesheet (href : String) : Template :=
  ((ofTag "link").withAttribute "rel" "stylesheet").withAttribute "href" href

def attribute? (t : Template) (name : String) : Option String :=
  t.attributes.lookup name

end Template

namespace Tree

def instantiate (t : Tree) (template : Template) : Tree × NodeId :=
  let (bare, id) := t.createElement template.tag
  let dressed := template.attributes.foldl (fun acc (name, value) => acc.setAttribute id name value) bare
  match template.text with
  | none => (dressed, id)
  | some text =>
    let (grown, textId) := dressed.createText text
    (grown.appendChild id textId, id)

/-- The joined text of a list of nodes, if all of them are texts. -/
def joinedText? (t : Tree) : List NodeId → Option String
  | [] => some ""
  | id :: rest => do
    let first ← t.text? id
    let others ← t.joinedText? rest
    return first ++ others

/-- Whether an element has the tag, attributes and text of a template, attributes in any order. -/
def matchesTemplate (t : Tree) (id : NodeId) (template : Template) : Bool :=
  match t.element? id with
  | none => false
  | some e =>
    e.tag == template.tag && e.attributes.isPerm template.attributes &&
      t.joinedText? (t.children id) == some (template.text.getD "")

/-- The text of one node after another, behind a text that is there; no text once a node has none. -/
def gatherText? (t : Tree) : String → List NodeId → Option String
  | text, [] => some text
  | text, id :: rest => (t.text? id).bind fun more => t.gatherText? (text ++ more) rest

/-- The same comparison with the attributes of both sides in their order, and the text gathered from
one child after another. -/
def matchesSorted (t : Tree) (id : NodeId) (template : Template) : Bool :=
  t.isElementNamed id template.tag &&
    (t.attributes id).mergeSort pairNotAfter == template.attributes.mergeSort pairNotAfter &&
      t.gatherText? "" (t.children id) == some (template.text.getD "")

def containsTemplate (t : Tree) (parent : NodeId) (template : Template) : Bool :=
  (t.elementChildren parent).any fun id => t.matchesTemplate id template

end Tree

end LivePages
