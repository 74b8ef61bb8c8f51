import LivePages.Dom.Document
import LivePages.Html.TagSets
import LivePages.Html.Token

namespace LivePages

inductive InsertionMode where
  | initial
  | beforeHtml
  | beforeHead
  | inHead
  | afterHead
  | inBody
  | text
  | inTable
  | inTableText
  | inCaption
  | inColumnGroup
  | inTableBody
  | inRow
  | inCell
  | inSelect
  | inSelectInTable
  | inTemplate
  | afterBody
  | inFrameset
  | afterFrameset
  | afterAfterBody
  | afterAfterFrameset
  deriving DecidableEq

/-- An element whose end has not been read. -/
structure OpenElement where
  node : NodeId
  vocabulary : Vocabulary
  name : String
  /-- Set for a MathML annotation whose content is HTML. -/
  holdsHtml : Bool
  deriving DecidableEq

namespace OpenElement

def isHtml (e : OpenElement) (name : String) : Bool :=
  e.vocabulary == .html && e.name == name

def isHtmlIn (e : OpenElement) (names : List String) : Bool :=
  e.vocabulary == .html && names.contains e.name

def isMathmlText (e : OpenElement) : Bool :=
  e.vocabulary == .mathml && mathmlTextTags.contains e.name

def isSvgHtml (e : OpenElement) : Bool :=
  e.vocabulary == .svg && svgHtmlTags.contains e.name

def isSpecial (e : OpenElement) : Bool :=
  e.isHtmlIn specialTags

/-- Elements that most searches for an open element do not look beyond. -/
def endsScope (e : OpenElement) : Bool :=
  e.isHtmlIn defaultScopeTags || e.isMathmlText || e.isSvgHtml

def endsListScope (e : OpenElement) : Bool :=
  e.endsScope || e.isHtmlIn ["ol", "ul"]

def endsButtonScope (e : OpenElement) : Bool :=
  e.endsScope || e.isHtml "button"

/-- Only groups and options of a choice do not end the search for the choice. -/
def endsSelectScope (e : OpenElement) : Bool :=
  !e.isHtmlIn ["optgroup", "option"]

def endsTableScope (e : OpenElement) : Bool :=
  e.isHtmlIn ["html", "table", "template"]

end OpenElement

/-- A formatting element that is opened again where misnesting has closed it. -/
structure FormattingElement where
  element : OpenElement
  tag : Tag

/-- A page under construction. -/
structure Builder where
  tree : Tree
  mode : InsertionMode
  /-- Where reading goes on after text. -/
  returnMode : InsertionMode
  /-- The modes of the open templates, the innermost first. -/
  templateModes : List InsertionMode
  /-- The innermost first. -/
  openElements : List OpenElement
  /-- The latest first; `none` is the mark of a boundary. -/
  formatting : List (Option FormattingElement)
  head : Option NodeId
  form : Option NodeId
  framesetAllowed : Bool
  fostering : Bool
  quirky : Bool
  skipLineFeed : Bool
  /-- Text of a table that has not been placed, the latest first. -/
  tableText : List Token
  content : ContentModel
  lastStartTag : String

namespace Builder

def start : Builder where
  tree := .blank
  mode := .initial
  returnMode := .initial
  templateModes := []
  openElements := []
  formatting := []
  head := none
  form := none
  framesetAllowed := true
  fostering := false
  quirky := false
  skipLineFeed := false
  tableText := []
  content := .markup
  lastStartTag := ""

def withMode (b : Builder) (mode : InsertionMode) : Builder :=
  { b with mode }

def forbidFrameset (b : Builder) : Builder :=
  { b with framesetAllowed := false }

/-! Open elements. -/

def currentIs (b : Builder) (test : OpenElement → Bool) : Bool :=
  match b.openElements with
  | [] => false
  | e :: _ => test e

def currentIsHtml (b : Builder) (name : String) : Bool :=
  b.currentIs (·.isHtml name)

def currentIsHtmlIn (b : Builder) (names : List String) : Bool :=
  b.currentIs (·.isHtmlIn names)

def pop (b : Builder) : Builder :=
  { b with openElements := b.openElements.tail }

/-- The root element, the outermost of the open ones. -/
def rootElement? (b : Builder) : Option OpenElement :=
  b.openElements.getLast?

/-- The body, if it is open where a body stands. -/
def bodyElement? (b : Builder) : Option OpenElement :=
  match b.openElements.reverse with
  | _ :: e :: _ => if e.isHtml "body" then some e else none
  | _ => none

def hasOpen (b : Builder) (name : String) : Bool :=
  b.openElements.any (·.isHtml name)

/-- Whether an element that passes a test is open inside the nearest boundary. -/
def inScope (b : Builder) (boundary test : OpenElement → Bool) : Bool :=
  match b.openElements.find? fun e => test e || boundary e with
  | some e => test e
  | none => false

def inDefaultScope (b : Builder) (name : String) : Bool :=
  b.inScope OpenElement.endsScope (·.isHtml name)

def inTableScope (b : Builder) (name : String) : Bool :=
  b.inScope OpenElement.endsTableScope (·.isHtml name)

/-- Closes the current element and those around it as long as they pass a test. -/
def popWhile (b : Builder) (test : OpenElement → Bool) : Builder :=
  { b with openElements := b.openElements.dropWhile test }

/-- Closes elements up to the innermost one that passes a test, that one included. -/
def popThrough (b : Builder) (test : OpenElement → Bool) : Builder :=
  { b with openElements := (b.openElements.dropWhile fun e => !test e).tail }

def popThroughHtml (b : Builder) (name : String) : Builder :=
  b.popThrough (·.isHtml name)

def closeImplied (b : Builder) : Builder :=
  b.popWhile (·.isHtmlIn impliedEndTags)

def closeImpliedExcept (b : Builder) (name : String) : Builder :=
  b.popWhile fun e => e.isHtmlIn impliedEndTags && e.name != name

def closeParagraph (b : Builder) : Builder :=
  (b.closeImpliedExcept "p").popThroughHtml "p"

/-- Ends the paragraph that a block element cannot be part of. -/
def closeParagraphInScope (b : Builder) : Builder :=
  if b.inScope OpenElement.endsButtonScope (·.isHtml "p") then b.closeParagraph else b

/-- Takes an element out of the open ones wherever it is among them. -/
def removeOpen (b : Builder) (node : NodeId) : Builder :=
  { b with openElements := b.openElements.filter (·.node != node) }

/-! Placing nodes. -/

/-- Where a node goes: to the end of a parent, or before a table that has a parent and else to the
end of the element around the table. -/
inductive Place where
  | lastIn (parent : NodeId)
  | beforeTable (table around : NodeId)

/-- The place outside a table for what cannot stand in it. -/
def fosterPlace : List OpenElement → Place
  | [] => .lastIn Tree.root
  | e :: rest =>
    if e.isHtml "template" then .lastIn e.node
    else if e.isHtml "table" then
      match rest with
      | around :: _ => .beforeTable e.node around.node
      | [] => .lastIn e.node
    else
      match rest with
      | [] => .lastIn e.node
      | _ :: _ => fosterPlace rest

def placeIn (b : Builder) (target : OpenElement) : Place :=
  if b.fostering && target.isHtmlIn fosteringTags then fosterPlace b.openElements
  else .lastIn target.node

def place (b : Builder) : Place :=
  match b.openElements with
  | [] => .lastIn Tree.root
  | e :: _ => b.placeIn e

/-- A place whose table question is settled: the parent, and the node to stand before. -/
def settle (b : Builder) : Place → NodeId × Option NodeId
  | .lastIn parent => (parent, none)
  | .beforeTable table around =>
    match b.tree.parent? table with
    | some parent => (parent, some table)
    | none => (around, none)

def putAt (b : Builder) (place : Place) (node : NodeId) : Builder :=
  match b.settle place with
  | (parent, none) => { b with tree := b.tree.appendChild parent node }
  | (_, some table) => { b with tree := b.tree.insertBefore table node }

def insertText (b : Builder) (text : String) : Builder :=
  let place := b.place
  let before := match b.settle place with
    | (parent, none) => b.tree.lastChild? parent
    | (_, some table) => b.tree.prev? table
  match before.bind fun id => (b.tree.text? id).map fun old => (id, old) with
  | some (id, old) =>
    { b with tree := b.tree.update id fun n => { n with data := .text (old ++ text) } }
  | none =>
    let (tree, node) := b.tree.createText text
    { b with tree }.putAt place node

def insertComment (b : Builder) (content : String) : Builder :=
  let (tree, node) := b.tree.create (.comment content)
  { b with tree }.putAt b.place node

def appendComment (b : Builder) (parent : NodeId) (content : String) : Builder :=
  let (tree, node) := b.tree.create (.comment content)
  { b with tree := tree.appendChild parent node }

def createFor (b : Builder) (vocabulary : Vocabulary) (tag : Tag) : Builder × OpenElement :=
  let (tree, node) := b.tree.create (.element ⟨tag.name, tag.attributes⟩)
  let encoding := lowerCase ((tag.attribute? "encoding").getD "")
  let holdsHtml := vocabulary == .mathml && tag.name == "annotation-xml" &&
    (encoding == "text/html" || encoding == "application/xhtml+xml")
  ({ b with tree }, ⟨node, vocabulary, tag.name, holdsHtml⟩)

def push (b : Builder) (e : OpenElement) : Builder :=
  { b with openElements := e :: b.openElements }

/-- Creates an element at the current place without opening it. -/
def insertForeignClosed (b : Builder) (vocabulary : Vocabulary) (tag : Tag) : Builder × OpenElement :=
  let place := b.place
  let (b, e) := b.createFor vocabulary tag
  (b.putAt place e.node, e)

def insertForeign (b : Builder) (vocabulary : Vocabulary) (tag : Tag) : Builder :=
  let (b, e) := b.insertForeignClosed vocabulary tag
  b.push e

def insertElement (b : Builder) (tag : Tag) : Builder :=
  b.insertForeign .html tag

def insertVoid (b : Builder) (tag : Tag) : Builder :=
  (b.insertForeignClosed .html tag).1

def insertTextElement (b : Builder) (tag : Tag) (content : ContentModel) : Builder :=
  let b := b.insertElement tag
  { b with returnMode := b.mode, mode := .text, content }

/-- Adds the attributes that an element does not have. -/
def addMissing (old new : List (String × String)) : List (String × String) :=
  new.foldl (fun acc (name, value) =>
    if (acc.lookup name).isSome then acc else acc ++ [(name, value)]) old

def addMissingAttributes (b : Builder) (node : NodeId) (tag : Tag) : Builder :=
  { b with tree := b.tree.update node fun n =>
      match n.data with
      | .element e =>
        { n with data := .element { e with attributes := addMissing e.attributes tag.attributes } }
      | _ => n }

/-! Formatting elements. -/

def clearFormatting (b : Builder) : Builder :=
  { b with formatting := (b.formatting.dropWhile Option.isSome).tail }

def markFormatting (b : Builder) : Builder :=
  { b with formatting := none :: b.formatting }

def sinceMark (b : Builder) : List FormattingElement :=
  (b.formatting.takeWhile Option.isSome).filterMap id

def isOpen (b : Builder) (node : NodeId) : Bool :=
  b.openElements.any (·.node == node)

def isEntryOf (node : NodeId) : Option FormattingElement → Bool
  | some f => f.element.node == node
  | none => false

def dropFormatting (b : Builder) (node : NodeId) : Builder :=
  { b with formatting := b.formatting.filter fun f => !isEntryOf node f }

def isFormatting (b : Builder) (node : NodeId) : Bool :=
  b.formatting.any (isEntryOf node)

def swapFormatting (b : Builder) (node : NodeId) (f : FormattingElement) : Builder :=
  { b with formatting := b.formatting.map fun old => if isEntryOf node old then some f else old }

/-- Opens the listed formatting elements again, the earliest first. -/
def reopen : Builder → List FormattingElement → Builder
  | b, [] => b
  | b, f :: rest =>
    let b := b.insertElement f.tag
    match b.openElements with
    | [] => reopen b rest
    | e :: _ => reopen (b.swapFormatting f.element.node ⟨e, f.tag⟩) rest

/-- Opens again the formatting elements that have been closed since the last one still open. -/
def reconstruct (b : Builder) : Builder :=
  b.reopen (b.sinceMark.takeWhile fun f => !b.isOpen f.element.node).reverse

/-- Forgets the earliest of three equal formatting elements. -/
def forgetThird (b : Builder) (tag : Tag) : Builder :=
  match b.sinceMark.filter (·.tag.isLike tag) with
  | alike@(_ :: _ :: _ :: _) =>
    match alike.getLast? with
    | some f => b.dropFormatting f.element.node
    | none => b
  | _ => b

def insertFormatting (b : Builder) (tag : Tag) : Builder :=
  let b := (b.forgetThird tag).insertElement tag
  match b.openElements with
  | [] => b
  | e :: _ => { b with formatting := some ⟨e, tag⟩ :: b.formatting }

/-! Modes. -/

/-- The mode inside a choice with the given elements around it. -/
def selectMode (around : List OpenElement) : InsertionMode :=
  match around.find? (·.isHtmlIn ["template", "table"]) with
  | some e => if e.name == "table" then .inSelectInTable else .inSelect
  | none => .inSelect

/-- The mode that the open elements call for. -/
def modeFor (b : Builder) : List OpenElement → InsertionMode
  | [] => .inBody
  | e :: rest =>
    if e.vocabulary != .html then b.modeFor rest
    else
      let last := rest.isEmpty
      match e.name with
      | "select" => selectMode rest
      | "td" => if last then b.modeFor rest else .inCell
      | "th" => if last then b.modeFor rest else .inCell
      | "tr" => .inRow
      | "tbody" => .inTableBody
      | "thead" => .inTableBody
      | "tfoot" => .inTableBody
      | "caption" => .inCaption
      | "colgroup" => .inColumnGroup
      | "table" => .inTable
      | "template" => b.templateModes.headD .inBody
      | "head" => if last then b.modeFor rest else .inHead
      | "body" => .inBody
      | "frameset" => .inFrameset
      | "html" => if b.head.isNone then .beforeHead else .afterHead
      | _ => b.modeFor rest

def resetMode (b : Builder) : Builder :=
  b.withMode (b.modeFor b.openElements)

end Builder

end LivePages
