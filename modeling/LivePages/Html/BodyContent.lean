import LivePages.Html.HeadContent

namespace LivePages

namespace Builder

def isHiddenInput (tag : Tag) : Bool :=
  lowerCase ((tag.attribute? "type").getD "") == "hidden"

/-- Closes an element that is in scope together with the ends implied inside it. -/
def closeScoped (b : Builder) (name : String) : Builder :=
  if b.inDefaultScope name then b.closeImplied.popThroughHtml name else b

/-- An item ends the item it follows, if no other block has been opened since. -/
def closeItem (b : Builder) (names : List String) : Builder :=
  let stops (e : OpenElement) : Bool :=
    e.isHtmlIn names || (e.isSpecial && !(["address", "div", "p"].contains e.name))
  match b.openElements.find? stops with
  | some e =>
    if e.isHtmlIn names then (b.closeImpliedExcept e.name).popThroughHtml e.name else b
  | none => b

def startItem (b : Builder) (tag : Tag) (names : List String) : Builder :=
  ((b.forbidFrameset.closeItem names).closeParagraphInScope).insertElement tag

def startHeading (b : Builder) (tag : Tag) : Builder :=
  let b := b.closeParagraphInScope
  (if b.currentIsHtmlIn headingTags then b.pop else b).insertElement tag

def startForm (b : Builder) (tag : Tag) : Builder :=
  if b.form.isSome && !b.hasOpen "template" then b
  else
    let b := b.closeParagraphInScope.insertElement tag
    if b.hasOpen "template" then b else { b with form := b.openElements.head?.map (·.node) }

def endForm (b : Builder) : Builder :=
  if b.hasOpen "template" then b.closeScoped "form"
  else
    match b.form with
    | none => b
    | some node =>
      let b := { b with form := none }
      if b.inScope OpenElement.endsScope (·.node == node) then b.closeImplied.removeOpen node else b

def startBody (b : Builder) (tag : Tag) : Builder :=
  match b.bodyElement? with
  | some body =>
    if b.hasOpen "template" then b else b.forbidFrameset.addMissingAttributes body.node tag
  | none => b

/-- A frameset takes the place of a body in which nothing has been shown yet. -/
def startFrameset (b : Builder) (tag : Tag) : Builder :=
  match b.bodyElement? with
  | some body =>
    if b.framesetAllowed then
      let b := { b with
        tree := b.tree.detach body.node
        openElements := b.openElements.getLast?.toList }
      (b.insertElement tag).withMode .inFrameset
    else b
  | none => b

def startPreformatted (b : Builder) (tag : Tag) : Builder :=
  { b.closeParagraphInScope.insertElement tag with skipLineFeed := true, framesetAllowed := false }

def startTable (b : Builder) (tag : Tag) : Builder :=
  let b := if b.quirky then b else b.closeParagraphInScope
  (b.insertElement tag).forbidFrameset.withMode .inTable

def startNobr (b : Builder) (tag : Tag) : Builder :=
  let b := b.reconstruct
  let b := if b.inDefaultScope "nobr" then (b.endFormatting "nobr").reconstruct else b
  b.insertFormatting tag

/-- A choice has a mode of its own, which is another one inside tables. -/
def startSelect (b : Builder) (tag : Tag) : Builder :=
  let inTable := [.inTable, .inCaption, .inTableBody, .inRow, .inCell].contains b.mode
  (b.reconstruct.insertElement tag).forbidFrameset.withMode
    (if inTable then .inSelectInTable else .inSelect)

def startInput (b : Builder) (tag : Tag) : Builder :=
  let b := b.reconstruct.insertVoid tag
  if isHiddenInput tag then b else b.forbidFrameset

def startRule (b : Builder) (tag : Tag) : Builder :=
  (b.closeParagraphInScope.insertVoid tag).forbidFrameset

def popCurrent (b : Builder) (name : String) : Builder :=
  if b.currentIsHtml name then b.pop else b

def startOption (b : Builder) (tag : Tag) : Builder :=
  (b.popCurrent "option").reconstruct.insertElement tag

/-- Annotations of ruby text end what their base implies. -/
def startRuby (b : Builder) (tag : Tag) (kept : String) : Builder :=
  (if b.inDefaultScope "ruby" then b.closeImpliedExcept kept else b).insertElement tag

def insertVisibleVoid (b : Builder) (tag : Tag) : Builder :=
  (b.reconstruct.insertVoid tag).forbidFrameset

def adjustSvg (tag : Tag) : Tag :=
  { tag with
    name := spelling svgTagSpellings tag.name
    attributes := tag.attributes.map fun (n, v) => (spelling svgAttributeSpellings n, v) }

def adjustMathml (tag : Tag) : Tag :=
  { tag with
    attributes := tag.attributes.map fun (n, v) => (spelling ["definitionURL"] n, v) }

/-- A foreign element; one that closes itself has no content. -/
def startForeign (b : Builder) (vocabulary : Vocabulary) (tag : Tag) : Builder :=
  let tag := match vocabulary with
    | .svg => adjustSvg tag
    | .mathml => adjustMathml tag
    | .html => tag
  if tag.selfClosing then (b.insertForeignClosed vocabulary tag).1 else b.insertForeign vocabulary tag

def startInBody (b : Builder) (tag : Tag) : Builder :=
  let name := tag.name
  if headContentTags.contains name then b.insertHeadContent tag
  else if blockTags.contains name then b.closeParagraphInScope.insertElement tag
  else if headingTags.contains name then b.startHeading tag
  else if formattingTags.contains name then b.reconstruct.insertFormatting tag
  else
    match name with
    | "html" => b.mergeRoot tag
    | "body" => b.startBody tag
    | "frameset" => b.startFrameset tag
    | "pre" => b.startPreformatted tag
    | "listing" => b.startPreformatted tag
    | "form" => b.startForm tag
    | "li" => b.startItem tag ["li"]
    | "dd" => b.startItem tag ["dd", "dt"]
    | "dt" => b.startItem tag ["dd", "dt"]
    | "plaintext" => { b.closeParagraphInScope.insertElement tag with content := .plain }
    | "button" => ((b.closeScoped "button").reconstruct.insertElement tag).forbidFrameset
    | "a" => b.endOpenLink.reconstruct.insertFormatting tag
    | "nobr" => b.startNobr tag
    | "applet" => (b.reconstruct.insertElement tag).markFormatting.forbidFrameset
    | "marquee" => (b.reconstruct.insertElement tag).markFormatting.forbidFrameset
    | "object" => (b.reconstruct.insertElement tag).markFormatting.forbidFrameset
    | "table" => b.startTable tag
    | "area" => b.insertVisibleVoid tag
    | "br" => b.insertVisibleVoid tag
    | "embed" => b.insertVisibleVoid tag
    | "img" => b.insertVisibleVoid tag
    | "keygen" => b.insertVisibleVoid tag
    | "wbr" => b.insertVisibleVoid tag
    | "input" => b.startInput tag
    | "param" => b.insertVoid tag
    | "source" => b.insertVoid tag
    | "track" => b.insertVoid tag
    | "hr" => b.startRule tag
    | "image" => b.insertVisibleVoid { tag with name := "img" }
    | "textarea" =>
      { b.forbidFrameset.insertTextElement tag .escapable with skipLineFeed := true }
    | "xmp" => (b.closeParagraphInScope.reconstruct.forbidFrameset).insertTextElement tag .raw
    | "iframe" => b.forbidFrameset.insertTextElement tag .raw
    | "noembed" => b.insertTextElement tag .raw
    | "noscript" => b.insertTextElement tag .raw
    | "select" => b.startSelect tag
    | "option" => b.startOption tag
    | "optgroup" => b.startOption tag
    | "rb" => b.startRuby tag ""
    | "rtc" => b.startRuby tag ""
    | "rp" => b.startRuby tag "rtc"
    | "rt" => b.startRuby tag "rtc"
    | "math" => b.reconstruct.startForeign .mathml tag
    | "svg" => b.reconstruct.startForeign .svg tag
    | _ =>
      if ["caption", "col", "colgroup", "frame", "head", "tbody", "td", "tfoot", "th", "thead",
          "tr"].contains name then b
      else b.reconstruct.insertElement tag

def endHeading (b : Builder) : Builder :=
  if b.inScope OpenElement.endsScope (·.isHtmlIn headingTags) then
    b.closeImplied.popThrough (·.isHtmlIn headingTags)
  else b

/-- The end of a paragraph that is not open makes an empty one. -/
def endParagraph (b : Builder) : Builder :=
  if b.inScope OpenElement.endsButtonScope (·.isHtml "p") then b.closeParagraph
  else (b.insertElement (.bare "p")).closeParagraph

def endItem (b : Builder) (name : String) (boundary : OpenElement → Bool) : Builder :=
  if b.inScope boundary (·.isHtml name) then (b.closeImpliedExcept name).popThroughHtml name else b

def endInBody (b : Builder) (tag : Tag) : Builder :=
  let name := tag.name
  if blockEndTags.contains name then b.closeScoped name
  else if headingTags.contains name then b.endHeading
  else if formattingTags.contains name then b.endFormatting name
  else
    match name with
    | "template" => b.endTemplate
    | "form" => b.endForm
    | "p" => b.endParagraph
    | "li" => b.endItem "li" OpenElement.endsListScope
    | "dd" => b.endItem "dd" OpenElement.endsScope
    | "dt" => b.endItem "dt" OpenElement.endsScope
    | "a" => b.endFormatting "a"
    | "nobr" => b.endFormatting "nobr"
    | "applet" => if b.inDefaultScope name then (b.closeScoped name).clearFormatting else b
    | "marquee" => if b.inDefaultScope name then (b.closeScoped name).clearFormatting else b
    | "object" => if b.inDefaultScope name then (b.closeScoped name).clearFormatting else b
    | "br" => b.insertVisibleVoid (.bare "br")
    | _ => b.closeOther name

def inBody (b : Builder) : Token → Outcome
  | .space run => (b.reconstruct.insertText run).done
  | .text run => (b.reconstruct.forbidFrameset.insertText run).done
  | .null => b.done
  | .comment content => (b.insertComment content).done
  | .doctype _ => b.done
  | .startTag tag => (b.startInBody tag).done
  | .endTag tag =>
    match tag.name with
    | "body" => if b.inDefaultScope "body" then (b.withMode .afterBody).done else b.done
    | "html" => if b.inDefaultScope "body" then b.againIn .afterBody else b.done
    | _ => (b.endInBody tag).done
  | .endOfFile => if b.templateModes.isEmpty then b.done else b.endOfTemplates

/-- Content that a table cannot hold goes where the table stands. -/
def fosterInBody (b : Builder) (token : Token) : Outcome :=
  let (b, verdict) := { b with fostering := true }.inBody token
  ({ b with fostering := false }, verdict)

end Builder

end LivePages
