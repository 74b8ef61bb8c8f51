import LivePages.Html.BodyContent

namespace LivePages

namespace Builder

/-- Closes what is open inside the part of a table that is being worked on. -/
def clearTo (b : Builder) (names : List String) : Builder :=
  b.popWhile fun e => !e.isHtmlIn names

def clearToTable (b : Builder) : Builder := b.clearTo ["table", "template", "html"]

def clearToSection (b : Builder) : Builder :=
  b.clearTo ["tbody", "tfoot", "thead", "template", "html"]

def clearToRow (b : Builder) : Builder := b.clearTo ["tr", "template", "html"]

/-- Text directly inside a table waits until all of it is known. -/
def tableCharacters (b : Builder) (token : Token) : Outcome :=
  if b.currentIsHtmlIn fosteringTags then
    ({ b with returnMode := b.mode, mode := .inTableText, tableText := [] }, .again)
  else b.fosterInBody token

def endTable (b : Builder) : Builder :=
  (b.popThroughHtml "table").resetMode

def inTable (b : Builder) (token : Token) : Outcome :=
  match token with
  | .space _ => b.tableCharacters token
  | .text _ => b.tableCharacters token
  | .null => b.tableCharacters token
  | .comment content => (b.insertComment content).done
  | .doctype _ => b.done
  | .startTag tag =>
    match tag.name with
    | "caption" => ((b.clearToTable.markFormatting.insertElement tag).withMode .inCaption).done
    | "colgroup" => ((b.clearToTable.insertElement tag).withMode .inColumnGroup).done
    | "col" => (b.clearToTable.insertElement (.bare "colgroup")).againIn .inColumnGroup
    | "tbody" => ((b.clearToTable.insertElement tag).withMode .inTableBody).done
    | "tfoot" => ((b.clearToTable.insertElement tag).withMode .inTableBody).done
    | "thead" => ((b.clearToTable.insertElement tag).withMode .inTableBody).done
    | "td" => (b.clearToTable.insertElement (.bare "tbody")).againIn .inTableBody
    | "th" => (b.clearToTable.insertElement (.bare "tbody")).againIn .inTableBody
    | "tr" => (b.clearToTable.insertElement (.bare "tbody")).againIn .inTableBody
    | "table" => if b.inTableScope "table" then (b.endTable, .again) else b.done
    | "style" => (b.insertHeadContent tag).done
    | "script" => (b.insertHeadContent tag).done
    | "template" => (b.insertHeadContent tag).done
    | "input" => if isHiddenInput tag then (b.insertVoid tag).done else b.fosterInBody token
    | "form" =>
      if b.hasOpen "template" || b.form.isSome then b.done
      else
        let (b, e) := b.insertForeignClosed .html tag
        { b with form := some e.node }.done
    | _ => b.fosterInBody token
  | .endTag tag =>
    if tag.name = "table" then (if b.inTableScope "table" then b.endTable.done else b.done)
    else if tag.name = "template" then b.endTemplate.done
    else if ["body", "caption", "col", "colgroup", "html", "tbody", "td", "tfoot", "th", "thead",
        "tr"].contains tag.name then b.done
    else b.fosterInBody token
  | .endOfFile => b.inBody token

/-- Text with anything but space in it does not stay in the table. -/
def placeTableText (b : Builder) : Builder :=
  let pending := b.tableText.reverse
  let b := { b with tableText := [], mode := b.returnMode }
  let visible := pending.any fun
    | .text _ => true
    | _ => false
  pending.foldl (fun b token =>
    if visible then (b.fosterInBody token).1
    else
      match token with
      | .space run => b.insertText run
      | _ => b) b

def inTableText (b : Builder) (token : Token) : Outcome :=
  match token with
  | .null => b.done
  | .space _ => { b with tableText := token :: b.tableText }.done
  | .text _ => { b with tableText := token :: b.tableText }.done
  | .doctype _ => b.done
  | _ => (b.placeTableText, .again)

def tablePartTags : List String :=
  ["caption", "col", "colgroup", "tbody", "td", "tfoot", "th", "thead", "tr"]

def endCaption (b : Builder) : Builder :=
  (b.closeImplied.popThroughHtml "caption").clearFormatting.withMode .inTable

def inCaption (b : Builder) (token : Token) : Outcome :=
  match token with
  | .startTag tag =>
    if tablePartTags.contains tag.name then
      (if b.inTableScope "caption" then (b.endCaption, .again) else b.done)
    else b.inBody token
  | .endTag tag =>
    if tag.name = "caption" then (if b.inTableScope "caption" then b.endCaption.done else b.done)
    else if tag.name = "table" then
      (if b.inTableScope "caption" then (b.endCaption, .again) else b.done)
    else if ["body", "col", "colgroup", "html", "tbody", "td", "tfoot", "th", "thead",
        "tr"].contains tag.name then b.done
    else b.inBody token
  | _ => b.inBody token

def leaveColumnGroup (b : Builder) : Outcome :=
  if b.currentIsHtml "colgroup" then b.pop.againIn .inTable else b.done

def inColumnGroup (b : Builder) (token : Token) : Outcome :=
  match token with
  | .space run => (b.insertText run).done
  | .comment content => (b.insertComment content).done
  | .doctype _ => b.done
  | .startTag tag =>
    match tag.name with
    | "html" => (b.mergeRoot tag).done
    | "col" => (b.insertVoid tag).done
    | "template" => (b.insertHeadContent tag).done
    | _ => b.leaveColumnGroup
  | .endTag tag =>
    match tag.name with
    | "colgroup" => (if b.currentIsHtml "colgroup" then b.pop.withMode .inTable else b).done
    | "col" => b.done
    | "template" => b.endTemplate.done
    | _ => b.leaveColumnGroup
  | .endOfFile => b.inBody token
  | _ => b.leaveColumnGroup

/-- Whether a table, or a section outside any table other than its head, is open. -/
def inSection (b : Builder) : Bool :=
  b.inScope OpenElement.endsTableScope (·.isHtmlIn ["table", "tbody", "tfoot"])

def leaveSection (b : Builder) : Outcome :=
  if b.inSection then b.clearToSection.pop.againIn .inTable else b.done

def inTableBody (b : Builder) (token : Token) : Outcome :=
  match token with
  | .startTag tag =>
    match tag.name with
    | "tr" => ((b.clearToSection.insertElement tag).withMode .inRow).done
    | "th" => (b.clearToSection.insertElement (.bare "tr")).againIn .inRow
    | "td" => (b.clearToSection.insertElement (.bare "tr")).againIn .inRow
    | name =>
      if ["caption", "col", "colgroup", "tbody", "tfoot", "thead"].contains name then b.leaveSection
      else b.inTable token
  | .endTag tag =>
    if ["tbody", "tfoot", "thead"].contains tag.name then
      (if b.inTableScope tag.name then (b.clearToSection.pop.withMode .inTable).done else b.done)
    else if tag.name = "table" then b.leaveSection
    else if ["body", "caption", "col", "colgroup", "html", "td", "th", "tr"].contains tag.name then
      b.done
    else b.inTable token
  | _ => b.inTable token

def leaveRow (b : Builder) : Outcome :=
  if b.inTableScope "tr" then b.clearToRow.pop.againIn .inTableBody else b.done

def inRow (b : Builder) (token : Token) : Outcome :=
  match token with
  | .startTag tag =>
    if tag.name = "th" || tag.name = "td" then
      ((b.clearToRow.insertElement tag).withMode .inCell).markFormatting.done
    else if ["caption", "col", "colgroup", "tbody", "tfoot", "thead", "tr"].contains tag.name then
      b.leaveRow
    else b.inTable token
  | .endTag tag =>
    if tag.name = "tr" then
      (if b.inTableScope "tr" then (b.clearToRow.pop.withMode .inTableBody).done else b.done)
    else if tag.name = "table" then b.leaveRow
    else if ["tbody", "tfoot", "thead"].contains tag.name then
      (if b.inTableScope tag.name then b.leaveRow else b.done)
    else if ["body", "caption", "col", "colgroup", "html", "td", "th"].contains tag.name then b.done
    else b.inTable token
  | _ => b.inTable token

def closeCell (b : Builder) : Builder :=
  (b.closeImplied.popThrough (·.isHtmlIn ["td", "th"])).clearFormatting.withMode .inRow

def inCell (b : Builder) (token : Token) : Outcome :=
  match token with
  | .startTag tag =>
    if tablePartTags.contains tag.name then
      (if b.inScope OpenElement.endsTableScope (·.isHtmlIn ["td", "th"]) then (b.closeCell, .again)
        else b.done)
    else b.inBody token
  | .endTag tag =>
    if tag.name = "td" || tag.name = "th" then
      (if b.inTableScope tag.name then
        ((b.closeImplied.popThroughHtml tag.name).clearFormatting.withMode .inRow).done
      else b.done)
    else if ["body", "caption", "col", "colgroup", "html"].contains tag.name then b.done
    else if ["table", "tbody", "tfoot", "thead", "tr"].contains tag.name then
      (if b.inTableScope tag.name then (b.closeCell, .again) else b.done)
    else b.inBody token
  | _ => b.inBody token

/-! Choices. -/

def inSelectScope (b : Builder) : Bool :=
  b.inScope OpenElement.endsSelectScope (·.isHtml "select")

def closeSelect (b : Builder) : Builder :=
  (b.popThroughHtml "select").resetMode

/-- A group ends with the option that is open in it. -/
def endOptionGroup (b : Builder) : Builder :=
  let b := match b.openElements with
    | e :: group :: _ => if e.isHtml "option" && group.isHtml "optgroup" then b.pop else b
    | _ => b
  b.popCurrent "optgroup"

def inSelect (b : Builder) (token : Token) : Outcome :=
  match token with
  | .space run => (b.insertText run).done
  | .text run => (b.insertText run).done
  | .null => b.done
  | .comment content => (b.insertComment content).done
  | .doctype _ => b.done
  | .startTag tag =>
    match tag.name with
    | "html" => (b.mergeRoot tag).done
    | "option" => ((b.popCurrent "option").insertElement tag).done
    | "optgroup" => (((b.popCurrent "option").popCurrent "optgroup").insertElement tag).done
    | "hr" => (((b.popCurrent "option").popCurrent "optgroup").insertVoid tag).done
    | "select" => (if b.inSelectScope then b.closeSelect else b).done
    | "script" => (b.insertHeadContent tag).done
    | "template" => (b.insertHeadContent tag).done
    | name =>
      if ["input", "keygen", "textarea"].contains name && b.inSelectScope then (b.closeSelect, .again)
      else b.done
  | .endTag tag =>
    match tag.name with
    | "optgroup" => b.endOptionGroup.done
    | "option" => (b.popCurrent "option").done
    | "select" => (if b.inSelectScope then b.closeSelect else b).done
    | "template" => b.endTemplate.done
    | _ => b.done
  | .endOfFile => b.inBody token

def inSelectInTable (b : Builder) (token : Token) : Outcome :=
  let parts := ["caption", "table", "tbody", "tfoot", "thead", "tr", "td", "th"]
  match token with
  | .startTag tag => if parts.contains tag.name then (b.closeSelect, .again) else b.inSelect token
  | .endTag tag =>
    if parts.contains tag.name then
      (if b.inTableScope tag.name then (b.closeSelect, .again) else b.done)
    else b.inSelect token
  | _ => b.inSelect token

end Builder

end LivePages
