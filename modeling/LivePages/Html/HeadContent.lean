import LivePages.Html.Misnesting

namespace LivePages

/-- What is left to do with a token: nothing, or to read it again in the mode now set. -/
inductive Verdict where
  | done
  | again
  deriving DecidableEq

abbrev Outcome := Builder × Verdict

namespace Builder

def done (b : Builder) : Outcome := (b, .done)

def againIn (b : Builder) (mode : InsertionMode) : Outcome := (b.withMode mode, .again)

/-- A second root tag only adds the attributes that are missing. -/
def mergeRoot (b : Builder) (tag : Tag) : Builder :=
  if b.hasOpen "template" then b
  else
    match b.rootElement? with
    | some root => b.addMissingAttributes root.node tag
    | none => b

def insertScript (b : Builder) (tag : Tag) : Builder :=
  b.insertTextElement tag .script

def openTemplate (b : Builder) (tag : Tag) : Builder :=
  let b := (b.markFormatting.forbidFrameset.withMode .inTemplate).insertElement tag
  { b with templateModes := .inTemplate :: b.templateModes }

def closeTemplate (b : Builder) : Builder :=
  let b := (b.popThroughHtml "template").clearFormatting
  { b with templateModes := b.templateModes.tail }.resetMode

def endTemplate (b : Builder) : Builder :=
  if b.hasOpen "template" then (b.popWhile (·.isHtmlIn allImpliedEndTags)).closeTemplate else b

/-- The end of the input closes the open templates one by one. -/
def endOfTemplates (b : Builder) : Outcome :=
  if b.hasOpen "template" then (b.closeTemplate, .again) else b.done

/-- The start tags of head content, read in the head and in the body alike. -/
def insertHeadContent (b : Builder) (tag : Tag) : Builder :=
  match tag.name with
  | "title" => b.insertTextElement tag .escapable
  | "script" => b.insertScript tag
  | "style" => b.insertTextElement tag .raw
  | "noframes" => b.insertTextElement tag .raw
  | "template" => b.openTemplate tag
  | _ => b.insertVoid tag

def leaveHead (b : Builder) : Outcome :=
  b.pop.againIn .afterHead

def inHead (b : Builder) : Token → Outcome
  | .space run => (b.insertText run).done
  | .comment content => (b.insertComment content).done
  | .doctype _ => b.done
  | .startTag tag =>
    if tag.name = "html" then (b.mergeRoot tag).done
    else if headContentTags.contains tag.name then (b.insertHeadContent tag).done
    else if tag.name = "noscript" then (b.insertTextElement tag .raw).done
    else if tag.name = "head" then b.done
    else b.leaveHead
  | .endTag tag =>
    if tag.name = "head" then (b.pop.withMode .afterHead).done
    else if ["body", "html", "br"].contains tag.name then b.leaveHead
    else if tag.name = "template" then b.endTemplate.done
    else b.done
  | _ => b.leaveHead

/-! Before and after the head. -/

def isQuirky (d : Doctype) : Bool :=
  let publicId := (d.publicId.map lowerCase).getD ""
  let startsIn (starts : List String) : Bool :=
    starts.any fun s => (afterText? s.toList publicId.toList).isSome
  d.forceQuirks || d.name != some "html" || quirkyPublicIds.contains publicId ||
    startsIn quirkyPublicPrefixes || quirkySystemIds.contains ((d.systemId.map lowerCase).getD "") ||
    (d.systemId.isNone && startsIn framedPublicPrefixes)

def insertDoctype (b : Builder) (d : Doctype) : Builder :=
  let (tree, node) := b.tree.create
    (.doctype (d.name.getD "") (d.publicId.getD "") (d.systemId.getD ""))
  { b with tree := tree.appendChild Tree.root node, quirky := isQuirky d }

def initial (b : Builder) : Token → Outcome
  | .space _ => b.done
  | .comment content => (b.appendComment Tree.root content).done
  | .doctype d => ((b.insertDoctype d).withMode .beforeHtml).done
  | _ => { b with quirky := true }.againIn .beforeHtml

def insertRoot (b : Builder) (tag : Tag) : Builder :=
  let (b, e) := b.createFor .html tag
  { b with tree := b.tree.appendChild Tree.root e.node }.push e

def beforeHtml (b : Builder) : Token → Outcome
  | .space _ => b.done
  | .comment content => (b.appendComment Tree.root content).done
  | .doctype _ => b.done
  | .startTag tag =>
    if tag.name = "html" then ((b.insertRoot tag).withMode .beforeHead).done
    else (b.insertRoot (.bare "html")).againIn .beforeHead
  | .endTag tag =>
    if ["head", "body", "html", "br"].contains tag.name then
      (b.insertRoot (.bare "html")).againIn .beforeHead
    else b.done
  | _ => (b.insertRoot (.bare "html")).againIn .beforeHead

def insertHead (b : Builder) (tag : Tag) : Builder :=
  let b := b.insertElement tag
  { b with head := b.openElements.head?.map (·.node) }

def beforeHead (b : Builder) : Token → Outcome
  | .space _ => b.done
  | .comment content => (b.insertComment content).done
  | .doctype _ => b.done
  | .startTag tag =>
    if tag.name = "html" then (b.mergeRoot tag).done
    else if tag.name = "head" then ((b.insertHead tag).withMode .inHead).done
    else (b.insertHead (.bare "head")).againIn .inHead
  | .endTag tag =>
    if ["head", "body", "html", "br"].contains tag.name then
      (b.insertHead (.bare "head")).againIn .inHead
    else b.done
  | _ => (b.insertHead (.bare "head")).againIn .inHead

/-- Head content that comes late still goes into the head. -/
def insertLateHeadContent (b : Builder) (tag : Tag) : Builder :=
  match b.head with
  | none => b
  | some head => ((b.push ⟨head, .html, "head", false⟩).insertHeadContent tag).removeOpen head

def afterHead (b : Builder) : Token → Outcome
  | .space run => (b.insertText run).done
  | .comment content => (b.insertComment content).done
  | .doctype _ => b.done
  | .startTag tag =>
    if tag.name = "html" then (b.mergeRoot tag).done
    else if tag.name = "body" then ((b.insertElement tag).forbidFrameset.withMode .inBody).done
    else if tag.name = "frameset" then ((b.insertElement tag).withMode .inFrameset).done
    else if headContentTags.contains tag.name then (b.insertLateHeadContent tag).done
    else if tag.name = "head" then b.done
    else (b.insertElement (.bare "body")).againIn .inBody
  | .endTag tag =>
    if tag.name = "template" then b.endTemplate.done
    else if ["body", "html", "br"].contains tag.name then
      (b.insertElement (.bare "body")).againIn .inBody
    else b.done
  | _ => (b.insertElement (.bare "body")).againIn .inBody

end Builder

end LivePages
