import LivePages.Dom.Document

namespace LivePages

/-- Elements that have neither children nor an end tag. -/
def voidTags : List String :=
  ["area", "base", "br", "col", "embed", "hr", "img", "input", "link", "meta", "param", "source",
    "track", "wbr"]

/-- Elements whose text stands as it is. -/
def rawTextTags : List String :=
  ["script", "style", "xmp", "iframe", "noembed", "noframes", "plaintext"]

def escapeTextChar (c : Char) : List Char :=
  if c = '&' then "&amp;".toList
  else if c = '<' then "&lt;".toList
  else if c = '>' then "&gt;".toList
  else if c = '\u00a0' then "&nbsp;".toList
  else [c]

def escapeAttributeChar (c : Char) : List Char :=
  if c = '"' then "&quot;".toList else escapeTextChar c

def escapeText (text : String) : String :=
  String.ofList (text.toList.flatMap escapeTextChar)

def escapeAttribute (value : String) : String :=
  String.ofList (value.toList.flatMap escapeAttributeChar)

/-- An attribute without a value is its name alone. -/
def writeAttribute (pair : String × String) : String :=
  if pair.2.isEmpty then " " ++ pair.1
  else " " ++ pair.1 ++ "=\"" ++ escapeAttribute pair.2 ++ "\""

def writeStartTag (e : Element) : String :=
  "<" ++ e.tag ++ String.join (e.attributes.map writeAttribute) ++ ">"

namespace Tree

/-- The markup of a node and what is below it; `raw` says that text is not escaped. -/
def writeNode (t : Tree) : Nat → Bool → NodeId → String
  | 0, _, _ => ""
  | depth + 1, raw, id =>
    match t.data? id with
    | none => ""
    | some .document => String.join ((t.children id).map (t.writeNode depth false))
    | some (.element e) =>
      if voidTags.contains e.tag then writeStartTag e
      else
        let raw := rawTextTags.contains e.tag
        writeStartTag e ++ String.join ((t.children id).map (t.writeNode depth raw)) ++
          "</" ++ e.tag ++ ">"
    | some (.text content) => if raw then content else escapeText content
    | some (.comment content) => "<!--" ++ content ++ "-->"
    | some (.doctype name _ _) => "<!DOCTYPE " ++ name ++ ">"
    | some (.instruction target data) =>
      if data.isEmpty then "<?" ++ target ++ ">" else "<?" ++ target ++ " " ++ data ++ ">"

def outerHtml (t : Tree) (id : NodeId) : String :=
  t.writeNode (t.size + 1) false id

def innerHtml (t : Tree) (id : NodeId) : String :=
  String.join ((t.children id).map (t.writeNode (t.size + 1) false))

end Tree

def Document.toHtml (d : Document) : String :=
  d.tree.innerHtml Tree.root

end LivePages
