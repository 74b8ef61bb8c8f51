import LivePages.Html.PageContent

namespace LivePages

namespace Tree

/-- Adds an unlinked node with the data of a node of another tree; its names count as used. -/
def adopt (t : Tree) (data : NodeData) : Tree × NodeId :=
  match data with
  | .element e =>
    let (t, id) := t.createElement e.tag
    (e.attributes.foldl (fun t (name, value) => t.setAttribute id name value) t, id)
  | data => t.create data

/-- Copies what is below a node of another tree, in document order and to a given depth. -/
def graft (source : Tree) : Nat → Tree → NodeId → NodeId → Tree
  | 0, t, _, _ => t
  | depth + 1, t, parent, id =>
    (source.children id).foldl (fun t child =>
      match source.data? child with
      | none => t
      | some data =>
        let (t, new) := t.adopt data
        source.graft depth (t.appendChild parent new) new child) t

/-- The attached nodes of a tree, numbered in document order. -/
def inDocumentOrder (source : Tree) : Tree :=
  source.graft source.size blank root root

end Tree

/-- Reads the markup of a page. Every text is the markup of some page. -/
def Document.ofHtml (url html : String) : Document :=
  let cs := normalizeLineEnds (dropByteOrderMark html.toList)
  let built := Builder.start.readText (cs.length + 1) cs
  { Document.empty url with tree := built.tree.inDocumentOrder }.locate

end LivePages
