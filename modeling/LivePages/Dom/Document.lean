import LivePages.Dom.Template

namespace LivePages

/-- A page: its tree, its address, and where its three sections are, as far as they are known. -/
structure Document where
  tree : Tree
  url : String
  html : Option NodeId
  head : Option NodeId
  body : Option NodeId

namespace Document

def empty (url : String) : Document :=
  ⟨.blank, url, none, none, none⟩

/-- The head and the body among the children of the root element: for each the first one. -/
def sectionsOf (t : Tree) (html : NodeId) : Option NodeId × Option NodeId :=
  let children := t.elementChildren html
  (children.find? fun id => t.isElementNamed id "head",
   children.find? fun id => t.isElementNamed id "body")

def locate (d : Document) : Document :=
  match (d.tree.elementChildren Tree.root).find? fun id => d.tree.isElementNamed id "html" with
  | none => { d with html := none, head := none, body := none }
  | some html =>
    let (head, body) := sectionsOf d.tree html
    { d with html := some html, head, body }

def ensureHtml (d : Document) : Document × NodeId :=
  match d.html with
  | some html => (d, html)
  | none =>
    let (tree, html) := d.tree.createElement "html"
    ({ d with tree := tree.appendChild Tree.root html, html := some html }, html)

/-- A missing head becomes the first child of the root element. -/
def ensureHead (d : Document) (html : NodeId) : Document × NodeId :=
  match d.head with
  | some head => (d, head)
  | none =>
    let (tree, head) := d.tree.createElement "head"
    ({ d with tree := tree.prependChild html head, head := some head }, head)

/-- A missing body becomes the last child of the root element. -/
def ensureBody (d : Document) (html : NodeId) : Document × NodeId :=
  match d.body with
  | some body => (d, body)
  | none =>
    let (tree, body) := d.tree.createElement "body"
    ({ d with tree := tree.appendChild html body, body := some body }, body)

/-- Creates the sections that are missing and returns the head and the body. -/
def ensureStructure (d : Document) : Document × NodeId × NodeId :=
  let (d, html) := d.ensureHtml
  let (d, head) := d.ensureHead html
  let (d, body) := d.ensureBody html
  (d, head, body)

/-- A page with empty sections. -/
def skeleton (url : String) : Document :=
  ((empty url).ensureStructure).1

/-- The text of the first title in the head. -/
def title (d : Document) : String :=
  match d.head with
  | none => ""
  | some head =>
    match (d.tree.elementChildren head).find? fun id => d.tree.isElementNamed id "title" with
    | none => ""
    | some id => d.tree.textContent id

end Document

end LivePages
