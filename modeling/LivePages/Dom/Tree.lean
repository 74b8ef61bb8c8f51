import LivePages.Dom.NameTable
import LivePages.Dom.Node

namespace LivePages

/-- All nodes ever created, attached or not, and the names used for tags and attributes. -/
structure Tree where
  nodes : Array Node
  names : NameTable

namespace Tree

def blank : Tree where
  nodes := #[{ data := .document }]
  names := .standard

def root : NodeId := 0

def node? (t : Tree) (id : NodeId) : Option Node :=
  t.nodes[id]?

def data? (t : Tree) (id : NodeId) : Option NodeData :=
  (t.node? id).map Node.data

def size (t : Tree) : Nat :=
  t.nodes.size

/-- Changes one node; an unknown id changes nothing. -/
def update (t : Tree) (id : NodeId) (f : Node → Node) : Tree :=
  { t with nodes := t.nodes.modify id f }

def intern (t : Tree) (name : String) : Tree :=
  { t with names := (t.names.intern name).1 }

/-- Adds an unlinked node. -/
def create (t : Tree) (data : NodeData) : Tree × NodeId :=
  ({ t with nodes := t.nodes.push { data } }, t.size)

def createElement (t : Tree) (tag : String) : Tree × NodeId :=
  (t.intern tag).create (.element ⟨tag, []⟩)

def createText (t : Tree) (content : String) : Tree × NodeId :=
  t.create (.text content)

def element? (t : Tree) (id : NodeId) : Option Element :=
  (t.data? id).bind NodeData.element?

def text? (t : Tree) (id : NodeId) : Option String :=
  (t.data? id).bind NodeData.text?

def comment? (t : Tree) (id : NodeId) : Option String :=
  (t.data? id).bind NodeData.comment?

def tag? (t : Tree) (id : NodeId) : Option String :=
  (t.element? id).map Element.tag

def isElementNamed (t : Tree) (id : NodeId) (tag : String) : Bool :=
  t.tag? id == some tag

def attribute? (t : Tree) (id : NodeId) (name : String) : Option String :=
  (t.element? id).bind (·.attribute? name)

def attributes (t : Tree) (id : NodeId) : List (String × String) :=
  ((t.element? id).map Element.attributes).getD []

/-- Sets an attribute of an element. The name counts as used even where there is no element. -/
def setAttribute (t : Tree) (id : NodeId) (name value : String) : Tree :=
  (t.intern name).update id fun n =>
    match n.data with
    | .element e => { n with data := .element (e.setAttribute name value) }
    | _ => n

def parent? (t : Tree) (id : NodeId) : Option NodeId :=
  (t.node? id).bind Node.parent

def firstChild? (t : Tree) (id : NodeId) : Option NodeId :=
  (t.node? id).bind Node.firstChild

def lastChild? (t : Tree) (id : NodeId) : Option NodeId :=
  (t.node? id).bind Node.lastChild

def next? (t : Tree) (id : NodeId) : Option NodeId :=
  (t.node? id).bind Node.next

def prev? (t : Tree) (id : NodeId) : Option NodeId :=
  (t.node? id).bind Node.prev

end Tree

end LivePages
