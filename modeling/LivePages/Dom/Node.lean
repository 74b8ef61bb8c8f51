namespace LivePages

/-- A node is known by its place in the order of creation; the document itself is node 0. -/
abbrev NodeId := Nat

structure Element where
  tag : String
  /-- Attributes in the order in which they were first set. -/
  attributes : List (String × String)
  deriving DecidableEq

namespace Element

def attribute? (e : Element) (name : String) : Option String :=
  e.attributes.lookup name

/-- Replaces the value under a name, or adds the pair at the end. -/
def putAttribute (name value : String) : List (String × String) → List (String × String)
  | [] => [(name, value)]
  | (n, v) :: rest =>
    if n = name then (n, value) :: rest else (n, v) :: putAttribute name value rest

def setAttribute (e : Element) (name value : String) : Element :=
  { e with attributes := putAttribute name value e.attributes }

end Element

inductive NodeData where
  | document
  | doctype (name publicId systemId : String)
  | element (e : Element)
  | text (content : String)
  | comment (content : String)
  | instruction (target data : String)
  deriving DecidableEq

namespace NodeData

def isElement : NodeData → Bool
  | element _ => true
  | _ => false

def element? : NodeData → Option Element
  | element e => some e
  | _ => none

def text? : NodeData → Option String
  | text content => some content
  | _ => none

def comment? : NodeData → Option String
  | comment content => some content
  | _ => none

end NodeData

/-- A node with its five links. -/
structure Node where
  data : NodeData
  parent : Option NodeId := none
  firstChild : Option NodeId := none
  lastChild : Option NodeId := none
  prev : Option NodeId := none
  next : Option NodeId := none
  deriving DecidableEq

end LivePages
