import LivePages.Dom.Tree

namespace LivePages

namespace Tree

/-- A node and the siblings after it, at most as many as the first argument allows. -/
def siblingsFrom (t : Tree) : Nat → Option NodeId → List NodeId
  | 0, _ => []
  | _ + 1, none => []
  | bound + 1, some id =>
    match t.node? id with
    | none => []
    | some node => id :: t.siblingsFrom bound node.next

/-- The children of a node in order. No chain of distinct nodes is longer than the tree. -/
def children (t : Tree) (id : NodeId) : List NodeId :=
  t.siblingsFrom t.size (t.firstChild? id)

def elementChildren (t : Tree) (id : NodeId) : List NodeId :=
  (t.children id).filter fun c => (t.element? c).isSome

/-- The node that follows the subtree of a node in document order, inside the subtree of `top`. -/
def followingWithin (t : Tree) (top : NodeId) : Nat → NodeId → Option NodeId
  | 0, _ => none
  | bound + 1, id =>
    if id = top then none
    else
      match t.next? id with
      | some next => some next
      | none =>
        match t.parent? id with
        | some parent => t.followingWithin top bound parent
        | none => none

/-- The next node in document order inside the subtree of `top`. -/
def successorWithin (t : Tree) (top id : NodeId) : Option NodeId :=
  (t.firstChild? id).orElse fun _ => t.followingWithin top t.size id

def walkWithin (t : Tree) (top : NodeId) : Nat → Option NodeId → List NodeId
  | 0, _ => []
  | _ + 1, none => []
  | bound + 1, some id => id :: t.walkWithin top bound (t.successorWithin top id)

/-- Everything below a node in document order, found link by link. -/
def descendants (t : Tree) (top : NodeId) : List NodeId :=
  t.walkWithin top t.size (t.firstChild? top)

/-- The same order stated by recursion over children, to a given depth. -/
def preorder (t : Tree) : Nat → NodeId → List NodeId
  | 0, _ => []
  | depth + 1, id => (t.children id).flatMap fun c => c :: t.preorder depth c

def elementsNamed (t : Tree) (top : NodeId) (tags : List String) : List NodeId :=
  (t.descendants top).filter fun id =>
    match t.tag? id with
    | some tag => tags.contains tag
    | none => false

/-- The number under which the tag of an element is in use as a name. -/
def tagNumber? (t : Tree) (id : NodeId) : Option Nat :=
  (t.tag? id).bind t.names.lookup

/-- The same search by numbers of names, in which tags that are not in use do not count. -/
def elementsNumbered (t : Tree) (top : NodeId) (tags : List String) : List NodeId :=
  let wanted := tags.filterMap t.names.lookup
  if wanted.isEmpty then []
  else
    (t.descendants top).filter fun id =>
      match t.tagNumber? id with
      | some number => wanted.contains number
      | none => false

/-- The first comment below a node whose content passes a test. -/
def findComment? (t : Tree) (top : NodeId) (test : String → Bool) : Option NodeId :=
  (t.descendants top).find? fun id =>
    match t.comment? id with
    | some content => test content
    | none => false

def textContent (t : Tree) (id : NodeId) : String :=
  String.join ((t.descendants id).filterMap t.text?)

end Tree

end LivePages
