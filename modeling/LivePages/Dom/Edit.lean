import LivePages.Dom.Tree

namespace LivePages

namespace Tree

/-- Takes a node out of its parent's children; what is below the node stays with it. -/
def detach (t : Tree) (id : NodeId) : Tree :=
  match t.node? id with
  | none => t
  | some node =>
    match node.parent with
    | none => t
    | some parent =>
      let before := match node.prev with
        | some p => t.update p fun n => { n with next := node.next }
        | none => t.update parent fun n => { n with firstChild := node.next }
      let after := match node.next with
        | some s => before.update s fun n => { n with prev := node.prev }
        | none => before.update parent fun n => { n with lastChild := node.prev }
      after.update id fun n => { n with parent := none, prev := none, next := none }

def appendChild (t : Tree) (parent child : NodeId) : Tree :=
  if parent = child ∨ (t.node? parent).isNone ∨ (t.node? child).isNone then t
  else
    let free := t.detach child
    let last := free.lastChild? parent
    let linked := free.update child fun n => { n with parent := some parent, prev := last }
    let joined := match last with
      | some l => linked.update l fun n => { n with next := some child }
      | none => linked.update parent fun n => { n with firstChild := some child }
    joined.update parent fun n => { n with lastChild := some child }

/-- Moves a node to the place before a reference node. -/
def insertBefore (t : Tree) (reference new : NodeId) : Tree :=
  if reference = new ∨ (t.node? new).isNone then t
  else
    match t.parent? reference with
    | none => t
    | some parent =>
      let free := t.detach new
      let prev := free.prev? reference
      let linked := free.update new fun n =>
        { n with parent := some parent, prev := prev, next := some reference }
      let joined := linked.update reference fun n => { n with prev := some new }
      match prev with
      | some p => joined.update p fun n => { n with next := some new }
      | none => joined.update parent fun n => { n with firstChild := some new }

def prependChild (t : Tree) (parent child : NodeId) : Tree :=
  match t.firstChild? parent with
  | some first => t.insertBefore first child
  | none => t.appendChild parent child

/-- Moves a node to the place after a reference node. -/
def insertAfter (t : Tree) (reference new : NodeId) : Tree :=
  if reference = new then t
  else
    match t.next? reference with
    | some next => if next = new then t else t.insertBefore next new
    | none =>
      match t.parent? reference with
      | some parent => t.appendChild parent new
      | none => t

/-- Puts a new node where an old one is and takes the old one out. -/
def replace (t : Tree) (old new : NodeId) : Tree :=
  if old = new ∨ (t.parent? old).isNone then t
  else (t.insertBefore old new).detach old

end Tree

end LivePages
