import LivePages.Html.Builder

namespace LivePages

namespace Builder

/-- Ends the innermost element of a name, unless a special element is in the way. -/
def closeOther (b : Builder) (name : String) : Builder :=
  match b.openElements.find? fun e => e.isHtml name || e.isSpecial with
  | none => b
  | some e =>
    if e.isHtml name then (b.closeImpliedExcept name).popThrough (·.node == e.node) else b

def formattingOf? (b : Builder) (node : NodeId) : Option FormattingElement :=
  (b.formatting.filterMap id).find? fun f => f.element.node == node

def swapOpen (b : Builder) (node : NodeId) (new : OpenElement) : Builder :=
  { b with openElements := b.openElements.map fun e => if e.node = node then new else e }

/-- Work on the elements between a block and the formatting element it is lifted out of. -/
structure Lifting where
  builder : Builder
  /-- The top of what has been rebuilt so far. -/
  top : NodeId
  /-- The entry after which the copy of the formatting element is filed. -/
  bookmark : Option NodeId
  seen : Nat

/-- Copies the formatting elements on the way outwards, three at most; the others are closed. -/
def Lifting.step (l : Lifting) (e : OpenElement) : Lifting :=
  let b := l.builder
  let seen := l.seen + 1
  match b.formattingOf? e.node with
  | none => { l with builder := b.removeOpen e.node, seen }
  | some f =>
    if seen > 3 then { l with builder := (b.dropFormatting e.node).removeOpen e.node, seen }
    else
      let (b, copy) := b.createFor .html f.tag
      let b := b.swapFormatting e.node ⟨copy, f.tag⟩
      let b := b.swapOpen e.node copy
      let b := { b with tree := (b.tree.detach l.top).appendChild copy.node l.top }
      { builder := b, top := copy.node, bookmark := some (l.bookmark.getD copy.node), seen }

/-- Inserts an entry on the later side of another. -/
def fileAfter (entry : FormattingElement) (node : NodeId) :
    List (Option FormattingElement) → List (Option FormattingElement)
  | [] => []
  | f :: rest =>
    if isEntryOf node f then some entry :: f :: rest else f :: fileAfter entry node rest

/-- Opens an element just inside another. -/
def openInside (new : OpenElement) (node : NodeId) : List OpenElement → List OpenElement
  | [] => []
  | e :: rest => if e.node = node then new :: e :: rest else e :: openInside new node rest

def moveChildren (b : Builder) (source target : NodeId) : Builder :=
  { b with tree := (b.tree.children source).foldl (fun t c => t.appendChild target c) b.tree }

/-- Lifts a block out of a formatting element and puts a copy of that element inside the block. -/
def liftBlock (b : Builder) (f : FormattingElement) (block ancestor : OpenElement)
    (between : List OpenElement) : Builder :=
  let lifted := between.foldl Lifting.step ⟨b, block.node, none, 0⟩
  let b := lifted.builder
  let b := { b with tree := b.tree.detach lifted.top }
  let b := b.putAt (b.placeIn ancestor) lifted.top
  let (b, copy) := b.createFor .html f.tag
  let b := b.moveChildren block.node copy.node
  let b := { b with tree := b.tree.appendChild block.node copy.node }
  let b := match lifted.bookmark with
    | none => b.swapFormatting f.element.node ⟨copy, f.tag⟩
    | some mark =>
      { b with formatting := fileAfter ⟨copy, f.tag⟩ mark b.formatting }.dropFormatting f.element.node
  let b := b.removeOpen f.element.node
  { b with openElements := openInside copy block.node b.openElements }

/-- Ends a formatting element that may hold blocks which are still open. -/
def endFormattingUpTo (name : String) : Nat → Builder → Builder
  | 0, b => b
  | bound + 1, b =>
    match b.sinceMark.find? (·.tag.name == name) with
    | none => b.closeOther name
    | some f =>
      let node := f.element.node
      if !b.isOpen node then b.dropFormatting node
      else if !b.inScope OpenElement.endsScope (·.node == node) then b
      else
        let inside := b.openElements.takeWhile (·.node != node)
        match inside.reverse.find? OpenElement.isSpecial with
        | none => (b.popThrough (·.node == node)).dropFormatting node
        | some block =>
          match (b.openElements.dropWhile (·.node != node)).tail with
          | [] => b
          | ancestor :: _ =>
            let between := (inside.dropWhile (·.node != block.node)).tail
            endFormattingUpTo name bound (b.liftBlock f block ancestor between)

def endFormatting (b : Builder) (name : String) : Builder :=
  match b.openElements with
  | e :: _ =>
    if e.isHtml name && !b.isFormatting e.node then b.pop else endFormattingUpTo name 8 b
  | [] => b

/-- A link ends the link it would stand in. -/
def endOpenLink (b : Builder) : Builder :=
  match b.sinceMark.find? (·.element.isHtml "a") with
  | none => b
  | some f =>
    ((b.endFormatting "a").dropFormatting f.element.node).removeOpen f.element.node

end Builder

end LivePages
