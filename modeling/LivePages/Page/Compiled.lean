import LivePages.Html.Serialize
import LivePages.Page.Session
import LivePages.Site.AssetSet
import LivePages.Widget.Descriptor

namespace LivePages

namespace Tree

/-- The parents of a node from the nearest on, at most as many as the first argument allows. -/
def ancestors (t : Tree) : Nat → NodeId → List NodeId
  | 0, _ => []
  | bound + 1, id =>
    match t.parent? id with
    | some parent => parent :: t.ancestors bound parent
    | none => []

/-- The kind of the nearest widget around a node. -/
def outerWidget? (t : Tree) (id : NodeId) : Option WidgetKind :=
  (t.ancestors t.size id).findSome? fun a => (t.tag? a).bind WidgetKind.ofTag?

/-- Whether all other children of a node are blank texts. -/
def isSoleContent (t : Tree) (parent id : NodeId) : Bool :=
  (t.children parent).all fun c =>
    c == id ||
      match t.text? c with
      | some text => text.toList.all isBlank
      | none => false

/-- What gives way to a widget: the paragraph around its markup if nothing else is in it, and the
markup otherwise. -/
def anchor (t : Tree) (id : NodeId) : NodeId :=
  match t.parent? id with
  | some parent => if t.isElementNamed parent "p" && t.isSoleContent parent id then parent else id
  | none => id

/-- The first child that matches a template, or a new element. -/
def existingOrNew (t : Tree) (parent : NodeId) (template : Template) : Tree × NodeId :=
  match (t.elementChildren parent).find? fun id => t.matchesTemplate id template with
  | some id => (t, id)
  | none => t.instantiate template

/-- Puts the container and the script of a widget in the place of its markup; without a container
the script alone. -/
def replaceMarkup (t : Tree) (w : WidgetDescriptor) : Tree :=
  let anchor := t.anchor w.node
  let (t, script) := t.instantiate w.instantiation.template
  match w.container? with
  | some template =>
    let (t, container) := t.instantiate template
    (t.replace anchor container).insertAfter container script
  | none => (t.insertAfter anchor script).detach anchor

end Tree

/-- A head that is being filled: new elements go behind the last one, or to the end at first. -/
structure HeadCursor where
  tree : Tree
  head : NodeId
  last : Option NodeId

namespace HeadCursor

/-- Puts an element into the head unless an equal one is there. -/
def add (c : HeadCursor) (template : Template) : HeadCursor :=
  if c.tree.containsTemplate c.head template then c
  else
    let (t, id) := c.tree.instantiate template
    { c with
      tree := match c.last with
        | some last => t.insertAfter last id
        | none => t.appendChild c.head id
      last := some id }

def addAll (c : HeadCursor) (templates : List Template) : HeadCursor :=
  templates.foldl add c

/-- Replaces a widget's markup and adds what it needs. -/
def place (c : HeadCursor) (w : WidgetDescriptor) : HeadCursor :=
  ({ c with tree := c.tree.replaceMarkup w }).addAll w.headTemplates

end HeadCursor

structure CompiledPage where
  url : PageUrl
  widgets : List WidgetDescriptor
  document : Document
  /-- What its visitors need; nothing if it has no widgets. -/
  assets : AssetSet

namespace CompiledPage

def isInteractive (p : CompiledPage) : Bool :=
  !p.widgets.isEmpty

theorem isInteractive_iff {p : CompiledPage} : p.isInteractive ↔ p.widgets ≠ [] := by
  simp [isInteractive]

def html (p : CompiledPage) : String :=
  p.document.toHtml

end CompiledPage

namespace WidgetMarkup

/-- A widget inside another one would disappear together with its markup. -/
def rejectNested (t : Tree) (m : WidgetMarkup) : Except WidgetError Unit :=
  match t.outerWidget? m.node with
  | some outer => .error (m.error (.nested outer))
  | none => .ok ()

end WidgetMarkup

namespace Document

/-- Adds the session and the widgets to a page with all sections. -/
def placeWidgets (t : Tree) (head body : NodeId) (url : PageUrl)
    (widgets : List WidgetDescriptor) : Tree :=
  let marker := t.findComment? head isMarkerComment
  let cursor := HeadCursor.addAll ⟨t, head, marker⟩ url.sessionScripts
  let (t, connection) := cursor.tree.existingOrNew body connectionScript
  let cursor := { cursor with tree := t.prependChild body connection }
  let placed := widgets.foldl HeadCursor.place cursor
  let (t, ready) := placed.tree.existingOrNew body readyScript
  t.appendChild body ready

def widgetAssets (widgets : List WidgetDescriptor) : AssetSet :=
  widgets.foldl (fun s w => s.insertAll w.content.assets) (.ofList [roomConnectionAsset])

/-- Puts the widgets of a page in place. All of them are checked before anything changes. -/
def compile (d : Document) (url : PageUrl) (s : Settings) : Except WidgetError CompiledPage := do
  let markups := d.widgets url
  if markups.isEmpty then return ⟨url, [], d, .empty⟩
  else
    markups.forM fun m => m.rejectNested d.tree
    let widgets ← markups.mapM fun m => m.descriptor s
    let (d, head, body) := d.ensureStructure
    return ⟨url, widgets, { d with tree := placeWidgets d.tree head body url widgets },
      widgetAssets widgets⟩

end Document

end LivePages
