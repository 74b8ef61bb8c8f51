import LivePages.Dom.Document
import LivePages.Text.Map
import LivePages.Widget.Fault

namespace LivePages

structure WidgetMarkup where
  kind : WidgetKind
  page : PageUrl
  /-- How many widgets come before it on the page. -/
  position : Nat
  attributes : TextMap String
  node : NodeId

namespace WidgetMarkup

def attribute? (m : WidgetMarkup) (name : String) : Option String :=
  m.attributes.lookup name

def hasAttribute (m : WidgetMarkup) (name : String) : Bool :=
  m.attributes.contains name

/-- The name an author has chosen for the widget. -/
def explicitName? (m : WidgetMarkup) : Option String :=
  m.attribute? "name"

def error (m : WidgetMarkup) (fault : Fault) : WidgetError :=
  ⟨m.kind, m.page, m.position, fault⟩

/-- The value of an attribute that the widget cannot do without. -/
def require (m : WidgetMarkup) (name : String) : Except WidgetError String :=
  match m.attribute? name with
  | some value => .ok value
  | none => .error (m.error (.missingAttribute name))

def invalid (m : WidgetMarkup) (name value : String) : WidgetError :=
  m.error (.invalidAttribute name value)

/-- Markup at each of the listed elements, numbered from a given position. -/
def ofElements (t : Tree) (page : PageUrl) : Nat → List NodeId → List WidgetMarkup
  | _, [] => []
  | position, node :: rest =>
    let others := ofElements t page (position + 1) rest
    match (t.tag? node).bind WidgetKind.ofTag? with
    | some kind => ⟨kind, page, position, .ofList (t.attributes node), node⟩ :: others
    | none => others

end WidgetMarkup

/-- All widgets of a page, in document order. -/
def Document.widgets (d : Document) (page : PageUrl) : List WidgetMarkup :=
  WidgetMarkup.ofElements d.tree page 0 (d.tree.elementsNamed Tree.root WidgetKind.tags)

end LivePages
