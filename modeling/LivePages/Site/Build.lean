import LivePages.Html.Parse
import LivePages.Page.Compiled
import LivePages.Plan.Basic

namespace LivePages

/-- Adds the widgets' processes to those of a room; every name occurs once. -/
def addExecutors (s : Settings) (executors : TextMap Executor) :
    List WidgetDescriptor → Except WidgetError (TextMap Executor)
  | [] => .ok executors
  | w :: widgets =>
    if executors.contains w.name then
      .error ⟨w.kind, w.page, w.position, .duplicateName w.name⟩
    else addExecutors s (executors.insert w.name (w.executor s)) widgets

/-- The plan with the room of one more page, if the page has widgets. -/
def ExecutionPlan.addPage (p : ExecutionPlan) (page : CompiledPage) (s : Settings) :
    Except WidgetError ExecutionPlan :=
  if page.widgets.isEmpty then .ok p
  else do
    let present := ((p.room? page.url.text).map Room.executors).getD .empty
    let executors ← addExecutors s present page.widgets
    return { p with rooms := p.rooms.insert page.url.text (.withExecutors s executors) }

structure SiteBuild where
  settings : Settings
  plan : ExecutionPlan
  assets : AssetSet
  pagesCompiled : Nat
  interactivePages : Nat

namespace SiteBuild

def start (s : Settings) : SiteBuild :=
  ⟨s, .ofSettings s, .empty, 0, 0⟩

/-- The site with one more page; a page that fails leaves it as it was. -/
def compileDocument (b : SiteBuild) (url : PageUrl) (d : Document) :
    Except WidgetError (SiteBuild × CompiledPage) := do
  let page ← d.compile url b.settings
  let plan ← b.plan.addPage page b.settings
  return ({ b with
    plan
    assets := b.assets.union page.assets
    pagesCompiled := b.pagesCompiled + 1
    interactivePages := b.interactivePages + (if page.isInteractive then 1 else 0) }, page)

/-- The site and the text of one more page; a page without widgets stays as it is. -/
def compilePage (b : SiteBuild) (url html : String) : Except WidgetError (SiteBuild × String) := do
  let url := PageUrl.ofText url
  let (b, page) ← b.compileDocument url (.ofHtml url.text html)
  return (b, if page.isInteractive then page.html else html)

end SiteBuild

end LivePages
