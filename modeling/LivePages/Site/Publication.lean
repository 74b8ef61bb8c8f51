import LivePages.Deploy.Writing
import LivePages.Settings.OfText
import LivePages.Site.Build
import LivePages.Site.Discovery

namespace LivePages

structure SiteOptions where
  site : String
  out : String
  assets : String
  settings : Option String
  deriving DecidableEq

structure SiteSummary where
  pages : Nat
  interactivePages : Nat
  rooms : Nat
  assets : Nat
  deriving DecidableEq

inductive SiteError where
  | settingsFile (path : String) (fault : FileFault)
  | settings (path : String)
  | outside (path : String)
  | read (path : String) (fault : FileFault)
  | compile (path : String) (error : WidgetError)
  | deploy (error : DeployError)
  | create (path : String) (fault : FileFault)
  | write (path : String) (fault : FileFault)
  | copy (path : String) (fault : FileFault)
  deriving DecidableEq

namespace SiteError

def messages : SiteError → List String
  | settingsFile path fault =>
    ["failed to load configuration " ++ path, "I/O error on " ++ path, fault.message]
  | settings path => ["failed to load configuration " ++ path, "invalid configuration"]
  | outside path => [path ++ " is outside the site", "prefix not found"]
  | read path fault => ["failed to read " ++ path, fault.message]
  | compile path error => ["failed to compile " ++ path, error.message]
  | deploy error => "failed to write deployment" :: error.messages
  | create path fault => ["failed to create " ++ path, fault.message]
  | write path fault => ["failed to write " ++ path, fault.message]
  | copy path fault => ["failed to copy " ++ path, fault.message]

def message (e : SiteError) : String :=
  ": ".intercalate e.messages

end SiteError

def loadSettings (path : Option String) : FileAction SiteError Settings := do
  match path with
  | none => return .default
  | some path =>
    let text ← (FileAction.readText path).explain (.settingsFile path)
    match Settings.ofText? text with
    | some s => return s
    | none => throw (.settings path)

structure CompiledFile where
  file : SiteFile
  html : String

def compileFiles (site : String) :
    SiteBuild → List SiteFile → FileAction SiteError (SiteBuild × List CompiledFile)
  | b, [] => return (b, [])
  | b, file :: files =>
    if file.isPage then do
      let source := joinPath site file.path
      let html ← (FileAction.readText source).explain (.read source)
      match b.compilePage file.address html with
      | .error e => throw (.compile file.path e)
      | .ok (b, text) =>
        let (b, pages) ← compileFiles site b files
        return (b, ⟨file, text⟩ :: pages)
    else compileFiles site b files

def createParent (path : String) : FileAction SiteError Unit := do
  match parentPath? path with
  | some parent => (FileAction.makeDirectories parent).explain (.create parent)
  | none => pure ()

def publishPage (static : String) (page : CompiledFile) : FileAction SiteError Unit := do
  let target := joinPath static page.file.path
  createParent target
  (FileAction.writeText target page.html).explain (.write target)

/-- Copies a file without widgets to its place. -/
def publishFile (site static : String) (file : SiteFile) : FileAction SiteError Unit := do
  let source := joinPath site file.path
  let target := joinPath static file.path
  createParent target
  (FileAction.copyFile source target).explain (.copy source)

/-- Publishes a site. Nothing is written before all of its pages are compiled. -/
def publishSite (o : SiteOptions) : FileAction SiteError SiteSummary := do
  let s ← loadSettings o.settings
  match (← get).discover o.site with
  | .error path => throw (.outside path)
  | .ok files =>
    let (b, pages) ← compileFiles o.site (.start s) files
    (writeDeployment b.plan b.assets s o.out o.assets).explain .deploy
    let static := joinPath o.out staticDirectory
    pages.forM (publishPage static)
    (files.filter fun file => !file.isPage).forM (publishFile o.site static)
    return ⟨b.pagesCompiled, b.interactivePages, b.plan.rooms.size, b.assets.size⟩

end LivePages
