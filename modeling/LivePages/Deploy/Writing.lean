import LivePages.Deploy.Artifacts
import LivePages.Files.Store
import LivePages.Site.AssetSet

namespace LivePages

inductive DeployError where
  | missingAsset (path : String)
  | files (path : String) (fault : FileFault)
  deriving DecidableEq

def DeployError.messages : DeployError → List String
  | missingAsset path => ["static asset \x60" ++ path ++ "\x60 does not exist"]
  | files path fault => ["I/O error on " ++ path, fault.message]

/-- An operation whose failure is reported with a path. -/
def FileAction.on {α : Type} (path : String) (action : FileAction FileFault α) :
    FileAction DeployError α :=
  action.explain (.files path)

def copyAsset (source target : String) : FileAction DeployError Unit := do
  match parentPath? target with
  | some parent => FileAction.on parent (.makeDirectories parent)
  | none => pure ()
  FileAction.on source (.copyFile source target)

/-- Copies what is in a directory into another one; what is there besides stays. -/
def copyEntries (source target : String) :
    List (String × FileTree) → FileAction DeployError Unit
  | [] => pure ()
  | (name, .file _) :: rest => do
    copyAsset (joinPath source name) (joinPath target name)
    copyEntries source target rest
  | (name, .directory entries) :: rest => do
    FileAction.on (joinPath target name) (.makeDirectories (joinPath target name))
    copyEntries (joinPath source name) (joinPath target name) entries
    copyEntries source target rest

def copyDirectory (source target : String) : FileAction DeployError Unit := do
  FileAction.on target (.makeDirectories target)
  match ← FileAction.on source (FileAction.readFile source) with
  | (_, .directory entries) => copyEntries source target entries
  | (_, .file _) => throw (.files source .notDirectory)

namespace AssetSet

/-- Every asset is below a root. -/
def check (assets : AssetSet) (root : String) : FileAction DeployError Unit := do
  let s ← get
  match assets.paths.find? fun path => !s.has (joinPath root path) with
  | some path => throw (.missingAsset (joinPath root path))
  | none => pure ()

/-- Copies the assets from one root to another. -/
def copy (assets : AssetSet) (root target : String) : FileAction DeployError Unit :=
  assets.paths.forM fun path => do
    if (← get).hasDirectory (joinPath root path) then
      copyDirectory (joinPath root path) (joinPath target path)
    else copyAsset (joinPath root path) (joinPath target path)

end AssetSet

def writeArtifact (out name text : String) : FileAction DeployError Unit :=
  FileAction.on (joinPath out name) (.writeText (joinPath out name) text)

/-- Writes the plan, or takes away one of an earlier deployment. -/
def writePlan (out : String) (plan : Option String) : FileAction DeployError Unit := do
  let path := joinPath out ExecutionPlan.fileName
  match plan with
  | some text => writeArtifact out ExecutionPlan.fileName text
  | none => if (← get).has path then FileAction.on path (.removeFile path) else pure ()

/-- Writes all texts of a deployment and its assets. Nothing is written if an asset is missing. -/
def writeDeployment (plan : ExecutionPlan) (assets : AssetSet) (s : Settings)
    (out root : String) : FileAction DeployError Unit := do
  assets.check root
  let texts := plan.artifacts s
  FileAction.on out (.makeDirectories out)
  writePlan out texts.plan
  writeArtifact out proxyFileName texts.proxy
  writeArtifact out imageFileName texts.image
  writeArtifact out composeFileName texts.compose
  assets.copy root (joinPath out staticDirectory)

end LivePages
