import LivePages.Command.Run
import LivePages.Files.Changes

namespace LivePages

/-- The paths above a path, the shortest first. -/
def pathPrefixes (path : String) : List String :=
  let pieces := splitText '/' path
  ((List.range pieces.length).map fun n => "/".intercalate (pieces.take (n + 1))).filter (· != "")

def CommandRequest.paths : CommandRequest → List String
  | build o => [o.site, o.out, o.assets] ++ o.settings.toList
  | _ => []

/-- Files with one more directory or file. -/
def FileStore.adding (s : FileStore) (action : FileAction FileFault Unit) : FileStore :=
  (action.run.run s).2

def placeText (names : List String) : String :=
  "/" ++ "/".intercalate names

def readFiles (paths : List String) : IO FileStore := do
  let here ← IO.currentDir
  let mut store : FileStore := ⟨.directory [], (splitText '/' here.toString).filter (· != "")⟩
  store := store.adding (.makeDirectories here.toString)
  let mut todo := (paths.flatMap pathPrefixes).map (fun (p : String) => (here / p, false)) ++
    paths.map fun (p : String) => (here / p, true)
  while !todo.isEmpty do
    match todo with
    | [] => pure ()
    | (path, whole) :: rest =>
      todo := rest
      if ← path.isDir then
        store := store.adding (.makeDirectories path.toString)
        if whole then
          todo := (← path.readDir).toList.map (fun e => (e.path, true)) ++ todo
      else if ← path.pathExists then
        let content ← IO.FS.readBinFile path
        store := store.adding (.writeFile path.toString content.toList)
  return store

def applyChange : FileChange → IO Unit
  | .makeDirectory names => IO.FS.createDirAll (placeText names)
  | .write names content => IO.FS.writeBinFile (placeText names) ⟨content.toArray⟩
  | .remove names => IO.FS.removeFile (placeText names)

end LivePages

open LivePages in
def main (arguments : List String) : IO UInt32 := do
  let files ← readFiles (CommandRequest.ofArguments arguments).paths
  let result := runCommand arguments files
  (files.root.changes result.files.root).forM applyChange
  IO.print result.output
  IO.eprint result.errors
  return result.code.toUInt32
