import LivePages.Files.Path
import LivePages.Files.Tree
import LivePages.Text.Hex

namespace LivePages

inductive FileFault where
  | notFound
  | notDirectory
  | isDirectory
  | present
  | notText
  | notRegular
  deriving DecidableEq

def FileFault.message : FileFault → String
  | notFound => "No such file or directory (os error 2)"
  | notDirectory => "Not a directory (os error 20)"
  | isDirectory => "Is a directory (os error 21)"
  | present => "File exists (os error 17)"
  | notText => "stream did not contain valid UTF-8"
  | notRegular => "the source path is neither a regular file nor a symlink to a regular file"

/-- All files, and the place from which paths without a root are read. -/
structure FileStore where
  root : FileTree
  here : List String

/-- An operation on files. What it did before it failed stays done. -/
abbrev FileAction (ε : Type) := ExceptT ε (StateM FileStore)

def FileAction.explain {ε δ α : Type} (f : ε → δ) (action : FileAction ε α) :
    FileAction δ α :=
  ExceptT.adapt f action

namespace FileStore

/-- Follows the pieces of a path from a place. What a piece starts from is a directory. -/
def walk (root : FileTree) : List String → List String → Except FileFault (List String)
  | [], place => .ok place
  | piece :: rest, place =>
    match root.find? place with
    | none => .error .notFound
    | some (.file _) => .error .notDirectory
    | some (.directory entries) =>
      if isIdle piece then walk root rest place
      else if piece = ".." then walk root rest place.dropLast
      else if (entries.lookup piece).isSome then walk root rest (place ++ [piece])
      else .error .notFound

def startOf (s : FileStore) (path : String) : List String :=
  if isRooted path then [] else s.here

def locate (s : FileStore) (path : String) : Except FileFault (List String) :=
  if path = "" then .error .notFound
  else walk s.root (splitText '/' path) (s.startOf path)

def get? (s : FileStore) (path : String) : Option FileTree :=
  match s.locate path with
  | .ok place => s.root.find? place
  | .error _ => none

def has (s : FileStore) (path : String) : Bool :=
  (s.get? path).isSome

def hasDirectory (s : FileStore) (path : String) : Bool :=
  (s.get? path).any FileTree.isDirectory

/-- Where a path would put something: a directory, a name in it, and whether the path takes the
name for a directory. The name may be a dot, or nothing if the path is the root. -/
structure Target where
  place : List String
  entries : List (String × FileTree)
  name : String
  slash : Bool

/-- Whether nothing can be made under the name. -/
def Target.isSpecial (t : Target) : Bool :=
  isIdle t.name || t.name == ".."

def target (s : FileStore) (path : String) : Except FileFault Target :=
  if path = "" then .error .notFound
  else
    let pieces := (splitText '/' path).reverse
    let named := pieces.dropWhile (· == "")
    match walk s.root (named.drop 1).reverse (s.startOf path) with
    | .error fault => .error fault
    | .ok place =>
      match s.root.find? place with
      | some (.directory entries) =>
        .ok ⟨place, entries, named.headD "", pieces.head? == some ""⟩
      | some (.file _) => .error .notDirectory
      | none => .error .notFound

end FileStore

namespace FileAction

def makeDirectory (path : String) : FileAction FileFault Unit := do
  let s ← get
  let t ← liftM (s.target path)
  if t.isSpecial || (t.entries.lookup t.name).isSome then throw .present
  else set { s with root := FileTree.put (.directory []) s.root (t.place ++ [t.name]) }

def ensureDirectory (path : String) : FileAction FileFault Unit :=
  tryCatch (makeDirectory path) fun fault => do
    if (← get).hasDirectory path then pure () else throw fault

/-- Makes a directory and those above it that are missing, at most as many as the first argument
allows. -/
def makeDirectoriesWithin : Nat → String → FileAction FileFault Unit
  | 0, _ => pure ()
  | bound + 1, path =>
    if path = "" then pure ()
    else
      tryCatch (makeDirectory path) fun fault => do
        if fault = .notFound then
          match parentPath? path with
          | none => throw fault
          | some parent =>
            makeDirectoriesWithin bound parent
            ensureDirectory path
        else if (← get).hasDirectory path then pure () else throw fault

/-- Makes a directory and those above it that are missing. A path has fewer parts than characters. -/
def makeDirectories (path : String) : FileAction FileFault Unit :=
  makeDirectoriesWithin (path.length + 1) path

/-- The place of a file that can be written, whether or not it is there. -/
def writable (path : String) : FileAction FileFault (List String) := do
  let s ← get
  let t ← liftM (s.target path)
  if t.slash || t.isSpecial then throw .isDirectory
  else
    match t.entries.lookup t.name with
    | some (.directory _) => throw .isDirectory
    | _ => return t.place ++ [t.name]

/-- Writes a file in place of the one that may be there. -/
def writeFile (path : String) (content : List UInt8) : FileAction FileFault Unit := do
  let place ← writable path
  modify fun s => { s with root := FileTree.put (.file content) s.root place }

def writeText (path text : String) : FileAction FileFault Unit :=
  writeFile path (bytesOf text)

def readFile (path : String) : FileAction FileFault (List String × FileTree) := do
  let s ← get
  let place ← liftM (s.locate path)
  match s.root.find? place with
  | some t => return (place, t)
  | none => throw .notFound

def readText (path : String) : FileAction FileFault String := do
  match (← readFile path).2 with
  | .directory _ => throw .isDirectory
  | .file content =>
    match String.fromUTF8? ⟨content.toArray⟩ with
    | some text => return text
    | none => throw .notText

/-- Copies a file. The target is emptied before the source is read, so a file copied onto itself is
empty. -/
def copyFile (source target : String) : FileAction FileFault Unit := do
  match ← readFile source with
  | (_, .directory _) => throw .notRegular
  | (place, .file content) =>
    let goal ← writable target
    modify fun s =>
      { s with root := FileTree.put (.file (if goal = place then [] else content)) s.root goal }

def removeFile (path : String) : FileAction FileFault Unit := do
  match ← readFile path with
  | (_, .directory _) => throw .isDirectory
  | (place, .file _) => modify fun s => { s with root := s.root.remove place }

end FileAction

end LivePages
