import LivePages.Files.Tree

namespace LivePages

/-- One difference between two states of the files, by the names from the root. -/
inductive FileChange where
  | makeDirectory (names : List String)
  | write (names : List String) (content : List UInt8)
  | remove (names : List String)
  deriving DecidableEq

namespace FileTree

def content? : FileTree → Option (List UInt8)
  | file content => some content
  | directory _ => none

/-- How one node came to be; a node that was there as it is needs nothing. -/
def changeAt (old : FileTree) (names : List String) : FileTree → List FileChange
  | directory _ => if (old.find? names).isSome then [] else [.makeDirectory names]
  | file content =>
    if ((old.find? names).bind content?) = some content then [] else [.write names content]

/-- What makes new files of old ones: directories come before what is in them. -/
def changes (old new : FileTree) : List FileChange :=
  (old.contents.filter fun (names, t) => t.isFile && (new.find? names).isNone).map
    (fun (names, _) => .remove names) ++
  new.contents.flatMap fun (names, t) => changeAt old names t

end FileTree

end LivePages
