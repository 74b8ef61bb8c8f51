namespace LivePages

/-- A file, or a directory with entries under distinct names. -/
inductive FileTree where
  | file (content : List UInt8)
  | directory (entries : List (String × FileTree))

namespace FileTree

/-- What stands under the names of a path. -/
def find? : FileTree → List String → Option FileTree
  | t, [] => some t
  | file _, _ :: _ => none
  | directory entries, name :: rest => (entries.lookup name).bind fun t => t.find? rest

/-- Entries with a new one in place of the old one, or at the end. -/
def setEntry (name : String) (t : FileTree) : List (String × FileTree) → List (String × FileTree)
  | [] => [(name, t)]
  | (n, old) :: rest => if n = name then (n, t) :: rest else (n, old) :: setEntry name t rest

/-- Puts something under the names of a path; all but the last of them are there. -/
def put (new : FileTree) : FileTree → List String → FileTree
  | _, [] => new
  | file content, _ :: _ => file content
  | directory entries, name :: rest =>
    match entries.lookup name with
    | some old => directory (setEntry name (put new old rest) entries)
    | none => if rest.isEmpty then directory (setEntry name new entries) else directory entries

def remove : FileTree → List String → FileTree
  | t, [] => t
  | file content, _ :: _ => file content
  | directory entries, [name] => directory (entries.filter fun entry => entry.1 != name)
  | directory entries, name :: rest =>
    match entries.lookup name with
    | some old => directory (setEntry name (remove old rest) entries)
    | none => directory entries

mutual

/-- Everything below, each with the names that lead to it. -/
def contents : FileTree → List (List String × FileTree)
  | file _ => []
  | directory entries => entryContents entries

def entryContents : List (String × FileTree) → List (List String × FileTree)
  | [] => []
  | (name, t) :: rest =>
    ([name], t) :: (contents t).map (fun (names, u) => (name :: names, u)) ++ entryContents rest

end

def isFile : FileTree → Bool
  | file _ => true
  | directory _ => false

def isDirectory (t : FileTree) : Bool :=
  !t.isFile

end FileTree

end LivePages
