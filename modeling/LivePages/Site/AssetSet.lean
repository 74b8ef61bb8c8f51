import LivePages.Text.Map

namespace LivePages

/-- The files and directories that the visitors of a site need, by their paths below one root. -/
structure AssetSet where
  members : TextMap Unit

namespace AssetSet

def empty : AssetSet :=
  ⟨.empty⟩

def insert (s : AssetSet) (path : String) : AssetSet :=
  ⟨s.members.insert path ()⟩

def contains (s : AssetSet) (path : String) : Bool :=
  s.members.contains path

/-- The paths in their order, each once. -/
def paths (s : AssetSet) : List String :=
  s.members.keys

def size (s : AssetSet) : Nat :=
  s.members.size

def isEmpty (s : AssetSet) : Bool :=
  s.members.isEmpty

def insertAll (s : AssetSet) (paths : List String) : AssetSet :=
  paths.foldl insert s

def ofList (paths : List String) : AssetSet :=
  empty.insertAll paths

def union (s t : AssetSet) : AssetSet :=
  s.insertAll t.paths

end AssetSet

end LivePages
