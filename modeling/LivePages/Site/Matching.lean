import LivePages.Files.Pattern
import LivePages.Site.Discovery

namespace LivePages

namespace FileStore

def namesIn (s : FileStore) (path : String) : List String :=
  match s.get? path with
  | some (.directory entries) => entries.map Prod.fst
  | _ => []

def hasFile (s : FileStore) (path : String) : Bool :=
  (s.get? path).any FileTree.isFile

/-- What is found after one more piece of a pattern. -/
def matchPiece (s : FileStore) (found : String) (piece : PatternPiece) : List String :=
  if piece.bracketed then ((s.namesIn found).filter (· == piece.name)).map (belowSite found)
  else (s.step? found piece.name).toList

def matchPieces (s : FileStore) (found : String) : List PatternPiece → List String
  | [] => [found]
  | piece :: pieces => (s.matchPiece found piece).flatMap fun next => s.matchPieces next pieces

/-- The paths of everything below a directory. -/
def pathsBelow (s : FileStore) (found : String) : List String :=
  match s.get? found with
  | some t => t.contents.map fun (names, _) => belowSite found ("/".intercalate names)
  | none => []

/-- The paths of everything below the directories that a pattern leads to, if every piece of it
matches one name. -/
def matchesBelow (s : FileStore) (base : String) : Option (List String) :=
  let pieces := splitText '/' base
  let found :=
    if startsAtRoot base then (pieces.tail.mapM PatternPiece.ofText?).map (s.matchPieces "/")
    else (pieces.mapM PatternPiece.ofText?).map (s.matchPieces ".")
  found.map fun found => found.flatMap s.pathsBelow

end FileStore

/-- A search for the paths that match a pattern; there is no answer if the pattern is not valid. -/
abbrev PathSearch :=
  FileStore → String → Option (List String)

/-- The end of a pattern that matches everything below a directory. -/
def everythingBelow : String :=
  "/**/*"

/-- The search in the one form that it is used in, with the paths in the order of their parts. -/
def searchBelow (s : FileStore) (pattern : String) : Option (List String) :=
  let base := String.ofList (pattern.toList.take (pattern.length - everythingBelow.length))
  if base ++ everythingBelow == pattern then
    (s.matchesBelow base).map fun paths => paths.mergeSort fun p q =>
      PageUrl.compareSegments (pathParts p) (pathParts q) != .gt
  else none

inductive DiscoveryFault where
  | pattern
  | outside (path : String)
  deriving DecidableEq

/-- The file of a site that has a given path, which starts like the path of the site. -/
def siteFile (site path : String) : Except DiscoveryFault SiteFile :=
  match (pathParts site).isPrefixOf? (pathParts path) with
  | some names => .ok ⟨names⟩
  | none => .error (.outside path)

/-- All files of a site, through a search for paths. -/
def FileStore.discoverBy (search : PathSearch) (s : FileStore) (site : String) :
    Except DiscoveryFault (List SiteFile) := do
  match search s (escapePattern site ++ everythingBelow) with
  | none => throw .pattern
  | some paths =>
    let files ← (paths.filter s.hasFile).mapM (siteFile site)
    return files.mergeSort SiteFile.notAfter

end LivePages
