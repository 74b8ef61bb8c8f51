import LivePages.Files.Store
import LivePages.Page.Url

namespace LivePages

/-- The address under which a file is published: a directory's index stands for the directory. -/
def publishedAddress (parts : List String) : String :=
  match parts.getLast? with
  | none => ""
  | some last =>
    if last == "index.html" then
      if parts.length = 1 then "" else "/".intercalate parts.dropLast ++ "/"
    else "/".intercalate parts

/-- What follows the last point of a name, unless the name starts with that point. -/
def extension? (name : String) : Option String :=
  match (splitText '.' name).reverse with
  | last :: first :: rest => if rest.isEmpty && first == "" then none else some last
  | _ => none

structure SiteFile where
  names : List String
  deriving DecidableEq

namespace SiteFile

/-- The names, one below the other; they start with the root if the site has an empty path. -/
def path (f : SiteFile) : String :=
  match f.names with
  | "/" :: names => "/" ++ "/".intercalate names
  | names => "/".intercalate names

/-- The same file by the names from the root on. -/
def fromRoot (f : SiteFile) : SiteFile :=
  ⟨"/" :: f.names⟩

def isPage (f : SiteFile) : Bool :=
  (f.names.getLast?.bind extension?) == some "html"

def address (f : SiteFile) : String :=
  publishedAddress f.names

/-- The order of paths, name by name. -/
def notAfter (f g : SiteFile) : Bool :=
  PageUrl.compareSegments f.names g.names != .gt

end SiteFile

def FileTree.siteFiles (t : FileTree) : List SiteFile :=
  (t.contents.filterMap fun (names, u) => if u.isFile then some ⟨names⟩ else none).mergeSort
    SiteFile.notAfter

/-- What is below a path is looked for from the root on: the slash behind an empty path is the root
itself. -/
def startsAtRoot (site : String) : Bool :=
  site == "" || isRooted site

namespace FileStore

/-- One step of the way to a site. From the start the next piece is the whole path; later it is
joined to what was found before. -/
def step? (s : FileStore) (found : String) (piece : String) : Option String :=
  let next := if found == "." then piece else joinPath found piece
  if piece == "." || piece == ".." then if s.hasDirectory found then some next else none
  else if s.has next then some next else none

/-- The path under which the files of a site are found. It lacks a dot at the start, which has no
name to look for. Behind an empty path, everything from the root on is looked for. -/
def foundSite? (s : FileStore) (site : String) : Option String :=
  let pieces := splitText '/' site
  if startsAtRoot site then pieces.tail.foldlM s.step? "/" else pieces.foldlM s.step? "."

/-- A path below the one under which a site is found; what is found from the start has no other
path than its names. -/
def belowSite (found path : String) : String :=
  if found == "." then path else joinPath found path

/-- All files of a site. Their paths start like the path of the site, or none of them can be
published; the first one is reported then. An empty path takes nothing from them, not even the root. -/
def discover (s : FileStore) (site : String) : Except String (List SiteFile) :=
  match s.foundSite? site with
  | none => .ok []
  | some found =>
    let files := ((s.get? found).map FileTree.siteFiles).getD []
    match files with
    | [] => .ok []
    | first :: _ =>
      if (pathParts site).isPrefixOf (pathParts (belowSite found first.path)) then
        .ok (if site = "" then files.map SiteFile.fromRoot else files)
      else .error (belowSite found first.path)

end FileStore

end LivePages
