import LivePages.Text.Hex
import LivePages.Text.Order
import LivePages.Text.Pieces

namespace LivePages

/-- A segment of an address has content and is not the dot that stands for its own directory. -/
def isSegment (piece : List Char) : Bool :=
  !piece.isEmpty && piece != ['.']

/-- The segments of an address or of a path, read from the root. -/
def segmentsOf (text : String) : List String :=
  ((splitAtChar '/' text.toList).filter isSegment).map String.ofList

/-- The address of a page within its site. -/
structure PageUrl where
  segments : List String
  deriving DecidableEq

namespace PageUrl

def ofText (text : String) : PageUrl :=
  ⟨segmentsOf text⟩

def root : PageUrl := ⟨[]⟩

def isRoot (u : PageUrl) : Bool :=
  u.segments.isEmpty

/-- The canonical form: rooted, and without a slash at the end unless it is the root. -/
def text (u : PageUrl) : String :=
  if u.isRoot then "/" else String.join (u.segments.map ("/" ++ ·))

/-- How many segments two lists have in common at the start. -/
def commonLength : List String → List String → Nat
  | a :: as, b :: bs => if a = b then commonLength as bs + 1 else 0
  | _, _ => 0

/-- The segments that lead from one place to another. -/
def path (source target : List String) : List String :=
  let common := commonLength source target
  List.replicate (source.length - common) ".." ++ target.drop common

/-- The reference from a page, taken as a directory, to a target given from the root. -/
def relative (u : PageUrl) (target : String) : String :=
  match path u.segments (segmentsOf target) with
  | [] => "."
  | parts => "/".intercalate parts

/-- Where the page's room is reached. -/
def socketPath (u : PageUrl) : String :=
  if u.isRoot then "/ws" else u.text ++ "/ws"

def hex (u : PageUrl) : String :=
  hexOfText u.text

def compareSegments : List String → List String → Ordering
  | [], [] => .eq
  | [], _ :: _ => .lt
  | _ :: _, [] => .gt
  | a :: as, b :: bs =>
    if textBefore a b then .lt else if textBefore b a then .gt else compareSegments as bs

/-- The order of addresses, segment by segment. -/
def compare (u v : PageUrl) : Ordering :=
  compareSegments u.segments v.segments

end PageUrl

end LivePages
