import LivePages.Text.Pieces

namespace LivePages

/-- A piece of a path that leads nowhere else. -/
def isIdle (piece : String) : Bool :=
  piece == "" || piece == "."

def isRooted (path : String) : Bool :=
  path.toList.head? == some '/'

/-- What a path consists of: the root, a dot at its start, and names. Other dots and double slashes
do not count. -/
def pathParts (path : String) : List String :=
  match splitText '/' path with
  | [] => []
  | first :: rest =>
    (if isRooted path then ["/"] else if first == "" then [] else [first]) ++
      rest.filter fun piece => !isIdle piece

/-- A path below another one; a rooted path stands for itself. -/
def joinPath (path rest : String) : String :=
  if isRooted rest then rest
  else if path == "" || path.toList.getLast? == some '/' then path ++ rest
  else path ++ "/" ++ rest

def dropIdle (pieces : List String) : List String :=
  (pieces.reverse.dropWhile isIdle).reverse

/-- The path without its last part, if it has one besides the root. -/
def parentPath? (path : String) : Option String :=
  match splitText '/' path with
  | [] => none
  | first :: rest =>
    match dropIdle rest with
    | [] => if first == "" then none else some ""
    | rest =>
      match dropIdle rest.dropLast with
      | [] => some (if first == "" then "/" else first)
      | rest => some ("/".intercalate (first :: rest))

end LivePages
