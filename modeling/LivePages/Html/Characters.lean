namespace LivePages

def isHtmlSpace (c : Char) : Bool :=
  c == ' ' || c == '\n' || c == '\t' || c == '\r' || c == '\x0c'

def isAsciiLetter (c : Char) : Bool :=
  ('a' ≤ c && c ≤ 'z') || ('A' ≤ c && c ≤ 'Z')

def isAsciiAlphanumeric (c : Char) : Bool :=
  isAsciiLetter c || ('0' ≤ c && c ≤ '9')

/-- A NUL is replaced wherever it is not dropped. -/
def replaceNull (c : Char) : Char :=
  if c = '\x00' then '\ufffd' else c

/-- Names of tags and attributes are kept in lower case. -/
def nameChar (c : Char) : Char :=
  replaceNull c.toLower

def skipHtmlSpace (cs : List Char) : List Char :=
  cs.dropWhile isHtmlSpace

/-- The rest after a word given in lower case, the letters of the input in any case. -/
def afterWord? : List Char → List Char → Option (List Char)
  | [], cs => some cs
  | _ :: _, [] => none
  | w :: ws, c :: cs => if c.toLower = w then afterWord? ws cs else none

def afterText? : List Char → List Char → Option (List Char)
  | [], cs => some cs
  | _ :: _, [] => none
  | w :: ws, c :: cs => if c = w then afterText? ws cs else none

/-- Line ends are single line feeds. -/
def normalizeLineEnds : List Char → List Char
  | [] => []
  | '\r' :: '\n' :: rest => '\n' :: normalizeLineEnds rest
  | '\r' :: rest => '\n' :: normalizeLineEnds rest
  | c :: rest => c :: normalizeLineEnds rest

/-- A byte order mark at the start is no part of the text. -/
def dropByteOrderMark : List Char → List Char
  | '\ufeff' :: rest => rest
  | cs => cs

end LivePages
