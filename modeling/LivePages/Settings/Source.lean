import LivePages.Settings.Scalar

namespace LivePages

def isSpace (c : Char) : Bool :=
  c == ' ' || c == '\t'

def dropSpaces (cs : List Char) : List Char :=
  cs.dropWhile isSpace

/-- A comment goes up to the end of its line; other characters stay as they are. -/
def dropComment : List Char → List Char
  | '#' :: rest => rest.dropWhile isPlainChar
  | cs => cs

/-- What follows the end of a line, behind blanks and a comment. -/
def endLine (cs : List Char) : Option (List Char) :=
  match dropComment (dropSpaces cs) with
  | [] => some []
  | '\n' :: rest => some rest
  | '\r' :: '\n' :: rest => some rest
  | _ => none

/-- Blanks, comments and line breaks between the items of a list. -/
def dropLines : Nat → List Char → List Char
  | 0, cs => cs
  | bound + 1, cs =>
    match dropSpaces cs with
    | [] => []
    | '#' :: rest => dropLines bound (rest.dropWhile isPlainChar)
    | '\n' :: rest => dropLines bound rest
    | '\r' :: '\n' :: rest => dropLines bound rest
    | cs => cs

def isKeyChar (c : Char) : Bool :=
  ('a' ≤ c && c ≤ 'z') || ('A' ≤ c && c ≤ 'Z') || isDecimalDigit c || c == '-' || c == '_'

/-- One part of a key: bare, or a quoted text on one line. -/
def readKeyPart : List Char → Option (String × List Char)
  | '"' :: rest => textRead (readQuoted rest)
  | '\'' :: rest => textRead (readLiteral rest)
  | cs =>
    let part := cs.takeWhile isKeyChar
    if part.isEmpty then none else some (String.ofList part, cs.dropWhile isKeyChar)

/-- A key: its parts stand between points. -/
def readKey : Nat → List Char → Option (List String × List Char)
  | 0, _ => none
  | bound + 1, cs => do
    let (part, rest) ← readKeyPart (dropSpaces cs)
    match dropSpaces rest with
    | '.' :: rest => do
      let (parts, rest) ← readKey bound rest
      some (part :: parts, rest)
    | rest => some ([part], rest)

def expect (c : Char) : List Char → Option (List Char)
  | [] => none
  | first :: rest => if first = c then some rest else none

def isWordChar (c : Char) : Bool :=
  isKeyChar c || c == '+' || c == '.'

mutual

def readValue : Nat → List Char → Option (SettingValue × List Char)
  | 0, _ => none
  | bound + 1, cs =>
    match cs with
    | '[' :: rest => do
      let (items, rest) ← readItems bound rest
      some (.list items, rest)
    | '{' :: rest => do
      let (entries, rest) ← readEntries bound [] (dropSpaces rest)
      some (.table .braces entries, rest)
    | '"' :: _ => (readText cs).map fun (s, rest) => (.text s, rest)
    | '\'' :: _ => (readText cs).map fun (s, rest) => (.text s, rest)
    | _ => (readWord? (cs.takeWhile isWordChar)).map (·, cs.dropWhile isWordChar)

/-- The items of a list up to its bracket; a comma may follow the last one. -/
def readItems : Nat → List Char → Option (List SettingValue × List Char)
  | 0, _ => none
  | bound + 1, cs =>
    match dropLines cs.length cs with
    | ']' :: rest => some ([], rest)
    | cs => do
      let (item, rest) ← readValue bound cs
      match dropLines rest.length rest with
      | ',' :: rest => do
        let (items, rest) ← readItems bound rest
        some (item :: items, rest)
      | ']' :: rest => some ([item], rest)
      | _ => none

/-- The entries of a table up to its brace, all on one line and without a comma at the end. -/
def readEntries : Nat → SettingEntries → List Char → Option (SettingEntries × List Char)
  | 0, _, _ => none
  | bound + 1, entries, cs =>
    match entries, cs with
    | [], '}' :: rest => some ([], rest)
    | entries, cs => do
      let (key, rest) ← readKey cs.length cs
      let rest ← expect '=' rest
      let (value, rest) ← readValue bound (dropSpaces rest)
      let entries ← entries.assign value key
      match dropSpaces rest with
      | ',' :: rest => readEntries bound entries rest
      | '}' :: rest => some (entries, rest)
      | _ => none

end

structure SettingsFile where
  entries : SettingEntries
  opened : List String

namespace SettingsFile

/-- A line that opens a table. -/
def readHeader (file : SettingsFile) (cs : List Char) (closing : List Char)
    (openAt : List String → String → SettingEntries → Option SettingEntries) :
    Option (SettingsFile × List Char) := do
  let (path, rest) ← readKey cs.length cs
  let rest ← closing.foldlM (fun rest c => expect c rest) rest
  let rest ← endLine rest
  let key ← path.getLast?
  let entries ← openAt path.dropLast key file.entries
  some (⟨entries, path⟩, rest)

/-- A line that gives a value to a key. -/
def readAssignment (file : SettingsFile) (cs : List Char) : Option (SettingsFile × List Char) := do
  let (key, rest) ← readKey cs.length cs
  let rest ← expect '=' rest
  let (value, rest) ← readValue rest.length (dropSpaces rest)
  let rest ← endLine rest
  let entries ← file.entries.within (fun inner => inner.assign value key) file.opened
  some ({ file with entries }, rest)

def readLine (file : SettingsFile) (cs : List Char) : Option (SettingsFile × List Char) :=
  match endLine cs with
  | some rest => some (file, rest)
  | none =>
    match dropSpaces cs with
    | '[' :: '[' :: rest => file.readHeader rest [']', ']'] SettingEntries.openNextTable
    | '[' :: rest => file.readHeader rest [']'] SettingEntries.openTable
    | cs => file.readAssignment cs

def readLines : Nat → SettingsFile → List Char → Option SettingEntries
  | _, file, [] => some file.entries
  | 0, _, _ => none
  | bound + 1, file, cs => do
    let (file, rest) ← file.readLine cs
    readLines bound file rest

end SettingsFile

/-- The entries of a settings file; a byte order mark may stand before the first line. -/
def readSettingEntries (text : String) : Option SettingEntries :=
  let cs := match text.toList with
    | '\ufeff' :: rest => rest
    | cs => cs
  SettingsFile.readLines (cs.length + 1) ⟨[], []⟩ cs

end LivePages
