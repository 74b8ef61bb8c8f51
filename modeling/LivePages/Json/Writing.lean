import LivePages.Json.Value
import LivePages.Number.Notation
import LivePages.Text.Hex

namespace LivePages

/-- A character within quotes. Only quotes, backslashes and control characters are escaped. -/
def escapeJsonChar (c : Char) : List Char :=
  match c with
  | '"' => ['\\', '"']
  | '\\' => ['\\', '\\']
  | '\x08' => ['\\', 'b']
  | '\t' => ['\\', 't']
  | '\n' => ['\\', 'n']
  | '\x0c' => ['\\', 'f']
  | '\r' => ['\\', 'r']
  | c =>
    if c < ' ' then ['\\', 'u', '0', '0', hexDigit (c.toNat / 16), hexDigit (c.toNat % 16)]
    else [c]

def quoteJson (text : String) : String :=
  String.ofList ('"' :: text.toList.flatMap escapeJsonChar ++ ['"'])

namespace JsonValue

mutual

/-- The text of a value on one line. -/
def compact : JsonValue → String
  | null => "null"
  | boolean value => if value then "true" else "false"
  | natural value => toString value
  | number value => value.json
  | text value => quoteJson value
  | list items => "[" ++ ",".intercalate (compactItems items) ++ "]"
  | record fields => "\x7b" ++ ",".intercalate (compactFields fields) ++ "\x7d"
  | unreadable => "null"

def compactItems : List JsonValue → List String
  | [] => []
  | item :: items => item.compact :: compactItems items

def compactFields : List (String × JsonValue) → List String
  | [] => []
  | (name, value) :: fields => (quoteJson name ++ ":" ++ value.compact) :: compactFields fields

end

/-- Items between brackets, each on a line of its own. -/
def bracket (opening closing : String) (depth : Nat) (items : List String) : String :=
  if items.isEmpty then opening ++ closing
  else
    let line (n : Nat) : String := "\n" ++ String.ofList (List.replicate (2 * n) ' ')
    opening ++ line (depth + 1) ++ ("," ++ line (depth + 1)).intercalate items ++ line depth ++
      closing

mutual

/-- The text of a value on many lines, two blanks for each depth. -/
def indented (depth : Nat) : JsonValue → String
  | list items => bracket "[" "]" depth (indentedItems (depth + 1) items)
  | record fields => bracket "\x7b" "\x7d" depth (indentedFields (depth + 1) fields)
  | null => compact null
  | boolean value => compact (boolean value)
  | natural value => compact (natural value)
  | number value => compact (number value)
  | text value => compact (text value)
  | unreadable => compact unreadable

def indentedItems (depth : Nat) : List JsonValue → List String
  | [] => []
  | item :: items => item.indented depth :: indentedItems depth items

def indentedFields (depth : Nat) : List (String × JsonValue) → List String
  | [] => []
  | (name, value) :: fields =>
    (quoteJson name ++ ": " ++ value.indented depth) :: indentedFields depth fields

end

def pretty (v : JsonValue) : String :=
  v.indented 0

end JsonValue

end LivePages
