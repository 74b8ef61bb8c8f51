import LivePages.Number.Binary64

namespace LivePages

/-- A value in a JSON text. Some well-formed values stand for nothing: a number beyond all others,
or a text with half a character. They do no harm where nobody reads them. -/
inductive JsonValue where
  | null
  | boolean (value : Bool)
  | natural (value : Nat)
  | number (value : Binary64)
  | text (value : String)
  | list (items : List JsonValue)
  | record (fields : List (String × JsonValue))
  | unreadable

namespace JsonValue

def texts (items : List String) : JsonValue :=
  list (items.map text)

def boolean? : JsonValue → Option Bool
  | boolean value => some value
  | _ => none

def text? : JsonValue → Option String
  | text value => some value
  | _ => none

/-- A natural number that does not exceed a bound. -/
def natural? (greatest : Nat) : JsonValue → Option Nat
  | natural n => if n ≤ greatest then some n else none
  | _ => none

def number? : JsonValue → Option Binary64
  | natural n => some (.ofNat n)
  | number x => some x
  | _ => none

def list? : JsonValue → Option (List JsonValue)
  | list items => some items
  | _ => none

def texts? (v : JsonValue) : Option (List String) :=
  v.list?.bind fun items => items.mapM text?

/-- The fields of a record under arbitrary texts. -/
def record? : JsonValue → Option (List (String × JsonValue))
  | record fields => some fields
  | _ => none

/-- The one value under a name; a second one is a mistake. -/
def only? (name : String) (fields : List (String × JsonValue)) : Option (Option JsonValue) :=
  match fields.filter fun field => field.1 == name with
  | [] => some none
  | [field] => some (some field.2)
  | _ => none

/-- The values under given names, in the order of the names. A list gives all of them in that
order; other names are of no interest. -/
def fields? (names : List String) : JsonValue → Option (List (Option JsonValue))
  | list items => if items.length = names.length then some (items.map some) else none
  | record fields => names.mapM (only? · fields)
  | _ => none

/-- One of several names, alone or as the only field of a record. -/
def name? : JsonValue → Option String
  | text name => some name
  | record [(name, null)] => some name
  | _ => none

end JsonValue

end LivePages
