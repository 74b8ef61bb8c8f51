import LivePages.Number.Binary64

namespace LivePages

/-- How a table came about. A later line may add to a table of some origins only. -/
inductive TableOrigin where
  | header
  | parent
  | dotted
  | braces
  deriving DecidableEq

/-- A value in a settings file. Dates are not among them: no setting is one. -/
inductive SettingValue where
  | text (value : String)
  | integer (value : Int)
  | number (value : Binary64)
  | flag (value : Bool)
  | list (items : List SettingValue)
  | tables (items : List SettingValue)
  | table (origin : TableOrigin) (entries : List (String × SettingValue))

abbrev SettingEntries := List (String × SettingValue)

namespace SettingEntries

/-- Changes what stands under a key; nothing stands there before the first time. -/
def alter (entries : SettingEntries) (key : String)
    (change : Option SettingValue → Option SettingValue) : Option SettingEntries :=
  if entries.any (·.1 == key) then
    entries.mapM fun (k, v) => if k == key then (change (some v)).map (k, ·) else some (k, v)
  else (change none).map fun v => entries ++ [(key, v)]

/-- Adds a value under a dotted key. The tables on its way come from dotted keys only, and the last
part is new. -/
def assign (value : SettingValue) : List String → SettingEntries → Option SettingEntries
  | [], _ => none
  | [key], entries => entries.alter key fun
    | none => some value
    | some _ => none
  | key :: path, entries => entries.alter key fun
    | none => (assign value path []).map (.table .dotted)
    | some (.table .dotted inner) => (assign value path inner).map (.table .dotted)
    | some _ => none

/-- Changes the table under a path of header keys; of several tables it is the last. -/
def within (change : SettingEntries → Option SettingEntries) :
    List String → SettingEntries → Option SettingEntries
  | [], entries => change entries
  | key :: path, entries => entries.alter key fun
    | none => (within change path []).map (.table .parent)
    | some (.table .braces _) => none
    | some (.table origin inner) => (within change path inner).map (.table origin)
    | some (.tables items) =>
      match items.getLast? with
      | some (.table origin inner) =>
        (within change path inner).map fun t => .tables (items.dropLast ++ [.table origin t])
      | _ => none
    | some _ => none

/-- Opens a table; it is new, or so far only the parent of others. -/
def openTable (path : List String) (key : String) (entries : SettingEntries) :
    Option SettingEntries :=
  within (fun inner => inner.alter key fun
    | none => some (.table .header [])
    | some (.table .parent t) => some (.table .header t)
    | some _ => none) path entries

/-- Opens one more table of several under one key. -/
def openNextTable (path : List String) (key : String) (entries : SettingEntries) :
    Option SettingEntries :=
  within (fun inner => inner.alter key fun
    | none => some (.tables [.table .header []])
    | some (.tables items) => some (.tables (items ++ [.table .header []]))
    | some _ => none) path entries

end SettingEntries

end LivePages
