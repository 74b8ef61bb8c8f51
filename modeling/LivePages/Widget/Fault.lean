import LivePages.Page.Url
import LivePages.Widget.Kind

namespace LivePages

inductive Fault where
  | missingAttribute (name : String)
  | invalidName (name : String)
  | invalidAttribute (name value : String)
  | duplicateName (name : String)
  | nested (outer : WidgetKind)
  deriving DecidableEq

structure WidgetError where
  kind : WidgetKind
  page : PageUrl
  position : Nat
  fault : Fault
  deriving DecidableEq

def Fault.message : Fault → String
  | missingAttribute name => "missing required attribute \x60" ++ name ++ "\x60"
  | invalidName name =>
    "invalid widget name \x60" ++ name ++
      "\x60 (only lowercase letters, digits and \x60-\x60 are allowed)"
  | invalidAttribute name value =>
    "attribute \x60" ++ name ++ "\x60 has invalid value \x60" ++ value ++ "\x60"
  | duplicateName name => "widget name \x60" ++ name ++ "\x60 is already used on this page"
  | nested outer => "widget markup cannot be placed inside <" ++ outer.tag ++ ">"

def WidgetError.message (e : WidgetError) : String :=
  "<" ++ e.kind.tag ++ "> #" ++ toString e.position ++ " on page " ++ e.page.text ++ ": " ++
    e.fault.message

end LivePages
