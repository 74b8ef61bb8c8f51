import LivePages.Text.Digest
import LivePages.Widget.Markup

namespace LivePages

/-- The text under the digest of a list: hexadecimal forms cannot run into one another. -/
def digestText (inputs : List String) : String :=
  "-".intercalate (inputs.map hexOfText)

def digestName (inputs : List String) : String :=
  hexOfBytes (digest (bytesOf (digestText inputs)))

def isNameChar (c : Char) : Bool :=
  ('0' ≤ c && c ≤ '9') || ('a' ≤ c && c ≤ 'z') || c == '-'

def isNameToken (token : String) : Bool :=
  !token.isEmpty && token.toList.all isNameChar

/-- A chosen name is distinct from the same name on every other page. -/
def chosenName (page : PageUrl) (token : String) : String :=
  page.hex ++ "-" ++ token

/-- What a generated name depends on. -/
def WidgetMarkup.definingTexts (m : WidgetMarkup) (defining : List String) : List String :=
  m.kind.name :: m.page.text :: toString m.position :: defining

/-- The name that ties a widget on a page to its process. -/
def WidgetMarkup.assignName (m : WidgetMarkup) (defining : List String) :
    Except WidgetError String :=
  match m.explicitName? with
  | some token =>
    if isNameToken token then .ok (chosenName m.page token)
    else .error (m.error (.invalidName token))
  | none => .ok (digestName (m.definingTexts defining))

end LivePages
