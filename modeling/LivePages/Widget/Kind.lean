namespace LivePages

inductive WidgetKind where
  | button
  | epilogue
  | imageViewer
  | prologue
  | terminal
  | textEditor
  | textViewer
  deriving DecidableEq

namespace WidgetKind

def all : List WidgetKind :=
  [button, epilogue, imageViewer, prologue, terminal, textEditor, textViewer]

/-- The kind's name in element ids. -/
def name : WidgetKind → String
  | button => "button"
  | epilogue => "epilogue"
  | imageViewer => "image-viewer"
  | prologue => "prologue"
  | terminal => "terminal"
  | textEditor => "text-editor"
  | textViewer => "text-viewer"

/-- The tag that authors write. -/
def tag (k : WidgetKind) : String :=
  "x-" ++ k.name

def tags : List String :=
  all.map tag

def ofTag? (text : String) : Option WidgetKind :=
  all.find? fun k => k.tag == text

theorem mem_all (k : WidgetKind) : k ∈ all := by
  cases k <;> decide

end WidgetKind

end LivePages
