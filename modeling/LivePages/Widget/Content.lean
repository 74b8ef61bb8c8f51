import LivePages.Dom.Template
import LivePages.Plan.Basic
import LivePages.Widget.Kind
import LivePages.Widget.Script
import LivePages.Page.Url

namespace LivePages

/-- What a widget shows, as far as its kind has a use for it. -/
inductive WidgetContent where
  | button (command label : String)
  | imageViewer (file mime : String)
  | terminal (command : String) (workingDirectory : Option String)
  | textEditor (file : String) (mode : Option String)
  | textViewer (file : String) (mode : Option String)
  | prologue (command : String) (hidden : Bool)
  | epilogue (command : String) (hidden : Bool)
  deriving DecidableEq

def widgetAsset : String := "Widget.js"

namespace WidgetContent

def kind : WidgetContent → WidgetKind
  | button _ _ => .button
  | imageViewer _ _ => .imageViewer
  | terminal _ _ => .terminal
  | textEditor _ _ => .textEditor
  | textViewer _ _ => .textViewer
  | prologue _ _ => .prologue
  | epilogue _ _ => .epilogue

def lifecycle : WidgetContent → Lifecycle
  | button _ _ => .once
  | imageViewer _ _ => .always
  | terminal _ _ => .always
  | textEditor _ _ => .always
  | textViewer _ _ => .always
  | prologue _ _ => .prologue
  | epilogue _ _ => .epilogue

/-- Only a terminal needs a process that takes its input for a screen. -/
def enableTty : WidgetContent → Bool
  | terminal _ _ => true
  | _ => false

/-- The class of the widget in the browser. -/
def className : WidgetContent → String
  | button _ _ => "ButtonWidget"
  | imageViewer _ _ => "ImageViewerWidget"
  | terminal _ _ => "TerminalWidget"
  | textEditor _ _ => "TextEditorWidget"
  | textViewer _ _ => "TextViewerWidget"
  | prologue _ _ => "PrologueWidget"
  | epilogue _ _ => "EpilogueWidget"

/-- The directories of libraries that the class needs. -/
def libraryAssets : WidgetContent → List String
  | terminal _ _ =>
    ["node_modules/xterm/lib", "node_modules/xterm-addon-fit/lib", "node_modules/xterm/css"]
  | textEditor _ _ =>
    ["node_modules/codemirror/addon", "node_modules/codemirror/keymap",
      "node_modules/codemirror/lib", "node_modules/codemirror/mode",
      "node_modules/codemirror/theme"]
  | _ => []

def assets (c : WidgetContent) : List String :=
  [c.className ++ ".js", widgetAsset] ++ c.libraryAssets

/-- The elements that load the libraries of the class. -/
def libraryTemplates (page : PageUrl) : WidgetContent → List Template
  | terminal _ _ =>
    [.scriptSource (page.relative "/node_modules/xterm/lib/xterm.js"),
      .scriptSource (page.relative "/node_modules/xterm-addon-fit/lib/xterm-addon-fit.js"),
      .stylesheet (page.relative "/node_modules/xterm/css/xterm.css")]
  | textEditor _ mode =>
    [.scriptSource (page.relative "/node_modules/codemirror/lib/codemirror.js"),
      .stylesheet (page.relative "/node_modules/codemirror/lib/codemirror.css")] ++
    (match mode with
      | some mode => [.scriptSource
          (page.relative ("/node_modules/codemirror/mode/" ++ mode ++ "/" ++ mode ++ ".js"))]
      | none => [])
  | _ => []

/-- What the head of the page needs for the widget, in the order of loading. -/
def headTemplates (c : WidgetContent) (page : PageUrl) : List Template :=
  [.scriptSource (page.relative ("/" ++ widgetAsset)),
    .scriptSource (page.relative ("/" ++ c.className ++ ".js"))] ++ c.libraryTemplates page

/-- What the class is made with, behind the element. -/
def arguments : WidgetContent → List ScriptValue
  | button command label => [.string command, .string label]
  | imageViewer file mime => [.string file, .string mime]
  | terminal command workingDirectory => [.string command, .ofOption workingDirectory]
  | textEditor file mode => [.string file, .ofOption mode]
  | textViewer file mode => [.string file, .ofOption mode]
  | prologue command hidden => [.string command, .boolean hidden]
  | epilogue command hidden => [.string command, .boolean hidden]

def sendsMessages : WidgetContent → Bool
  | button _ _ => true
  | terminal _ _ => true
  | textEditor _ _ => true
  | _ => false

/-- An editor is closed while there is no connection. -/
def tracksConnection : WidgetContent → Bool
  | textEditor _ _ => true
  | _ => false

def isHidden : WidgetContent → Bool
  | prologue _ hidden => hidden
  | epilogue _ hidden => hidden
  | _ => false

end WidgetContent

end LivePages
