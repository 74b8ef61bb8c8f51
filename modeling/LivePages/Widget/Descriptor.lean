import LivePages.Widget.Command
import LivePages.Widget.Content
import LivePages.Widget.Identity
import LivePages.Widget.Limits

namespace LivePages

structure WidgetDescriptor where
  content : WidgetContent
  name : String
  page : PageUrl
  position : Nat
  node : NodeId
  image : String
  command : List String
  workingDirectory : Option String
  limits : ResourceLimits
  deriving DecidableEq

/-- The class of the element that takes the place of a widget's markup. -/
def containerClass : String := "interactive-widgets-container"

namespace WidgetDescriptor

def kind (d : WidgetDescriptor) : WidgetKind :=
  d.content.kind

def elementId (d : WidgetDescriptor) : String :=
  "widget-" ++ d.kind.name ++ "-" ++ d.name

def headTemplates (d : WidgetDescriptor) : List Template :=
  d.content.headTemplates d.page

def instantiation (d : WidgetDescriptor) : Instantiation where
  className := d.content.className
  elementId := d.elementId
  arguments := d.content.arguments
  channel := d.name
  sendsMessages := d.content.sendsMessages
  tracksConnection := d.content.tracksConnection

/-- The element that takes the place of the markup, unless the widget is hidden. -/
def container? (d : WidgetDescriptor) : Option Template :=
  if d.content.isHidden then none
  else some (((Template.ofTag "div").withAttribute "id" d.elementId).withAttribute "class"
    containerClass)

def executor (d : WidgetDescriptor) (s : Settings) : Executor where
  lifecycle := d.content.lifecycle
  loggerName := s.loggerPrefix ++ d.content.lifecycle.loggerSuffix
  image := d.image
  command := d.command
  enableTty := d.content.enableTty
  workingDirectory := d.workingDirectory
  memoryLimit := d.limits.memory
  cpuLimit := d.limits.cpu
  pidsLimit := d.limits.pids

end WidgetDescriptor

namespace WidgetMarkup

/-- The words of the command that the process runs; there is at least one. -/
def splitCommand (m : WidgetMarkup) (command : String) : Except WidgetError (List String) :=
  match commandWords command with
  | some (word :: words) => .ok (word :: words)
  | _ => .error (m.invalid "command" command)

/-- A widget whose process is a command of the author. -/
def runCommand (m : WidgetMarkup) (limits : ResourceLimits) (name image command : String)
    (content : WidgetContent) : Except WidgetError WidgetDescriptor := do
  let words ← m.splitCommand command
  return {
    content, name, image, limits
    page := m.page
    position := m.position
    node := m.node
    command := words
    workingDirectory := m.workingDirectory? }

/-- A widget whose process watches a file. -/
def monitorFile (m : WidgetMarkup) (s : Settings) (limits : ResourceLimits)
    (name file success failure : String) (content : WidgetContent) : WidgetDescriptor where
  content := content
  name := name
  page := m.page
  position := m.position
  node := m.node
  image := s.monitorImage
  command := [s.monitorCommand, file, success, failure]
  workingDirectory := none
  limits := limits

def button (m : WidgetMarkup) (s : Settings) : Except WidgetError WidgetDescriptor := do
  let command ← m.require "command"
  let image ← m.require "image"
  let label ← m.require "label"
  let limits ← m.limits s
  let name ← m.assignName [command, image, label]
  m.runCommand limits name image command (.button command label)

def terminal (m : WidgetMarkup) (s : Settings) : Except WidgetError WidgetDescriptor := do
  let image ← m.require "image"
  let command ← m.require "command"
  let limits ← m.limits s
  let name ← m.assignName [image, command, m.workingDirectory?.getD ""]
  m.runCommand limits name image command (.terminal command m.workingDirectory?)

def stage (m : WidgetMarkup) (s : Settings) (content : String → Bool → WidgetContent) :
    Except WidgetError WidgetDescriptor := do
  let command ← m.require "command"
  let image ← m.require "image"
  let limits ← m.limits s
  let name ← m.assignName [command, image, m.workingDirectory?.getD ""]
  m.runCommand limits name image command (content command (m.hasAttribute "hidden"))

def imageViewer (m : WidgetMarkup) (s : Settings) : Except WidgetError WidgetDescriptor := do
  let file ← m.require "file"
  let mime ← m.require "mime"
  let success ← m.successTimeout s
  let failure ← m.failureTimeout s
  let limits ← m.limits s
  let name ← m.assignName [file, mime, success, failure]
  return m.monitorFile s limits name file success failure (.imageViewer file mime)

def textEditor (m : WidgetMarkup) (s : Settings) : Except WidgetError WidgetDescriptor := do
  let file ← m.require "file"
  let mode := m.attribute? "mode"
  let success ← m.successTimeout s
  let failure ← m.failureTimeout s
  let limits ← m.limits s
  let name ← m.assignName [file, mode.getD "", success, failure]
  return m.monitorFile s limits name file success failure (.textEditor file mode)

def textViewer (m : WidgetMarkup) (s : Settings) : Except WidgetError WidgetDescriptor := do
  let file ← m.require "file"
  let success ← m.successTimeout s
  let failure ← m.failureTimeout s
  let limits ← m.limits s
  let name ← m.assignName [file, success, failure]
  return m.monitorFile s limits name file success failure (.textViewer file (m.attribute? "mode"))

/-- The widget of a markup, if it passes the checks of its kind. -/
def descriptor (m : WidgetMarkup) (s : Settings) : Except WidgetError WidgetDescriptor :=
  match m.kind with
  | .button => m.button s
  | .epilogue => m.stage s .epilogue
  | .imageViewer => m.imageViewer s
  | .prologue => m.stage s .prologue
  | .terminal => m.terminal s
  | .textEditor => m.textEditor s
  | .textViewer => m.textViewer s

end WidgetMarkup

end LivePages
