import LivePages.Dom.Template
import LivePages.Text.Hex

namespace LivePages

def isPlainScriptChar (c : Char) : Bool :=
  ('0' ≤ c && c ≤ '9') || ('a' ≤ c && c ≤ 'z') || ('A' ≤ c && c ≤ 'Z') || c == '.' || c == '-'

def escapeScriptChar (c : Char) : String :=
  if isPlainScriptChar c then c.toString else "\\u\x7b" ++ hexOfNat c.toNat ++ "\x7d"

/-- A text as it can stand between the quotes of a script's string. -/
def escapeScript (text : String) : String :=
  String.join (text.toList.map escapeScriptChar)

inductive ScriptValue where
  | string (value : String)
  | boolean (value : Bool)
  | null
  deriving DecidableEq

namespace ScriptValue

def ofOption : Option String → ScriptValue
  | some value => string value
  | none => null

def write : ScriptValue → String
  | string value => "\"" ++ escapeScript value ++ "\""
  | boolean true => "true"
  | boolean false => "false"
  | null => "null"

end ScriptValue

/-- The script that makes a widget in the browser and joins it to the room. -/
structure Instantiation where
  className : String
  elementId : String
  arguments : List ScriptValue
  channel : String
  sendsMessages : Bool
  tracksConnection : Bool
  deriving DecidableEq

namespace Instantiation

def constructorLines (i : Instantiation) : List String :=
  ["    roomConnection.addWidget();",
    "    const widget = new " ++ i.className ++ "(",
    "        document.getElementById(\"" ++ i.elementId ++ "\"),"] ++
  i.arguments.map (fun a => "        " ++ a.write ++ ",") ++
  ["    );"]

def readyLines : List String :=
  ["    widget.addEventListener(\"ready\", function _listener() \x7b",
    "        roomConnection.markWidgetReady();",
    "        widget.removeEventListener(\"ready\", _listener);",
    "    \x7d);"]

def sendLines (i : Instantiation) : List String :=
  if i.sendsMessages then
    ["    widget.addEventListener(\"message\", event => \x7b",
      "        roomConnection.sendMessage(\"" ++ i.channel ++ "\", event.detail);",
      "    \x7d);"]
  else []

def connectionLines (i : Instantiation) : List String :=
  if i.tracksConnection then
    ["    roomConnection.addEventListener(\"connect\", event => \x7b",
      "        widget.handleOpen();",
      "    \x7d);",
      "    roomConnection.addEventListener(\"disconnect\", event => \x7b",
      "        widget.handleClose();",
      "    \x7d);"]
  else []

def receiveLines (i : Instantiation) : List String :=
  ["    roomConnection.addEventListener(\"" ++ i.channel ++ "\", event => \x7b",
    "        widget.handleMessage(event.detail);",
    "    \x7d);",
    "    widget.start();"]

def lines (i : Instantiation) : List String :=
  ["", "\x7b"] ++ i.constructorLines ++ readyLines ++ i.sendLines ++ i.connectionLines ++
    i.receiveLines ++ ["\x7d"]

def write (i : Instantiation) : String :=
  String.join (i.lines.map (· ++ "\n"))

def template (i : Instantiation) : Template :=
  .inlineScript i.write

end Instantiation

end LivePages
