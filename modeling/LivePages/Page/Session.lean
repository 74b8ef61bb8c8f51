import LivePages.Dom.Template
import LivePages.Page.Url
import LivePages.Text.Blank

namespace LivePages

/-- The comment that shows where an author wants the scripts of a page. -/
def isMarkerComment (content : String) : Bool :=
  trimBlank content == "interactive-widgets"

def roomConnectionAsset : String := "RoomConnection.js"

/-- The lines of the script that gives the visitor's room a name. -/
def roomNameLines : List String :=
  ["",
    "const currentUrl = new URL(window.location);",
    "const currentUrlSearchParams = new URLSearchParams(currentUrl.search);",
    "const currentRoomName = currentUrlSearchParams.get(\"roomName\");",
    "if (currentRoomName === null || !currentRoomName.match(new RegExp(/^[0-9A-F]\x7b8\x7d-[0-9A-F]\x7b4\x7d-4[0-9A-F]\x7b3\x7d-[89AB][0-9A-F]\x7b3\x7d-[0-9A-F]\x7b12\x7d$/i))) \x7b",
    "    const getRandomSymbol = (symbol) => \x7b",
    "        let array;",
    "        if (symbol === \"y\") \x7b",
    "            array = [\"8\", \"9\", \"a\", \"b\"];",
    "            return array[Math.floor(Math.random() * array.length)];",
    "        \x7d",
    "        array = new Uint8Array(1);",
    "        window.crypto.getRandomValues(array);",
    "        return (array[0] % 16).toString(16);",
    "    \x7d;",
    "    const newRoomName = \"xxxxxxxx-xxxx-4xxx-yxxx-xxxxxxxxxxxx\".replace(/[xy]/g, getRandomSymbol);",
    "    currentUrlSearchParams.set(\"roomName\", newRoomName);",
    "    currentUrl.search = currentUrlSearchParams;",
    "    window.location.replace(currentUrl.toString());",
    "\x7d",
    ""]

def roomNameScript : Template :=
  .inlineScript ("\n".intercalate roomNameLines)

/-- What every page with widgets has in its head, in this order. -/
def PageUrl.sessionScripts (u : PageUrl) : List Template :=
  [roomNameScript, .scriptSource (u.relative ("/" ++ roomConnectionAsset))]

/-- The first node of the body: it makes the connection that the widgets join. -/
def connectionScript : Template :=
  .inlineScript "const roomConnection = new RoomConnection(currentRoomName);"

/-- The last node of the body: all widgets have joined. -/
def readyScript : Template :=
  .inlineScript "roomConnection.readyForConnecting();"

end LivePages
