import LivePages.Deploy.Proxy
import LivePages.Deploy.Scalar
import LivePages.Plan.Text

namespace LivePages

structure Service where
  name : String
  build : Option String
  ports : List String
  volumes : List String
  command : List String

namespace Service

def listLines (name : String) (items : List String) : List String :=
  if items.isEmpty then []
  else ("    " ++ name ++ ":") :: items.map fun item => "    - " ++ writeScalar 6 item

/-- A service has the name of its image. -/
def lines (s : Service) : List String :=
  ["  " ++ s.name ++ ":", "    image: " ++ s.name] ++
    (match s.build with
      | some path => ["    build: " ++ path]
      | none => []) ++
    listLines "ports" s.ports ++ listLines "volumes" s.volumes ++ listLines "command" s.command

end Service

/-- A file or port of the host, and where the container has it. -/
def mapping (host container : String) : String :=
  host ++ ":" ++ container

/-- The server of the rooms, which makes containers of its own. -/
def backendService : Service where
  name := "interactive-widgets-backend"
  build := none
  ports := []
  volumes :=
    [mapping ("./" ++ ExecutionPlan.fileName) ("/usr/src/app/" ++ ExecutionPlan.fileName),
      mapping "/var/run/docker.sock" "/var/run/docker.sock"]
  command := ["interactive-widgets-backend", ExecutionPlan.fileName]

/-- The server of the pages. -/
def frontendService (s : Settings) : Service where
  name := "interactive-widgets-nginx"
  build := some "."
  ports := mapping (toString s.httpPort) "80" ::
    (match s.certificate? with
      | some _ => [mapping (toString s.httpsPort) "443"]
      | none => [])
  volumes :=
    match s.certificate? with
    | some (certificate, key) =>
      [mapping certificate certificateMount, mapping key certificateKeyMount]
    | none => []
  command := []

/-- The containers of a site; the rooms need one only if there are any. -/
def services (p : ExecutionPlan) (s : Settings) : List Service :=
  (if p.hasRooms then [backendService] else []) ++ [frontendService s]

def composeLines (p : ExecutionPlan) (s : Settings) : List String :=
  ["version: '3'", "services:"] ++ (services p s).flatMap Service.lines

def composeText (p : ExecutionPlan) (s : Settings) : String :=
  String.join ((composeLines p s).map (· ++ "\n"))

end LivePages
