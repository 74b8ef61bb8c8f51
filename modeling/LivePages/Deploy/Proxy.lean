import LivePages.Page.Url
import LivePages.Plan.Basic

namespace LivePages

/-- Where the server of the pages finds its certificate, if there is one. -/
def certificateMount : String := "/tmp/nginx.crt"

def certificateKeyMount : String := "/tmp/nginx.key"

def backendLines : List String :=
  ["upstream backend \x7b", "    server interactive-widgets-backend;", "\x7d", ""]

/-- The directives that pass a room's connection on. -/
def socketLines (path : String) : List String :=
  ["    location = " ++ path ++ " \x7b",
    "        proxy_pass http://backend" ++ path ++ ";",
    "        proxy_http_version 1.1;",
    "        proxy_set_header Upgrade $http_upgrade;",
    "        proxy_set_header Connection \"Upgrade\";",
    "        proxy_set_header Host $host;",
    "    \x7d"]

def certificateLines : List String :=
  ["    ssl_certificate " ++ certificateMount ++ ";",
    "    ssl_certificate_key " ++ certificateKeyMount ++ ";"]

/-- One server: it answers on a port, sends the files of the site and connects to the rooms. -/
def serverLines (port : String) (secure : Bool) (s : Settings) (sockets : List String) :
    List String :=
  ["server \x7b",
    "    listen       " ++ port ++ ";",
    "    server_name  " ++ s.serverName ++ ";"] ++
  (if secure then certificateLines else []) ++
  ["    location / \x7b",
    "        root /usr/share/nginx/html;",
    "        index index.html index.htm;",
    "    \x7d"] ++
  sockets.flatMap socketLines ++
  ["\x7d"]

def ExecutionPlan.sockets (p : ExecutionPlan) : List String :=
  p.rooms.keys.map fun url => (PageUrl.ofText url).socketPath

/-- Without rooms there is nothing to pass on, and without a certificate only one server. -/
def proxyLines (p : ExecutionPlan) (s : Settings) : List String :=
  (if p.hasRooms then backendLines else []) ++
  serverLines "80" false s p.sockets ++
  (if s.certificate?.isSome then "" :: serverLines "443 ssl" true s p.sockets else [])

def proxyText (p : ExecutionPlan) (s : Settings) : String :=
  String.join ((proxyLines p s).map (· ++ "\n"))

end LivePages
