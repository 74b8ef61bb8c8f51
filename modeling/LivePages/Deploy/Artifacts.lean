import LivePages.Deploy.Compose

namespace LivePages

def proxyFileName : String := "interactive-widgets-nginx.conf"

def imageFileName : String := "Dockerfile"

def composeFileName : String := "docker-compose.yaml"

/-- The directory with the files that visitors see. -/
def staticDirectory : String := "static"

def imageLines : List String :=
  ["FROM nginx",
    "RUN rm /etc/nginx/conf.d/default.conf /usr/share/nginx/html/*",
    "COPY " ++ proxyFileName ++ " /etc/nginx/conf.d/",
    "COPY " ++ staticDirectory ++ "/ /usr/share/nginx/html/"]

structure Artifacts where
  /-- A site without rooms has no plan. -/
  plan : Option String
  proxy : String
  image : String
  compose : String
  deriving DecidableEq

def ExecutionPlan.artifacts (p : ExecutionPlan) (s : Settings) : Artifacts where
  plan := if p.hasRooms then some p.text else none
  proxy := proxyText p s
  image := String.join (imageLines.map (· ++ "\n"))
  compose := composeText p s

end LivePages
