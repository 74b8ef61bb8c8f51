import LivePages.Number.Binary64
import LivePages.Text.LetterCase

namespace LivePages

inductive LogLevel where
  | debug
  | info
  | warning
  | error
  | critical
  deriving DecidableEq

namespace LogLevel

def all : List LogLevel :=
  [debug, info, warning, error, critical]

def name : LogLevel → String
  | debug => "DEBUG"
  | info => "INFO"
  | warning => "WARNING"
  | error => "ERROR"
  | critical => "CRITICAL"

def ofName? (name : String) : Option LogLevel :=
  all.find? fun level => level.name == name

theorem ofName?_name (level : LogLevel) : ofName? level.name = some level := by
  cases level <;> rfl

end LogLevel

/-- What an author decides for a whole site. -/
structure Settings where
  transportHost : String
  transportPort : Nat
  sandboxContextType : String
  loggingLevel : LogLevel
  monitorImage : String
  monitorCommand : String
  successTimeout : Option Binary64
  failureTimeout : Option Binary64
  memoryLimit : Option Nat
  cpuLimit : Option Binary64
  pidsLimit : Option Nat
  serverName : String
  httpPort : Nat
  httpsPort : Nat
  certificatePath : Option String
  certificateKeyPath : Option String
  deriving DecidableEq

namespace Settings

def default : Settings where
  transportHost := "*"
  transportPort := 80
  sandboxContextType := "docker"
  loggingLevel := .debug
  monitorImage := "interactive-widgets-monitor"
  monitorCommand := "interactive-widgets-monitor"
  successTimeout := none
  failureTimeout := none
  memoryLimit := none
  cpuLimit := none
  pidsLimit := none
  serverName := "localhost"
  httpPort := 80
  httpsPort := 443
  certificatePath := none
  certificateKeyPath := none

/-- The certificate and its key, if the author gave both. -/
def certificate? (s : Settings) : Option (String × String) :=
  match s.certificatePath, s.certificateKeyPath with
  | some certificate, some key => some (certificate, key)
  | _, _ => none

def loggerPrefix (s : Settings) : String :=
  capitalized s.sandboxContextType

end Settings

end LivePages
