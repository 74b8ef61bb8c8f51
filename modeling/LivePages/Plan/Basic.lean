import LivePages.Settings.Basic
import LivePages.Text.Map

namespace LivePages

/-- When a process runs: each time a visitor asks for it, always, or first or last in a room. -/
inductive Lifecycle where
  | once
  | always
  | prologue
  | epilogue
  deriving DecidableEq

namespace Lifecycle

def all : List Lifecycle :=
  [once, always, prologue, epilogue]

def name : Lifecycle → String
  | once => "once"
  | always => "always"
  | prologue => "prologue"
  | epilogue => "epilogue"

def ofName? (name : String) : Option Lifecycle :=
  all.find? fun lifecycle => lifecycle.name == name

theorem ofName?_name (lifecycle : Lifecycle) : ofName? lifecycle.name = some lifecycle := by
  cases lifecycle <;> rfl

/-- What the name of a process's logger ends with. -/
def loggerSuffix : Lifecycle → String
  | once => "Once"
  | always => "Always"
  | prologue => "Prologue"
  | epilogue => "Epilogue"

end Lifecycle

structure Executor where
  lifecycle : Lifecycle
  loggerName : String
  image : String
  command : List String
  enableTty : Bool
  workingDirectory : Option String
  memoryLimit : Nat
  cpuLimit : Binary64
  pidsLimit : Nat
  deriving DecidableEq

/-- The processes of a page, under the names of their widgets. -/
structure Room where
  contextType : String
  pageLogger : String
  connectionLogger : String
  roomLogger : String
  executors : TextMap Executor

/-- What the server of the rooms starts from; the rooms are under their pages' addresses. -/
structure ExecutionPlan where
  host : String
  port : Nat
  loggerName : String
  loggingLevel : LogLevel
  contextType : String
  contextLogger : String
  rooms : TextMap Room

/-- A room as the settings describe it. -/
def Room.withExecutors (s : Settings) (executors : TextMap Executor) : Room where
  contextType := s.sandboxContextType
  pageLogger := "Page"
  connectionLogger := "RoomConnection"
  roomLogger := s.loggerPrefix ++ "Room"
  executors := executors

namespace ExecutionPlan

def ofSettings (s : Settings) : ExecutionPlan where
  host := s.transportHost
  port := s.transportPort
  loggerName := "Server"
  loggingLevel := s.loggingLevel
  contextType := s.sandboxContextType
  contextLogger := s.loggerPrefix ++ "Context"
  rooms := .empty

def hasRooms (p : ExecutionPlan) : Bool :=
  !p.rooms.isEmpty

def room? (p : ExecutionPlan) (url : String) : Option Room :=
  p.rooms.lookup url

end ExecutionPlan

end LivePages
