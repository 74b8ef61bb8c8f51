import LivePages.Json.Reading
import LivePages.Json.Writing
import LivePages.Plan.Basic

namespace LivePages

/-- The values of a map whose keys are arbitrary; of values under one key the last counts. -/
def JsonValue.map? {α : Type} (read : JsonValue → Option α) (v : JsonValue) :
    Option (TextMap α) := do
  let fields ← v.record?
  let entries ← fields.mapM fun (name, value) => (read value).map (name, ·)
  return .ofList entries

def TextMap.toJson {α : Type} (write : α → JsonValue) (m : TextMap α) : JsonValue :=
  .record (m.entries.map fun (name, value) => (name, write value))

namespace Executor

def fieldNames : List String :=
  ["type", "logger_name", "image", "command", "enable_tty", "working_directory",
    "memory_limit_bytes", "cpu_limit", "pids_limit"]

def toJson (e : Executor) : JsonValue :=
  .record
    ([("type", .text e.lifecycle.name), ("logger_name", .text e.loggerName),
      ("image", .text e.image), ("command", .texts e.command),
      ("enable_tty", .boolean e.enableTty)] ++
    (match e.workingDirectory with
      | some directory => [("working_directory", .text directory)]
      | none => []) ++
    [("memory_limit_bytes", .natural e.memoryLimit), ("cpu_limit", .number e.cpuLimit),
      ("pids_limit", .natural e.pidsLimit)])

/-- A working directory may be missing, or be given as nothing. -/
def readDirectory : Option JsonValue → Option (Option String)
  | none => some none
  | some .null => some none
  | some v => v.text?.map some

def ofJson? (v : JsonValue) : Option Executor := do
  match ← v.fields? fieldNames with
  | [some type, some logger, some image, some command, some tty, directory, some memory, some cpu,
      some pids] =>
    return {
      lifecycle := ← type.name?.bind Lifecycle.ofName?
      loggerName := ← logger.text?
      image := ← image.text?
      command := ← command.texts?
      enableTty := ← tty.boolean?
      workingDirectory := ← readDirectory directory
      memoryLimit := ← memory.natural? greatestCount
      cpuLimit := ← cpu.number?
      pidsLimit := ← pids.natural? greatestCount }
  | _ => none

end Executor

namespace Room

def fieldNames : List String :=
  ["type", "logger_name_page", "logger_name_room_connection", "logger_name_room", "executors"]

def toJson (r : Room) : JsonValue :=
  .record [("type", .text r.contextType), ("logger_name_page", .text r.pageLogger),
    ("logger_name_room_connection", .text r.connectionLogger),
    ("logger_name_room", .text r.roomLogger), ("executors", r.executors.toJson Executor.toJson)]

def ofJson? (v : JsonValue) : Option Room := do
  match ← v.fields? fieldNames with
  | [some type, some page, some connection, some room, some executors] =>
    return {
      contextType := ← type.text?
      pageLogger := ← page.text?
      connectionLogger := ← connection.text?
      roomLogger := ← room.text?
      executors := ← executors.map? Executor.ofJson? }
  | _ => none

end Room

namespace ExecutionPlan

def fileName : String :=
  "interactive-widgets-backend.json"

def fieldNames : List String :=
  ["host", "port", "logger_name", "logging_level", "context", "pages"]

def contextFieldNames : List String :=
  ["type", "logger_name"]

def toJson (p : ExecutionPlan) : JsonValue :=
  .record [("host", .text p.host), ("port", .natural p.port), ("logger_name", .text p.loggerName),
    ("logging_level", .text p.loggingLevel.name),
    ("context", .record [("type", .text p.contextType), ("logger_name", .text p.contextLogger)]),
    ("pages", p.rooms.toJson Room.toJson)]

def ofJson? (v : JsonValue) : Option ExecutionPlan := do
  match ← v.fields? fieldNames with
  | [some host, some port, some logger, some level, some context, some pages] =>
    match ← context.fields? contextFieldNames with
    | [some type, some contextLogger] =>
      return {
        host := ← host.text?
        port := ← port.natural? 65535
        loggerName := ← logger.text?
        loggingLevel := ← level.name?.bind LogLevel.ofName?
        contextType := ← type.text?
        contextLogger := ← contextLogger.text?
        rooms := ← pages.map? Room.ofJson? }
    | _ => none
  | _ => none

def text (p : ExecutionPlan) : String :=
  p.toJson.pretty

def ofText? (text : String) : Option ExecutionPlan :=
  (JsonValue.ofText? text).bind ofJson?

end ExecutionPlan

end LivePages
