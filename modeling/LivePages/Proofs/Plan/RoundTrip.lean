import LivePages.Plan.Text
import LivePages.Proofs.Json.RoundTrip
import LivePages.Proofs.Text.Map

namespace LivePages

theorem mapM_map_eq_some {α β : Type} {f : β → Option α} {g : α → β} {l : List α}
    (h : ∀ a ∈ l, f (g a) = some a) : (l.map g).mapM f = some l := by
  induction l with
  | nil => rfl
  | cons a l ih =>
    rw [List.forall_mem_cons] at h
    rw [List.map_cons, List.mapM_cons, h.1, ih h.2]
    rfl

theorem JsonValue.texts?_texts (items : List String) : (texts items).texts? = some items :=
  mapM_map_eq_some fun _ _ => rfl

/-- A map is read from its fields where each of its values is. -/
theorem TextMap.map?_toJson {α : Type} {write : α → JsonValue} {read : JsonValue → Option α}
    {m : TextMap α}
    (h : ∀ name value, m.lookup name = some value → read (write value) = some value) :
    (m.toJson write).map? read = some m := by
  have each : (m.entries.map fun entry => (entry.1, write entry.2)).mapM
      (fun field => (read field.2).map (field.1, ·)) = some m.entries := by
    refine mapM_map_eq_some fun entry hm => ?_
    rw [h entry.1 entry.2 (mem_entries.mp hm), Option.map_some]
  change ((m.entries.map fun entry => (entry.1, write entry.2)).mapM
    (fun field => (read field.2).map (field.1, ·))).bind
      (fun entries => some (ofList entries)) = some m
  rw [each, Option.bind_some, m.ofList_entries]

theorem TextMap.faithful_toJson {α : Type} {write : α → JsonValue} {m : TextMap α}
    (h : ∀ name value, m.lookup name = some value → (write value).Faithful) :
    (m.toJson write).Faithful := by
  refine .record fun field hm => ?_
  obtain ⟨entry, he, rfl⟩ := List.mem_map.mp hm
  exact h entry.1 entry.2 (mem_entries.mp he)

namespace Executor

/-- The limits have the widths of the plan's fields, and the processors' reads back. -/
structure Storable (e : Executor) : Prop where
  memory : e.memoryLimit ≤ greatestCount
  cpu : e.cpuLimit.ReadsBack
  pids : e.pidsLimit ≤ greatestCount

variable {e : Executor}

theorem Storable.faithful (h : e.Storable) : e.toJson.Faithful := by
  have command : (JsonValue.texts e.command).Faithful := by
    refine .list fun item hm => ?_
    obtain ⟨text, -, rfl⟩ := List.mem_map.mp hm
    exact .text text
  refine .record ?_
  simp only [List.forall_mem_append, List.forall_mem_cons]
  refine ⟨⟨⟨.text _, .text _, .text _, command, .boolean _, List.forall_mem_nil _⟩, ?_⟩,
    .natural h.memory, .number h.cpu, .natural h.pids, List.forall_mem_nil _⟩
  split
  next directory _ => exact List.forall_mem_singleton.mpr (.text directory)
  next => exact List.forall_mem_nil _

theorem fields?_toJson (e : Executor) : e.toJson.fields? fieldNames =
    some [some (.text e.lifecycle.name), some (.text e.loggerName), some (.text e.image),
      some (.texts e.command), some (.boolean e.enableTty), e.workingDirectory.map .text,
      some (.natural e.memoryLimit), some (.number e.cpuLimit), some (.natural e.pidsLimit)] := by
  obtain ⟨lifecycle, logger, image, command, tty, directory, memory, cpu, pids⟩ := e
  cases directory <;> rfl

/-- A missing directory is told apart from an empty one. -/
theorem readDirectory_map (directory : Option String) :
    readDirectory (directory.map .text) = some directory := by
  cases directory <;> rfl

theorem Storable.ofJson?_toJson (h : e.Storable) : ofJson? e.toJson = some e := by
  have lifecycle : (JsonValue.text e.lifecycle.name).name? = some e.lifecycle.name := rfl
  have count {n : Nat} (hn : n ≤ greatestCount) :
      (JsonValue.natural n).natural? greatestCount = some n := if_pos hn
  have cpu : (JsonValue.number e.cpuLimit).number? = some e.cpuLimit := rfl
  simp only [ofJson?, fields?_toJson, Option.bind_eq_bind, Option.bind_some, lifecycle,
    Lifecycle.ofName?_name, JsonValue.text?, JsonValue.texts?_texts, JsonValue.boolean?,
    readDirectory_map, count h.memory, cpu, count h.pids, Option.pure_def]

end Executor

namespace Room

variable {r : Room}

/-- All processes of the room can be stored. -/
def Storable (r : Room) : Prop :=
  ∀ name e, r.executors.lookup name = some e → e.Storable

theorem Storable.faithful (h : r.Storable) : r.toJson.Faithful := by
  refine .record ?_
  simp only [List.forall_mem_cons]
  exact ⟨.text _, .text _, .text _, .text _,
    TextMap.faithful_toJson fun name e he => (h name e he).faithful, List.forall_mem_nil _⟩

theorem Storable.ofJson?_toJson (h : r.Storable) : ofJson? r.toJson = some r := by
  have fields : r.toJson.fields? fieldNames =
      some [some (.text r.contextType), some (.text r.pageLogger), some (.text r.connectionLogger),
        some (.text r.roomLogger), some (r.executors.toJson Executor.toJson)] := rfl
  have executors : (r.executors.toJson Executor.toJson).map? Executor.ofJson? = some r.executors :=
    TextMap.map?_toJson fun name e he => (h name e he).ofJson?_toJson
  simp only [ofJson?, fields, Option.bind_eq_bind, Option.bind_some, JsonValue.text?, executors,
    Option.pure_def]

end Room

namespace ExecutionPlan

variable {p : ExecutionPlan}

/-- The port has the width of the plan's field, and all rooms can be stored. -/
structure Storable (p : ExecutionPlan) : Prop where
  port : p.port ≤ 65535
  rooms : ∀ url room, p.room? url = some room → room.Storable

theorem Storable.faithful (h : p.Storable) : p.toJson.Faithful := by
  have context : (JsonValue.record [("type", .text p.contextType),
      ("logger_name", .text p.contextLogger)]).Faithful := by
    refine .record ?_
    simp only [List.forall_mem_cons]
    exact ⟨.text _, .text _, List.forall_mem_nil _⟩
  have port : p.port ≤ greatestCount := h.port.trans (by decide)
  refine .record ?_
  simp only [List.forall_mem_cons]
  exact ⟨.text _, .natural port, .text _, .text _, context,
    TextMap.faithful_toJson fun url room hr => (h.rooms url room hr).faithful,
    List.forall_mem_nil _⟩

theorem Storable.ofJson?_toJson (h : p.Storable) : ofJson? p.toJson = some p := by
  have fields : p.toJson.fields? fieldNames =
      some [some (.text p.host), some (.natural p.port), some (.text p.loggerName),
        some (.text p.loggingLevel.name),
        some (.record [("type", .text p.contextType), ("logger_name", .text p.contextLogger)]),
        some (p.rooms.toJson Room.toJson)] := rfl
  have context : (JsonValue.record [("type", .text p.contextType),
      ("logger_name", .text p.contextLogger)]).fields? contextFieldNames =
      some [some (.text p.contextType), some (.text p.contextLogger)] := rfl
  have level : (JsonValue.text p.loggingLevel.name).name? = some p.loggingLevel.name := rfl
  have port : (JsonValue.natural p.port).natural? 65535 = some p.port := if_pos h.port
  have rooms : (p.rooms.toJson Room.toJson).map? Room.ofJson? = some p.rooms :=
    TextMap.map?_toJson fun url room hr => (h.rooms url room hr).ofJson?_toJson
  simp only [ofJson?, fields, context, Option.bind_eq_bind, Option.bind_some, JsonValue.text?,
    level, LogLevel.ofName?_name, port, rooms, Option.pure_def]

/-- A plan is read from its text. -/
theorem Storable.ofText?_text (h : p.Storable) : ofText? p.text = some p := by
  rw [ofText?, text, h.faithful.ofText?_pretty, Option.bind_some, h.ofJson?_toJson]

end ExecutionPlan

end LivePages
