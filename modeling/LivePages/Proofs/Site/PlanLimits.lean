import LivePages.Proofs.Json.NumberTexts
import LivePages.Proofs.Site.Records
import LivePages.Proofs.Widget.Limits
import LivePages.Plan.Text
import LivePages.Settings.OfText

namespace LivePages

namespace JsonValue

/-- The value under a name. -/
def field? (v : JsonValue) (name : String) : Option JsonValue :=
  v.record?.bind fun fields => fields.lookup name

/-- The value that is reached through names, each of them in the record under the one before. -/
def at? (v : JsonValue) (path : List String) : Option JsonValue :=
  path.foldlM field? v

/-- A value that is written as a number. -/
def IsNumeric (v : JsonValue) : Prop :=
  IsJsonNumber v.compact.toList

theorem at?_cons {v w : JsonValue} {name : String} (h : v.field? name = some w)
    (path : List String) : v.at? (name :: path) = w.at? path := by
  rw [at?, List.foldlM_cons, h]
  rfl

end JsonValue

theorem TextMap.field?_toJson {α : Type} (write : α → JsonValue) (m : TextMap α) (name : String) :
    (m.toJson write).field? name = (m.lookup name).map write := by
  change List.lookup name (m.entries.map fun entry => (entry.1, write entry.2)) =
    (m.entries.lookup name).map write
  induction m.entries with
  | nil => rfl
  | cons entry entries ih =>
    rw [List.map_cons, List.lookup_cons, List.lookup_cons, ih]
    split <;> rfl

namespace Executor

def limitNames : List String :=
  ["memory_limit_bytes", "cpu_limit", "pids_limit"]

theorem field?_limits (e : Executor) :
    e.toJson.field? "memory_limit_bytes" = some (.natural e.memoryLimit) ∧
      e.toJson.field? "cpu_limit" = some (.number e.cpuLimit) ∧
      e.toJson.field? "pids_limit" = some (.natural e.pidsLimit) := by
  obtain ⟨lifecycle, logger, image, command, tty, directory, memory, cpu, pids⟩ := e
  cases directory <;> exact ⟨rfl, rfl, rfl⟩

/-- The limits of a process are written as numbers if that of its processors is finite. -/
theorem isNumeric_limits (e : Executor) :
    (∀ limit ∈ limitNames, ∃ v, e.toJson.field? limit = some v ∧ v.IsNumeric) ↔
      e.cpuLimit.isFinite := by
  obtain ⟨memory, cpu, pids⟩ := e.field?_limits
  simp only [limitNames, List.forall_mem_cons, memory, cpu, pids, Option.some.injEq,
    exists_eq_left', List.not_mem_nil, false_imp_iff, implies_true, and_true]
  constructor
  · rintro ⟨-, h, -⟩
    exact Binary64.isJsonNumber_json.mp h
  · intro h
    exact ⟨isJsonNumber_natural _, Binary64.isJsonNumber_json.mpr h, isJsonNumber_natural _⟩

end Executor

theorem ExecutionPlan.at?_toJson {p : ExecutionPlan} {url name : String} {room : Room}
    {e : Executor} (hr : p.room? url = some room) (he : room.executors.lookup name = some e)
    (field : String) :
    p.toJson.at? ["pages", url, "executors", name, field] = e.toJson.field? field := by
  have pages : p.toJson.field? "pages" = some (p.rooms.toJson Room.toJson) := rfl
  have page : (p.rooms.toJson Room.toJson).field? url = some room.toJson := by
    rw [TextMap.field?_toJson]
    exact congrArg (Option.map Room.toJson) hr
  have executors : room.toJson.field? "executors" =
    some (room.executors.toJson Executor.toJson) := rfl
  have executor : (room.executors.toJson Executor.toJson).field? name = some e.toJson := by
    rw [TextMap.field?_toJson, he, Option.map_some]
  rw [JsonValue.at?_cons pages, JsonValue.at?_cons page, JsonValue.at?_cons executors,
    JsonValue.at?_cons executor]
  cases h : e.toJson.field? field with
  | none => rw [JsonValue.at?, List.foldlM_cons, h]; rfl
  | some v => rw [JsonValue.at?_cons h]; rfl

theorem Binary64.isFinite_of_isAmount {x : Binary64} (h : x.isAmount) : x.isFinite := by
  cases x with
  | finite negative mantissa exponent => rfl
  | infinity negative => cases h
  | notANumber => cases h

namespace SiteBuild

variable {s : Settings}

/-- Processor limits are amounts, if that of the settings is one. -/
theorem isAmount_after (hs : ∀ x, s.cpuLimit = some x → x.isAmount) (calls : List BuildStep)
    {url name : String} {room : Room} {e : Executor}
    (hr : ((start s).after calls).plan.room? url = some room)
    (he : room.executors.lookup name = some e) : e.cpuLimit.isAmount := by
  obtain ⟨m, w, hm, rfl⟩ := descriptor_after s calls hr he
  exact (WidgetMarkup.checked_descriptor hm).cpu.elim id (hs _)

/-- A button without limits of its own has that of the settings. -/
theorem cpuLimit_buttonPage (s : Settings) : ∃ room e,
    ((start s).after [.tree "/" .buttonPage]).plan.room? "/" = some room ∧
      room.executors.lookup "2f-a" = some e ∧ e.cpuLimit = s.cpuLimit.getD (.ofNat 1) := by
  have button : ((((start s).after [.tree "/" .buttonPage]).plan.room? "/").bind fun room =>
      room.executors.lookup "2f-a").map Executor.cpuLimit = some (s.cpuLimit.getD (.ofNat 1)) := rfl
  obtain ⟨e, he, cpu⟩ := Option.map_eq_some_iff.mp button
  obtain ⟨room, hr, he⟩ := Option.bind_eq_some_iff.mp he
  exact ⟨room, e, hr, he, cpu⟩

/-- The settings decide: where their processor limit is an amount, as those in attributes have to
be, every limit of every run means something and is written as a number. One that is none comes
through. -/
theorem limits_plan_iff (s : Settings) :
    (∀ calls url name room e, ((start s).after calls).plan.room? url = some room →
      room.executors.lookup name = some e → e.cpuLimit.isAmount ∧
        ∀ limit ∈ Executor.limitNames, ∃ v, ((start s).after calls).plan.toJson.at?
          ["pages", url, "executors", name, limit] = some v ∧ v.IsNumeric) ↔
      ∀ x, s.cpuLimit = some x → x.isAmount := by
  constructor
  · intro h x hx
    obtain ⟨room, e, hr, he, cpu⟩ := cpuLimit_buttonPage s
    rw [hx, Option.getD_some] at cpu
    exact cpu ▸ (h _ _ _ _ _ hr he).1
  · intro hs calls url name room e hr he
    have amount := isAmount_after hs calls hr he
    simp only [ExecutionPlan.at?_toJson hr he]
    exact ⟨amount, e.isNumeric_limits.mpr (Binary64.isFinite_of_isAmount amount)⟩

-- Attributes are checked, but the settings take every number.
example : (Settings.ofText? "default_cpu_limit = nan").map Settings.cpuLimit =
    some (some .notANumber) := by
  decide +kernel

end SiteBuild

end LivePages
