import LivePages.Proofs.Plan.RoundTrip
import LivePages.Proofs.Settings.Widths
import LivePages.Proofs.Site.Records
import LivePages.Proofs.Widget.Limits

namespace LivePages

variable {s : Settings}

/-- The processor limit that applies where nobody gives one is read back. -/
theorem Binary64.readsBack_one : (ofNat 1).ReadsBack := by
  have quotient : divideByTens (ofNat 10) 1 = ofNat 1 := by
    rw [divideByTens]
    decide +kernel
  have json : (ofNat 1).json = "1.0" := by decide +kernel
  have read : JsonValue.ofText? "1.0" = some (scaledNumber false 10 (-1)) := rfl
  have scaled : scaledNumber false 10 (-1) =
      if (divideByTens (ofNat 10) 1).isFinite then .number (divideByTens (ofNat 10) 1)
      else .unreadable := rfl
  rw [ReadsBack, json, read, scaled, quotient]
  rfl

namespace SiteBuild

/-- The processes of a run have limits of the widths that the plan has for them. -/
theorem widths_after (hs : s.Fits) (calls : List BuildStep) {url name : String} {room : Room}
    {e : Executor} (hr : ((start s).after calls).plan.room? url = some room)
    (he : room.executors.lookup name = some e) :
    e.memoryLimit ≤ greatestCount ∧ e.pidsLimit ≤ greatestCount := by
  obtain ⟨m, w, hm, rfl⟩ := descriptor_after s calls hr he
  have hl := WidgetMarkup.checked_descriptor hm
  exact ⟨hl.memory.elim id (hs.memoryLimit _), hl.pids.elim id (hs.pidsLimit _)⟩

theorem port_after (s : Settings) (calls : List BuildStep) :
    ((start s).after calls).plan.port = s.transportPort := by
  obtain ⟨pages, -, h⟩ := (records_start s).after calls
  rw [h.server]
  rfl

/-- The plan of a run is read from its text as it is, if its processor limits are read from
theirs. -/
theorem roundTrip_plan (hs : s.Fits) (calls : List BuildStep)
    (hc : ∀ url room name e, ((start s).after calls).plan.room? url = some room →
      room.executors.lookup name = some e → e.cpuLimit.ReadsBack) :
    ExecutionPlan.ofText? ((start s).after calls).plan.text = some ((start s).after calls).plan := by
  refine ExecutionPlan.Storable.ofText?_text ⟨?_, fun url room hr name e he => ?_⟩
  · rw [port_after]
    exact hs.transportPort
  · obtain ⟨memory, pids⟩ := widths_after hs calls hr he
    exact ⟨memory, hc url room name e hr he, pids⟩

theorem roundTrip_plan_buttonPages :
    ((start .default).after [.tree "/" .buttonPage, .tree "guide" .buttonPage]).plan.rooms.size = 2 ∧
    ExecutionPlan.ofText?
        ((start .default).after [.tree "/" .buttonPage, .tree "guide" .buttonPage]).plan.text =
      some ((start .default).after [.tree "/" .buttonPage, .tree "guide" .buttonPage]).plan := by
  have one : ((start .default).after
      [.tree "/" .buttonPage, .tree "guide" .buttonPage]).plan.rooms.entries.all fun room =>
        room.2.executors.entries.all fun e => e.2.cpuLimit = .ofNat 1 := by
    decide +kernel
  refine ⟨by decide +kernel, roundTrip_plan Settings.fits_default _ fun url room name e hr he => ?_⟩
  have each := List.all_eq_true.mp (List.all_eq_true.mp one _ (TextMap.mem_entries.mpr hr)) _
    (TextMap.mem_entries.mpr he)
  rw [of_decide_eq_true each]
  exact Binary64.readsBack_one

end SiteBuild

end LivePages
