import LivePages.Proofs.Site.AssetSet
import LivePages.Proofs.Site.Calls

namespace LivePages

namespace SiteBuild

variable {s : Settings} {b b' : SiteBuild} {pages : List CompiledPage} {page : CompiledPage}

/-- A build records pages: each of them is counted, its processes are in the room of its address,
and the files that it needs are among the assets. Nothing else is recorded. -/
structure Records (s : Settings) (pages : List CompiledPage) (b : SiteBuild) : Prop where
  settings : b.settings = s
  server : b.plan = { ExecutionPlan.ofSettings s with rooms := b.plan.rooms }
  pagesCompiled : b.pagesCompiled = pages.length
  interactivePages : b.interactivePages = pages.countP CompiledPage.isInteractive
  rooms : ∀ url, url ∈ b.plan.rooms.keys ↔
    ∃ page ∈ pages, page.isInteractive ∧ page.url.text = url
  described : ∀ url room, b.plan.room? url = some room → room = .withExecutors s room.executors
  executors : ∀ url,
    (b.plan.executorsAt url).entries.Perm (CompiledPage.executorsAt s url pages)
  distinct : ∀ url, ((CompiledPage.executorsAt s url pages).map Prod.fst).Nodup
  assets : ∀ path, b.assets.contains path ↔ ∃ page ∈ pages, page.isInteractive ∧
    (path = roomConnectionAsset ∨ ∃ w ∈ page.widgets, path ∈ w.content.assets)

theorem records_start (s : Settings) : (start s).Records s [] := by
  constructor
  case rooms =>
    intro url
    exact iff_of_false List.not_mem_nil fun ⟨_, h, _⟩ => List.not_mem_nil h
  case described =>
    intro url room h
    cases h
  case executors =>
    intro url
    exact .nil
  case distinct =>
    intro url
    exact .nil
  case assets =>
    intro path
    exact iff_of_false (AssetSet.not_contains_empty path) fun ⟨_, h, _⟩ => List.not_mem_nil h
  all_goals rfl

namespace Records

theorem add {d : Document} {url : PageUrl} (h : b.Records s pages) (hp : d.compile url s = .ok page)
    (ha : b.Adds page b') : b'.Records s (pages ++ [page]) := by
  have hplan := h.settings ▸ ha.plan
  have he (url : String) : (b'.plan.executorsAt url).entries.Perm
      (CompiledPage.executorsAt s url (pages ++ [page])) := by
    rw [CompiledPage.executorsAt_append]
    exact (ExecutionPlan.entries_addPage hplan url).trans ((h.executors url).append_right _)
  constructor
  case settings => exact ha.settings.trans h.settings
  case server => rw [ExecutionPlan.server_addPage hplan, h.server]
  case pagesCompiled =>
    rw [ha.pagesCompiled, h.pagesCompiled, List.length_append, List.length_singleton]
  case interactivePages =>
    rw [ha.interactivePages, h.interactivePages, List.countP_append, List.countP_singleton]
  case rooms =>
    intro url
    rw [ExecutionPlan.mem_rooms_addPage hplan, h.rooms]
    simp only [List.mem_append, List.mem_singleton, or_and_right, exists_or, exists_eq_left]
  case described =>
    intro url room hr
    exact ExecutionPlan.described_addPage hplan h.described hr
  case executors => exact he
  case distinct =>
    intro url
    exact ((he url).map Prod.fst).nodup (TextMap.nodup_keys _)
  case assets =>
    intro path
    rw [ha.assets, AssetSet.contains_union, h.assets, Document.contains_assets hp]
    simp only [List.mem_append, List.mem_singleton, or_and_right, exists_or, exists_eq_left]

/-- The calls that do not fail have their pages recorded, in their order. -/
theorem after (h : b.Records s pages) (calls : List BuildStep) : ∃ added,
    List.Forall₂ (fun x page => x.document.compile x.url s = .ok page) (b.accepted calls) added ∧
      (b.after calls).Records s (pages ++ added) := by
  induction calls generalizing b pages with
  | nil => exact ⟨[], .nil, by rwa [List.append_nil]⟩
  | cons x calls ih =>
    rw [after_cons]
    rcases x.call_cases b with ⟨e, hx⟩ | ⟨page, b', hp, ha, hx⟩
    · rw [accepted_of_error hx, hx]
      exact ih h
    · rw [h.settings] at hp
      obtain ⟨added, hf, h'⟩ := ih (h.add hp ha)
      rw [accepted_of_ok hx, hx]
      rw [← List.append_cons] at h'
      exact ⟨page :: added, .cons hp hf, h'⟩

/-- Every process of a room comes from a widget of a recorded page of the room's address. -/
theorem widget_of_executor (h : b.Records s pages) {url name : String} {room : Room} {e : Executor}
    (hr : b.plan.room? url = some room) (he : room.executors.lookup name = some e) :
    ∃ page ∈ pages, page.url.text = url ∧ ∃ w ∈ page.widgets, w.name = name ∧ w.executor s = e := by
  have hm := (h.executors url).mem_iff.mp (by
    rw [ExecutionPlan.executorsAt, hr, Option.map_some, Option.getD_some, TextMap.mem_entries, he])
  obtain ⟨page, hp, hm⟩ := List.mem_flatMap.mp hm
  obtain ⟨hp, hu⟩ := List.mem_filter.mp hp
  obtain ⟨w, hw, hm⟩ := List.mem_map.mp hm
  obtain ⟨hn, he⟩ := Prod.mk.inj hm
  exact ⟨page, hp, of_decide_eq_true hu, w, hw, hn, he⟩

/-- Every interactive page has a room, and needs at least what connects it to the room. -/
theorem isEmpty_assets_iff (h : b.Records s pages) : b.assets.isEmpty ↔ ¬ b.plan.hasRooms := by
  have hr : b.plan.hasRooms ↔ ∃ page ∈ pages, page.isInteractive := by
    rw [ExecutionPlan.hasRooms, Bool.not_eq_true', ← Bool.not_eq_true, TextMap.isEmpty_iff]
    simp only [h.rooms, not_forall, not_not]
    constructor
    · rintro ⟨_, page, hm, hi, -⟩
      exact ⟨page, hm, hi⟩
    · rintro ⟨page, hm, hi⟩
      exact ⟨_, page, hm, hi, rfl⟩
  rw [AssetSet.isEmpty_iff, hr, not_exists]
  simp only [h.assets]
  constructor
  · intro hn page ⟨hm, hi⟩
    exact hn roomConnectionAsset ⟨page, hm, hi, .inl rfl⟩
  · intro hn path ⟨page, hm, hi, _⟩
    exact hn page ⟨hm, hi⟩

end Records

/-- Every process of a run is that of a widget which has passed the checks of its kind. -/
theorem descriptor_after (s : Settings) (calls : List BuildStep) {url name : String} {room : Room}
    {e : Executor} (hr : ((start s).after calls).plan.room? url = some room)
    (he : room.executors.lookup name = some e) :
    ∃ (m : WidgetMarkup) (w : WidgetDescriptor), m.descriptor s = .ok w ∧ w.executor s = e := by
  obtain ⟨pages, hf, h⟩ := (records_start s).after calls
  obtain ⟨page, hp, -, w, hw, -, he⟩ := h.widget_of_executor hr he
  obtain ⟨x, -, hx⟩ := exists_of_forall₂ hf hp
  obtain ⟨m, -, hm⟩ := exists_of_forall₂ (Document.descriptors_compile hx) hw
  exact ⟨m, w, hm, he⟩

/-- A page without widgets fits every build, and comes back as it is. -/
theorem call_of_plain {x : BuildStep} (b : SiteBuild)
    (h : x.document.tree.elementsNamed Tree.root WidgetKind.tags = []) :
    (x.call.on b).1 = .ok (x.answer ⟨x.url, [], x.document, .empty⟩) := by
  rw [← Document.nodes_widgets _ x.url, List.map_eq_nil_iff] at h
  have hp := Document.compile_of_nil h b.settings
  obtain ⟨b', ha⟩ : ∃ b', b.Adds ⟨x.url, [], x.document, .empty⟩ b' := by
    rw [exists_adds_iff, List.map_nil, List.append_nil]
    exact TextMap.nodup_keys _
  rw [BuildStep.call_of_adds hp ha]

/-- A call that fails changes nothing, so what a build records after any calls is what it records
after those that do not fail: their pages. The text of a page without widgets comes back as it is. -/
theorem records_after (s : Settings) (calls : List BuildStep) :
    (∀ (x : BuildStep) e, (x.call.on ((start s).after calls)).1 = .error e →
      (x.call.on ((start s).after calls)).2 = (start s).after calls) ∧
    (start s).after ((start s).accepted calls) = (start s).after calls ∧
    (start s).accepted ((start s).accepted calls) = (start s).accepted calls ∧
    (∃ pages, List.Forall₂ (fun x page => x.document.compile x.url s = .ok page)
      ((start s).accepted calls) pages ∧ ((start s).after calls).Records s pages) ∧
    (((start s).after calls).assets.isEmpty ↔ ¬ ((start s).after calls).plan.hasRooms) ∧
    ∀ url html, (Document.ofHtml (PageUrl.ofText url).text html).tree.elementsNamed Tree.root
        WidgetKind.tags = [] →
      ((BuildStep.text url html).call.on ((start s).after calls)).1 = .ok (.text html) := by
  obtain ⟨hb, hk⟩ := after_accepted (start s) calls
  obtain ⟨pages, hf, h⟩ := (records_start s).after calls
  refine ⟨fun x e he => ?_, hb, hk, ⟨pages, hf, h⟩, h.isEmpty_assets_iff, fun url html hw => ?_⟩
  · rcases x.call_cases ((start s).after calls) with ⟨e, hx⟩ | ⟨page, b', -, -, hx⟩
    · rw [hx]
    · rw [hx] at he
      cases he
  · rw [call_of_plain (x := .text url html) _ hw]
    rfl

-- The second of two buttons of one name at one address is refused.
example : ((start .default).accepted [.tree "/" .buttonPage, .tree "./" .buttonPage]).length = 1 := by
  decide +kernel

end SiteBuild

end LivePages
