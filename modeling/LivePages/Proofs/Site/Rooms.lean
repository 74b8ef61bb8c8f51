import LivePages.Proofs.Outcome
import LivePages.Proofs.Text.Map
import LivePages.Site.Build

namespace LivePages

variable {s : Settings} {ws : List WidgetDescriptor} {page : CompiledPage}

namespace CompiledPage

/-- The processes of a page's widgets, under the names of the widgets. -/
def executors (s : Settings) (page : CompiledPage) : List (String × Executor) :=
  page.widgets.map fun w => (w.name, w.executor s)

/-- The processes of all pages that have an address. -/
def executorsAt (s : Settings) (url : String) (pages : List CompiledPage) :
    List (String × Executor) :=
  (pages.filter fun page => page.url.text = url).flatMap (executors s)

theorem names_executors (s : Settings) (page : CompiledPage) :
    (page.executors s).map Prod.fst = page.widgets.map WidgetDescriptor.name :=
  List.map_map

theorem executorsAt_append (s : Settings) (url : String) (pages pages' : List CompiledPage) :
    executorsAt s url (pages ++ pages') = executorsAt s url pages ++ executorsAt s url pages' := by
  rw [executorsAt, List.filter_append, List.flatMap_append, executorsAt, executorsAt]

theorem executorsAt_singleton (s : Settings) (url : String) (page : CompiledPage) :
    executorsAt s url [page] = if page.url.text = url then page.executors s else [] := by
  by_cases hu : page.url.text = url <;> simp [executorsAt, hu]

end CompiledPage

/-- A room gets the processes of the widgets beside its own. -/
theorem entries_addExecutors {m m' : TextMap Executor} (h : addExecutors s m ws = .ok m') :
    m'.entries.Perm (m.entries ++ ws.map fun w => (w.name, w.executor s)) := by
  induction ws generalizing m with
  | nil =>
    cases Except.ok.inj h
    simp
  | cons w ws ih =>
    rw [addExecutors] at h
    split at h
    next => cases h
    next hn =>
      rw [List.map_cons, List.append_cons]
      exact (ih h).trans ((TextMap.entries_insert hn _).append_right _)

theorem keys_addExecutors {m m' : TextMap Executor} (h : addExecutors s m ws = .ok m') :
    m'.keys.Perm (m.keys ++ ws.map WidgetDescriptor.name) := by
  have hp := (entries_addExecutors h).map Prod.fst
  rwa [List.map_append, List.map_map] at hp

/-- A room takes widgets whose names are distinct and new to it, and no others. -/
theorem exists_addExecutors_iff {m : TextMap Executor} :
    (∃ m', addExecutors s m ws = .ok m') ↔ (m.keys ++ ws.map WidgetDescriptor.name).Nodup := by
  refine ⟨fun ⟨m', h⟩ => (keys_addExecutors h).nodup m'.nodup_keys, fun h => ?_⟩
  induction ws generalizing m with
  | nil => exact ⟨m, rfl⟩
  | cons w ws ih =>
    rw [List.map_cons, List.append_cons] at h
    have hn : ¬ m.contains w.name := by
      rw [TextMap.contains_iff]
      intro hm
      exact (List.nodup_append.mp (List.nodup_append.mp h).1).2.2 _ hm _ List.mem_cons_self rfl
    rw [addExecutors, if_neg hn]
    exact ih (((TextMap.keys_insert hn).append_right _).nodup_iff.mpr h)

/-- A room refuses the first widget whose name it has already. -/
theorem addExecutors_eq_error {m : TextMap Executor} {e : WidgetError}
    (h : addExecutors s m ws = .error e) : ∃ before w after, ws = before ++ w :: after ∧
      (m.keys ++ before.map WidgetDescriptor.name).Nodup ∧
      w.name ∈ m.keys ++ before.map WidgetDescriptor.name ∧
      e = ⟨w.kind, w.page, w.position, .duplicateName w.name⟩ := by
  induction ws generalizing m with
  | nil => cases h
  | cons first ws ih =>
    rw [addExecutors] at h
    split at h
    next hc =>
      refine ⟨[], first, ws, rfl, ?_, ?_, (Except.error.inj h).symm⟩
      · rw [List.map_nil, List.append_nil]
        exact m.nodup_keys
      · exact List.mem_append_left _ (TextMap.contains_iff.mp hc)
    next hc =>
      obtain ⟨before, w, after, rfl, hn, hm, he⟩ := ih h
      have hp : ((m.insert first.name (first.executor s)).keys ++
          before.map WidgetDescriptor.name).Perm _ := (TextMap.keys_insert hc).append_right _
      rw [← List.append_cons, ← List.map_cons] at hp
      exact ⟨first :: before, w, after, rfl, hp.nodup_iff.mp hn, hp.mem_iff.mp hm, he⟩

namespace ExecutionPlan

variable {p p' : ExecutionPlan}

/-- The processes of the room under an address; none if there is no room. -/
def executorsAt (p : ExecutionPlan) (url : String) : TextMap Executor :=
  ((p.room? url).map Room.executors).getD .empty

theorem executorsAt_of_none {url : String} (h : p.room? url = none) : p.executorsAt url = .empty := by
  rw [executorsAt, h]
  rfl

theorem addPage_of_nil (hw : page.widgets = []) : p.addPage page s = .ok p := by
  rw [addPage, hw]
  rfl

theorem addPage_eq_ok (hw : page.widgets ≠ []) : p.addPage page s = .ok p' ↔
    ∃ executors, addExecutors s (p.executorsAt page.url.text) page.widgets = .ok executors ∧
      p' = { p with rooms := p.rooms.insert page.url.text (.withExecutors s executors) } := by
  rw [addPage, if_neg (by simpa using hw)]
  refine bind_eq_ok.trans (exists_congr fun executors => and_congr_right fun _ => ?_)
  exact ⟨fun h => (Except.ok.inj h).symm, fun h => congrArg Except.ok h.symm⟩

theorem addPage_cases (h : p.addPage page s = .ok p') : (page.widgets = [] ∧ p' = p) ∨
    page.widgets ≠ [] ∧ ∃ executors,
      addExecutors s (p.executorsAt page.url.text) page.widgets = .ok executors ∧
      p' = { p with rooms := p.rooms.insert page.url.text (.withExecutors s executors) } := by
  by_cases hw : page.widgets = []
  · rw [addPage_of_nil hw] at h
    exact .inl ⟨hw, (Except.ok.inj h).symm⟩
  · exact .inr ⟨hw, (addPage_eq_ok hw).mp h⟩

theorem addPage_eq_error {e : WidgetError} (h : p.addPage page s = .error e) :
    addExecutors s (p.executorsAt page.url.text) page.widgets = .error e := by
  rw [addPage] at h
  split at h
  next => cases h
  next =>
    rcases bind_eq_error.mp h with h | ⟨executors, -, h⟩
    · exact h
    · cases h

/-- A plan takes a page whose widgets' names are distinct and new to the room of the page. -/
theorem exists_addPage_iff : (∃ p', p.addPage page s = .ok p') ↔
    ((p.executorsAt page.url.text).keys ++ page.widgets.map WidgetDescriptor.name).Nodup := by
  by_cases hw : page.widgets = []
  · rw [hw, List.map_nil, List.append_nil]
    exact iff_of_true ⟨p, addPage_of_nil hw⟩ (TextMap.nodup_keys _)
  · rw [← exists_addExecutors_iff (s := s)]
    constructor
    · rintro ⟨p', h⟩
      obtain ⟨executors, h, -⟩ := (addPage_eq_ok hw).mp h
      exact ⟨executors, h⟩
    · rintro ⟨executors, h⟩
      exact ⟨_, (addPage_eq_ok hw).mpr ⟨executors, h, rfl⟩⟩

theorem room?_addPage (h : p.addPage page s = .ok p') {k : String} (hk : k ≠ page.url.text) :
    p'.room? k = p.room? k := by
  rcases addPage_cases h with ⟨-, rfl⟩ | ⟨-, executors, -, rfl⟩
  · rfl
  · rw [room?, TextMap.lookup_insert, if_neg hk, room?]

theorem server_addPage (h : p.addPage page s = .ok p') : p' = { p with rooms := p'.rooms } := by
  rcases addPage_cases h with ⟨-, rfl⟩ | ⟨-, executors, -, rfl⟩ <;> rfl

theorem mem_rooms_addPage (h : p.addPage page s = .ok p') (url : String) :
    url ∈ p'.rooms.keys ↔ url ∈ p.rooms.keys ∨ page.isInteractive ∧ page.url.text = url := by
  rw [CompiledPage.isInteractive_iff]
  rcases addPage_cases h with ⟨hw, rfl⟩ | ⟨hw, executors, -, rfl⟩
  · simp [hw]
  · rw [← TextMap.contains_iff, ← TextMap.contains_iff, TextMap.contains_insert, Bool.or_eq_true,
      beq_iff_eq, and_iff_right hw, or_comm, @eq_comm _ url]

theorem described_addPage (h : p.addPage page s = .ok p')
    (hp : ∀ url room, p.room? url = some room → room = .withExecutors s room.executors)
    {url : String} {room : Room} (hr : p'.room? url = some room) :
    room = .withExecutors s room.executors := by
  rcases addPage_cases h with ⟨-, rfl⟩ | ⟨-, executors, -, rfl⟩
  · exact hp url room hr
  · rw [room?, TextMap.lookup_insert] at hr
    split at hr
    next =>
      rw [← Option.some.inj hr]
      rfl
    next => exact hp url room hr

/-- The processes under the address of a page are joined by those of its widgets. -/
theorem entries_addPage (h : p.addPage page s = .ok p') (url : String) :
    (p'.executorsAt url).entries.Perm
      ((p.executorsAt url).entries ++ CompiledPage.executorsAt s url [page]) := by
  rw [CompiledPage.executorsAt_singleton]
  by_cases hu : page.url.text = url
  · rw [if_pos hu]
    rcases addPage_cases h with ⟨hw, rfl⟩ | ⟨-, executors, he, rfl⟩
    · rw [CompiledPage.executors, hw, List.map_nil, List.append_nil]
    · have hnew : (p.rooms.insert page.url.text (.withExecutors s executors)).lookup url =
          some (.withExecutors s executors) := by
        rw [TextMap.lookup_insert, if_pos hu.symm]
      rw [executorsAt, room?, hnew, ← hu]
      exact entries_addExecutors he
  · rw [if_neg hu, List.append_nil, executorsAt, room?_addPage h (Ne.symm hu), executorsAt]

theorem names_addPage (h : p.addPage page s = .ok p') (hn : p.room? page.url.text = none) :
    (((p'.room? page.url.text).map fun room => room.executors.keys).getD []).Perm
        (page.widgets.map WidgetDescriptor.name) ∧
      (page.widgets.map WidgetDescriptor.name).Nodup := by
  have hp := (entries_addPage h page.url.text).map Prod.fst
  have hd := exists_addPage_iff.mp ⟨p', h⟩
  have e := executorsAt_of_none hn
  have e' : ((p'.room? page.url.text).map fun room => room.executors.keys).getD [] =
      (p'.executorsAt page.url.text).keys := by
    rw [executorsAt]
    cases p'.room? page.url.text <;> rfl
  rw [e, List.map_append, CompiledPage.executorsAt_singleton, if_pos rfl,
    CompiledPage.names_executors] at hp
  rw [e] at hd
  rw [e']
  exact ⟨hp, hd⟩

end ExecutionPlan

end LivePages
