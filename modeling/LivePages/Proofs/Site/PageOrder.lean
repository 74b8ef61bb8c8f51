import LivePages.Proofs.Site.Records

namespace LivePages

/-- What a call answers with if no other call stands in its way. -/
def BuildStep.ownAnswer (s : Settings) (x : BuildStep) : Except WidgetError BuildAnswer :=
  x.answer <$> x.document.compile x.url s

namespace CompiledPage

variable {s : Settings} {url : String} {pages pages' added : List CompiledPage}

/-- No two widgets of pages with one address have the same name. -/
def NamesDistinct (s : Settings) (pages : List CompiledPage) : Prop :=
  ∀ url, ((executorsAt s url pages).map Prod.fst).Nodup

theorem executorsAt_perm (h : pages.Perm pages') (s : Settings) (url : String) :
    (executorsAt s url pages).Perm (executorsAt s url pages') :=
  (h.filter _).flatMap_right _

theorem NamesDistinct.perm (hd : NamesDistinct s pages) (h : pages.Perm pages') :
    NamesDistinct s pages' :=
  fun url => (((executorsAt_perm h s url).map Prod.fst).nodup_iff).mp (hd url)

theorem NamesDistinct.of_append (h : NamesDistinct s (pages ++ added)) : NamesDistinct s pages := by
  intro url
  have h := h url
  rw [executorsAt_append, List.map_append] at h
  exact h.of_append_left

end CompiledPage

namespace SiteBuild

variable {s : Settings} {b b' : SiteBuild} {pages pages' : List CompiledPage} {page : CompiledPage}

namespace Records

/-- A build takes one more page where the names of the widgets stay distinct. -/
theorem exists_adds (h : b.Records s pages)
    (hd : CompiledPage.NamesDistinct s (pages ++ [page])) : ∃ b', b.Adds page b' := by
  have hd := hd page.url.text
  rw [CompiledPage.executorsAt_append, List.map_append, CompiledPage.executorsAt_singleton,
    if_pos rfl, CompiledPage.names_executors] at hd
  rw [exists_adds_iff]
  exact ((((h.executors page.url.text).map Prod.fst).append_right _).nodup_iff).mpr hd

/-- Calls on pages that fit together all get their own answers. -/
theorem answers_of_namesDistinct (h : b.Records s pages) {calls : List BuildStep}
    {added : List CompiledPage}
    (hf : List.Forall₂ (fun x page => x.document.compile x.url s = .ok page) calls added)
    (hd : CompiledPage.NamesDistinct s (pages ++ added)) :
    b.answers calls = calls.map (BuildStep.ownAnswer s) ∧
      (b.after calls).Records s (pages ++ added) := by
  -- The names of the pages that are still to come count from the start, so that no call can fail.
  induction hf generalizing b pages with
  | nil => exact ⟨rfl, by rwa [List.append_nil]⟩
  | @cons x page calls added hp hf ih =>
    rw [List.append_cons] at hd
    obtain ⟨b', ha⟩ := h.exists_adds hd.of_append
    have hx : x.call.on b = (.ok (x.answer page), b') :=
      BuildStep.call_of_adds (by rwa [h.settings]) ha
    have ho : x.ownAnswer s = .ok (x.answer page) := by
      rw [BuildStep.ownAnswer, hp]
      rfl
    obtain ⟨he, h'⟩ := ih (h.add hp ha) hd
    rw [after_cons, answers, List.map_cons, hx, ho, ← he, List.append_cons]
    exact ⟨rfl, h'⟩

theorem room?_eq_of_perm (h : b.Records s pages) (h' : b'.Records s pages')
    (hp : pages.Perm pages') (url : String) : b.plan.room? url = b'.plan.room? url := by
  have hk : (b.plan.room? url).isSome ↔ (b'.plan.room? url).isSome := by
    have hk := h.rooms url
    simp only [hp.mem_iff, ← h'.rooms, ← TextMap.contains_iff] at hk
    exact hk
  have he : b.plan.executorsAt url = b'.plan.executorsAt url :=
    TextMap.eq_of_perm ((h.executors url).trans
      ((CompiledPage.executorsAt_perm hp s url).trans (h'.executors url).symm))
  rw [ExecutionPlan.executorsAt, ExecutionPlan.executorsAt] at he
  cases hr : b.plan.room? url with
  | none => cases hr' : b'.plan.room? url <;> simp [hr, hr'] at hk ⊢
  | some room =>
    cases hr' : b'.plan.room? url with
    | none => simp [hr, hr'] at hk
    | some room' =>
      rw [hr, hr'] at he
      have he : room.executors = room'.executors := he
      rw [h.described url room hr, h'.described url room' hr', he]

/-- What a build holds is settled by its pages, whatever order they came in. -/
theorem eq_of_perm (h : b.Records s pages) (h' : b'.Records s pages') (hp : pages.Perm pages') :
    b = b' := by
  have hs : b.settings = b'.settings := h.settings.trans h'.settings.symm
  have hr : b.plan.rooms = b'.plan.rooms := TextMap.eq_of_lookup (h.room?_eq_of_perm h' hp)
  have hplan : b.plan = b'.plan := by rw [h.server, h'.server, hr]
  have ha : b.assets = b'.assets := by
    refine AssetSet.eq_of_contains fun path => ?_
    rw [h.assets, h'.assets]
    simp only [hp.mem_iff]
  have hc : b.pagesCompiled = b'.pagesCompiled := by
    rw [h.pagesCompiled, h'.pagesCompiled, hp.length_eq]
  have hi : b.interactivePages = b'.interactivePages := by
    rw [h.interactivePages, h'.interactivePages, hp.countP_eq]
  cases b
  cases b'
  congr

end Records

theorem accepted_of_forall_isOk {calls : List BuildStep}
    (h : ∀ answer ∈ b.answers calls, answer.isOk) : b.accepted calls = calls := by
  induction calls generalizing b with
  | nil => rfl
  | cons x calls ih =>
    rw [answers, List.forall_mem_cons] at h
    rcases x.call_cases b with ⟨e, hx⟩ | ⟨page, b', -, -, hx⟩
    · rw [hx] at h
      cases h.1
    · rw [hx] at h
      rw [accepted_of_ok hx, ih h.2]

/-- The order of the pages does not matter: where all of them are accepted in one order, they are
accepted in every order, each gets the same answer, and the build ends up the same. -/
theorem after_perm {calls calls' : List BuildStep} (hp : calls.Perm calls')
    (h : ∀ answer ∈ (start s).answers calls, answer.isOk) :
    (∀ answer ∈ (start s).answers calls', answer.isOk) ∧
      (start s).after calls' = (start s).after calls ∧
      (start s).answers calls = calls.map (BuildStep.ownAnswer s) ∧
      (start s).answers calls' = calls'.map (BuildStep.ownAnswer s) := by
  obtain ⟨pages, hf, hb⟩ := (records_start s).after calls
  rw [accepted_of_forall_isOk h] at hf
  have hd : CompiledPage.NamesDistinct s pages := hb.distinct
  obtain ⟨ha, -⟩ := (records_start s).answers_of_namesDistinct hf hd
  obtain ⟨pages', hf', hp'⟩ := List.perm_comp_forall₂ hp.symm hf
  obtain ⟨ha', hb'⟩ := (records_start s).answers_of_namesDistinct hf' (hd.perm hp'.symm)
  refine ⟨?_, hb'.eq_of_perm hb hp', ha, ha'⟩
  rw [ha] at h
  rw [ha']
  intro answer hm
  exact h answer ((hp.map _).mem_iff.mpr hm)

/-- Two buttons of different names, at one address, with a page without widgets between them. -/
theorem after_perm_buttonPages :
    let first := .tree "/" .buttonPage
    let plain := .text "guide" "<p>Read</p>"
    let second := .text "./"
      "<x-button name=\"b\" command=\"ls\" image=\"alpine\" label=\"List\"></x-button>"
    [first, plain, second].Perm [second, first, plain] ∧
      (∀ answer ∈ (start .default).answers [first, plain, second], answer.isOk) ∧
      (∀ answer ∈ (start .default).answers [second, first, plain], answer.isOk) ∧
      (start .default).after [second, first, plain] = (start .default).after [first, plain, second] := by
  intro first plain second
  have hp : [first, plain, second].Perm [second, first, plain] :=
    @List.perm_append_comm _ [first, plain] [second]
  have h : ∀ answer ∈ (start .default).answers [first, plain, second], answer.isOk := by
    decide +kernel
  obtain ⟨h', e, -, -⟩ := after_perm hp h
  exact ⟨hp, h, h', e⟩

end SiteBuild

end LivePages
