import LivePages.Proofs.Site.Records
import LivePages.Proofs.Widget.HeadFiles

namespace LivePages

/-- The assets that are directories; every other asset is a file. -/
def IsLibrary (asset : String) : Prop :=
  ∃ c : WidgetContent, asset ∈ c.libraryAssets

/-- An asset provides its own place, and a directory all places below it. -/
def Provides (asset : String) (place : List String) : Prop :=
  segmentsOf asset = place ∨ IsLibrary asset ∧ segmentsOf asset <+: place

/-- From a directory, a reference leads to a place that one of the assets provides. -/
def Reaches (assets : String → Prop) (directory : List String) (reference : String) : Prop :=
  ∃ place, resolve directory reference = some place ∧ ∃ asset, assets asset ∧ Provides asset place

theorem Reaches.mono {assets assets' : String → Prop} {directory : List String} {reference : String}
    (h : Reaches assets directory reference) (hm : ∀ asset, assets asset → assets' asset) :
    Reaches assets' directory reference := by
  obtain ⟨place, hp, asset, ha, hs⟩ := h
  exact ⟨place, hp, asset, hm asset ha, hs⟩

namespace WidgetContent

variable {c : WidgetContent} {file mode : String} {page : PageUrl}

theorem provides_kindFiles (c : WidgetContent) : ∀ file ∈ c.kind.files, ".." ∉ segmentsOf file ∧
    ∃ asset ∈ c.assets, Provides asset (segmentsOf file) := by
  have listed : ∀ file ∈ c.kind.files, ".." ∉ segmentsOf file ∧ ∃ asset ∈ c.assets,
      segmentsOf asset = segmentsOf file ∨
        asset ∈ c.libraryAssets ∧ segmentsOf asset <+: segmentsOf file := by
    cases c <;>
    · simp only [kind, WidgetKind.files, assets, className, libraryAssets]
      decide +kernel
  intro file hf
  obtain ⟨hu, asset, ha, hp⟩ := listed file hf
  exact ⟨hu, asset, ha, hp.imp_right (And.imp_left fun h => ⟨c, h⟩)⟩

/-- A language cannot lead out of the directory of languages. -/
theorem provides_modeFile (h : ".." ∉ segmentsOf mode) : ".." ∉ segmentsOf (modeFile mode) ∧
    segmentsOf "node_modules/codemirror/mode" <+: segmentsOf (modeFile mode) := by
  have directory : segmentsOf "node_modules/codemirror/mode" =
      ["node_modules", "codemirror", "mode"] := by
    decide
  rw [segmentsOf_modeFile, directory]
  refine ⟨?_, List.append_assoc _ _ _ ▸ List.prefix_append _ _⟩
  rw [List.mem_append, List.mem_append, not_or, not_or]
  exact ⟨⟨by decide, h⟩, up_not_mem_extended h⟩

theorem provides_files (hm : ∀ mode ∈ c.mode?, ".." ∉ segmentsOf mode) (hf : file ∈ c.files) :
    ".." ∉ segmentsOf file ∧ ∃ asset ∈ c.assets, Provides asset (segmentsOf file) := by
  rcases List.mem_append.mp hf with hf | hf
  · exact provides_kindFiles c file hf
  · rw [Option.mem_toList, Option.map_eq_some_iff] at hf
    obtain ⟨mode, he, rfl⟩ := hf
    obtain ⟨hu, hp⟩ := provides_modeFile (hm mode he)
    have hl : "node_modules/codemirror/mode" ∈ c.libraryAssets := by
      cases c with
      | textEditor file mode => exact List.mem_of_elem_eq_true rfl
      | _ => cases he
    exact ⟨hu, _, List.mem_append_right _ hl, .inr ⟨⟨c, hl⟩, hp⟩⟩

theorem reaches_headTemplates {a : Template} (hm : ∀ mode ∈ c.mode?, ".." ∉ segmentsOf mode)
    (ha : a ∈ c.headTemplates page) : ∃ reference, a.references = [reference] ∧
      Reaches (· ∈ c.assets) page.segments reference := by
  have hr : a.references ∈ (c.headTemplates page).map Template.references := List.mem_map_of_mem ha
  rw [references_headTemplates] at hr
  obtain ⟨file, hf, e⟩ := List.mem_map.mp hr
  obtain ⟨hu, hp⟩ := provides_files hm hf
  exact ⟨_, e.symm, _, PageUrl.resolve_relative hu, hp⟩

end WidgetContent

namespace WidgetMarkup

variable {m : WidgetMarkup} {w : WidgetDescriptor} {s : Settings} {a : Template}

/-- The language of a markup does not lead upwards. -/
def PlainMode (m : WidgetMarkup) : Prop :=
  ∀ mode ∈ m.attribute? "mode", ".." ∉ segmentsOf mode

theorem attribute?_mode {mode : String} (h : m.descriptor s = .ok w)
    (hm : mode ∈ w.content.mode?) : mode ∈ m.attribute? "mode" := by
  have hk : m.kind = w.content.kind := (describes_descriptor h).kind.symm
  cases hc : w.content with
  | textEditor file mode' =>
    rw [hc] at hk hm
    simp only [descriptor, hk, WidgetContent.kind] at h
    obtain ⟨_, _, _, _, _, -, -, -, -, -, rfl⟩ := textEditor_eq_ok h
    cases hc
    exact hm
  | _ =>
    rw [hc] at hm
    cases hm

theorem reaches_descriptor (h : m.descriptor s = .ok w) (hm : m.PlainMode)
    (ha : a ∈ w.headTemplates) : ∃ reference, a.references = [reference] ∧
      Reaches (· ∈ w.content.assets) m.page.segments reference := by
  rw [← (describes_descriptor h).page]
  exact WidgetContent.reaches_headTemplates (fun mode he => hm mode (attribute?_mode h he)) ha

end WidgetMarkup

namespace Document

variable {d : Document} {url : PageUrl} {s : Settings} {page : CompiledPage} {a : Template}

theorem reaches_compile (h : d.compile url s = .ok page) (hi : page.isInteractive)
    (hm : ∀ m ∈ d.widgets url, m.PlainMode) (ha : a ∈ page.headTemplates) {reference : String}
    (hr : reference ∈ a.references) : Reaches (page.assets.contains ·) url.segments reference := by
  rw [CompiledPage.headTemplates, url_compile h] at ha
  rcases List.mem_append.mp ha with ha | ha
  · have hs : reference ∈ url.sessionScripts.flatMap Template.references :=
      List.mem_flatMap.mpr ⟨a, ha, hr⟩
    have hs : reference ∈ [url.relative ("/" ++ roomConnectionAsset)] := hs
    rw [List.mem_singleton.mp hs]
    refine ⟨_, PageUrl.resolve_relative (by decide), roomConnectionAsset, ?_, .inl (by decide)⟩
    exact (contains_assets h).mpr ⟨hi, .inl rfl⟩
  · obtain ⟨w, hw, ha⟩ := List.mem_flatMap.mp ha
    obtain ⟨m, hmem, hd⟩ := exists_of_forall₂ (descriptors_compile h) hw
    obtain ⟨_, e, hreach⟩ := WidgetMarkup.reaches_descriptor hd (hm m hmem) ha
    rw [e, List.mem_singleton] at hr
    rw [hr, ← page_of_mem_widgets h hw, (WidgetMarkup.describes_descriptor hd).page]
    exact hreach.mono fun asset ha => (contains_assets h).mpr ⟨hi, .inr ⟨w, hw, ha⟩⟩

end Document

namespace SiteBuild

/-- What a widget needs in the head of its page is among the assets of its kind, and what a run
puts into the heads of its pages is among the assets of the run. -/
theorem shipped_after (s : Settings) (calls : List BuildStep) :
    (∀ (m : WidgetMarkup) w, m.descriptor s = .ok w → m.PlainMode → ∀ a ∈ w.headTemplates,
      ∃ reference, a.references = [reference] ∧
        Reaches (· ∈ w.content.assets) m.page.segments reference) ∧
    ∀ x ∈ (start s).accepted calls, ∃ page, x.document.compile x.url s = .ok page ∧
      ((∀ m ∈ x.document.widgets x.url, m.PlainMode) →
        (page.isInteractive → ∀ a ∈ page.headTemplates, ∀ reference ∈ a.references,
          Reaches (((start s).after calls).assets.contains ·) x.url.segments reference) ∧
        ∀ n reference, x.document.tree.size ≤ n → reference ∈ page.document.tree.references n →
          Reaches (((start s).after calls).assets.contains ·) x.url.segments reference) := by
  refine ⟨fun m w h hm a ha => WidgetMarkup.reaches_descriptor h hm ha, fun x hx => ?_⟩
  obtain ⟨pages, hf, h⟩ := (records_start s).after calls
  obtain ⟨page, hpage, hp⟩ := exists_of_forall₂ hf.flip hx
  refine ⟨page, hp, fun hm => ?_⟩
  have head (hi : page.isInteractive) (a) (ha : a ∈ page.headTemplates) (reference)
      (hr : reference ∈ a.references) :
      Reaches (((start s).after calls).assets.contains ·) x.url.segments reference := by
    refine (Document.reaches_compile hp hi hm ha hr).mono fun asset hc => ?_
    exact (h.assets asset).mpr ⟨page, hpage, (Document.contains_assets hp).mp hc⟩
  refine ⟨head, fun n reference hn hr => ?_⟩
  by_cases hw : page.widgets = []
  · -- A page without widgets has no new nodes.
    rw [Document.eq_of_compile_nil hp hw, Tree.references, Tree.attributes, Tree.element?,
      Tree.data?_eq_none hn] at hr
    cases hr
  · obtain ⟨a, ha, hr⟩ := List.mem_flatMap.mp (Document.confined_compile hp n hn hr)
    exact head (CompiledPage.isInteractive_iff.mpr hw) a ha reference hr

/-- An editor of scripts, on a page below the root. -/
def editorStep : BuildStep :=
  .tree "/guide" (.ofNodes "/guide" [(0, .element ⟨"html", []⟩), (1, .element ⟨"body", []⟩),
    (2, .element ⟨"x-text-editor", [("file", "a.js"), ("mode", "javascript")]⟩)])

theorem shipped_editorStep : ∃ page,
    editorStep.document.compile editorStep.url .default = .ok page ∧
    (∃ a ∈ page.headTemplates,
      "../node_modules/codemirror/mode/javascript/javascript.js" ∈ a.references) ∧
    Reaches (((start .default).after [editorStep]).assets.contains ·) ["guide"]
      "../node_modules/codemirror/mode/javascript/javascript.js" := by
  have accepted : ((start .default).accepted [editorStep]).length = 1 := by
    decide +kernel
  have hx : editorStep ∈ (start .default).accepted [editorStep] := by
    rcases editorStep.call_cases (start .default) with ⟨e, h⟩ | ⟨page, b, -, -, h⟩
    · rw [accepted_of_error h] at accepted
      cases accepted
    · rw [accepted_of_ok h]
      exact List.mem_cons_self
  obtain ⟨page, hp, shipped⟩ := (shipped_after .default [editorStep]).2 editorStep hx
  have loads : (editorStep.document.compile editorStep.url .default).toOption.any fun page =>
      page.isInteractive && page.headTemplates.any fun a =>
        decide ("../node_modules/codemirror/mode/javascript/javascript.js" ∈ a.references) := by
    decide +kernel
  rw [hp] at loads
  obtain ⟨hi, loads⟩ := Bool.and_eq_true_iff.mp loads
  obtain ⟨a, ha, hr⟩ := List.any_eq_true.mp loads
  have plain : ∀ m ∈ editorStep.document.widgets editorStep.url, m.PlainMode := by
    unfold WidgetMarkup.PlainMode
    decide +kernel
  exact ⟨page, hp, ⟨a, ha, of_decide_eq_true hr⟩,
    (shipped plain).1 hi a ha _ (of_decide_eq_true hr)⟩

end SiteBuild

end LivePages
