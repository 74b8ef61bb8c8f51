import LivePages.Proofs.Page.References
import LivePages.Proofs.Page.Resolution
import LivePages.Proofs.Site.Run
import LivePages.Site.Discovery

namespace LivePages

namespace SiteFile

variable {f : SiteFile} {text : String}

/-- The names on the way to a file are segments of an address. -/
structure Proper (f : SiteFile) : Prop where
  named : f.names ≠ []
  names : PageUrl.Proper ⟨f.names⟩

/-- The directory that a file is in, as its names from the root. -/
def directory (f : SiteFile) : List String :=
  f.names.dropLast

/-- A file stands for its directory. -/
def IsIndex (f : SiteFile) : Prop :=
  f.names.getLast? = some "index.html"

theorem segments_of_isIndex (hf : f.Proper) (h : f.IsIndex) :
    (PageUrl.ofText f.address).segments = f.directory := by
  have hd : PageUrl.Proper ⟨f.directory⟩ := fun name hn => hf.names name (List.dropLast_subset _ hn)
  have ha : f.address =
      if f.names.length = 1 then "" else "/".intercalate f.directory ++ "/" := by
    rw [address, publishedAddress, h]
    rfl
  rw [ha, PageUrl.ofText]
  split
  next hl =>
    obtain ⟨name, e⟩ := List.length_eq_one_iff.mp hl
    rw [directory, e]
    exact show segmentsOf "" = [] by decide
  next =>
    have hs := segmentsOf_append ("/".intercalate f.directory) ""
    rw [String.append_empty] at hs
    dsimp only
    rw [hs, hd.segmentsOf_intercalate]
    exact List.append_nil _

theorem segments_of_not_isIndex (hf : f.Proper) (h : ¬ f.IsIndex) :
    (PageUrl.ofText f.address).segments = f.names := by
  have hl := List.getLast?_eq_some_getLast hf.named
  have hne : ¬ (f.names.getLast hf.named == "index.html") = true := by
    rw [beq_iff_eq]
    exact fun e => h (hl.trans (congrArg some e))
  rw [address, publishedAddress, hl]
  dsimp only
  rw [if_neg hne]
  exact hf.names.segmentsOf_intercalate

/-- A reference from the index of a directory leads to its target. -/
theorem resolve_of_isIndex (hf : f.Proper) (h : f.IsIndex) (ht : ".." ∉ segmentsOf text) :
    resolve f.directory ((PageUrl.ofText f.address).relative text) = some (segmentsOf text) := by
  rw [← segments_of_isIndex hf h]
  exact PageUrl.resolve_relative ht

/-- A reference from another page is meant for a directory of the page's own name, and the page is
above that directory. -/
theorem length_resolve_of_not_isIndex (hf : f.Proper) (h : ¬ f.IsIndex)
    (ht : ".." ∉ segmentsOf text) {place : List String}
    (hp : resolve f.directory ((PageUrl.ofText f.address).relative text) = some place) :
    place.length + 1 = (segmentsOf text).length := by
  have hs := segments_of_not_isIndex hf h
  rw [directory, ← hs] at hp
  exact PageUrl.length_resolve_relative (hs ▸ hf.named) ht hp

end SiteFile

namespace CompiledPage

variable {page : CompiledPage}

/-- The scripts of the session and of the classes of a page's widgets. -/
def scripts (page : CompiledPage) : List String :=
  roomConnectionAsset :: page.widgets.flatMap fun w => [widgetAsset, w.content.className ++ ".js"]

/-- What the widgets of a page load from libraries. -/
def libraryReferences (page : CompiledPage) : List String :=
  page.widgets.flatMap fun w =>
    (w.content.libraryTemplates page.url).flatMap Template.references

theorem segmentsOf_script {asset : String} (h : asset ∈ page.scripts) :
    segmentsOf ("/" ++ asset) = [asset] ∧ asset ≠ ".." := by
  rcases List.mem_cons.mp h with rfl | h
  · decide
  · obtain ⟨w, -, h⟩ := List.mem_flatMap.mp h
    simp only [List.mem_cons, List.not_mem_nil, or_false] at h
    rcases h with rfl | rfl
    · decide
    · cases w.content <;>
      · rw [WidgetContent.className]
        decide

theorem mem_references {reference : String} (hu : ∀ w ∈ page.widgets, w.page = page.url)
    (h : reference ∈ page.headTemplates.flatMap Template.references) :
    reference ∈ page.libraryReferences ∨
      ∃ asset ∈ page.scripts, reference = page.url.relative ("/" ++ asset) := by
  rw [headTemplates, List.flatMap_append] at h
  rcases List.mem_append.mp h with h | h
  · have h : reference ∈ [page.url.relative ("/" ++ roomConnectionAsset)] := h
    exact .inr ⟨_, List.mem_cons_self, List.mem_singleton.mp h⟩
  · obtain ⟨a, ha, hr⟩ := List.mem_flatMap.mp h
    obtain ⟨w, hw, ha⟩ := List.mem_flatMap.mp ha
    rw [WidgetDescriptor.headTemplates, hu w hw, WidgetContent.headTemplates] at ha
    have own {asset : String} (hm : asset ∈ [widgetAsset, w.content.className ++ ".js"]) :
        asset ∈ page.scripts := List.mem_cons_of_mem _ (List.mem_flatMap.mpr ⟨w, hw, hm⟩)
    rcases List.mem_append.mp ha with ha | ha
    · simp only [List.mem_cons, List.not_mem_nil, or_false] at ha
      rcases ha with rfl | rfl
      · exact .inr ⟨widgetAsset, own (by simp), List.mem_singleton.mp hr⟩
      · refine .inr ⟨w.content.className ++ ".js", own (by simp), ?_⟩
        rw [← String.append_assoc]
        exact List.mem_singleton.mp hr
    · exact .inl (List.mem_flatMap.mpr ⟨w, hw, List.mem_flatMap.mpr ⟨a, ha, hr⟩⟩)

end CompiledPage

namespace Document

variable {d : Document} {f : SiteFile} {s : Settings} {page : CompiledPage}

/-- What a page gets refers to libraries or to the scripts of its session and its widgets. Beside a
page that is the index of its directory all these scripts are found; from another page their
references lead to the root, if not above it. -/
theorem references_compile (hf : f.Proper) (h : d.compile (.ofText f.address) s = .ok page) :
    (∀ n reference, d.tree.size ≤ n → reference ∈ page.document.tree.references n →
      reference ∈ page.libraryReferences ∨
        ∃ asset ∈ page.scripts, reference = page.url.relative ("/" ++ asset)) ∧
    ∀ asset ∈ page.scripts,
      (f.IsIndex → resolve f.directory (page.url.relative ("/" ++ asset)) = some [asset]) ∧
      (¬ f.IsIndex → resolve f.directory (page.url.relative ("/" ++ asset)) = none ∨
        resolve f.directory (page.url.relative ("/" ++ asset)) = some []) := by
  have hu := url_compile h
  refine ⟨fun n reference hn hr => ?_, fun asset ha => ?_⟩
  · have hw (w) (hw : w ∈ page.widgets) : w.page = page.url := (page_of_mem_widgets h hw).trans hu.symm
    exact CompiledPage.mem_references hw (confined_compile h n hn hr)
  · obtain ⟨hs, hne⟩ := CompiledPage.segmentsOf_script ha
    have ht : ".." ∉ segmentsOf ("/" ++ asset) := by
      rw [hs, List.mem_singleton]
      exact hne.symm
    rw [hu]
    refine ⟨fun hi => hs ▸ SiteFile.resolve_of_isIndex hf hi ht, fun hi => ?_⟩
    cases hp : resolve f.directory ((PageUrl.ofText f.address).relative ("/" ++ asset)) with
    | none => exact .inl rfl
    | some place =>
      have hl := SiteFile.length_resolve_of_not_isIndex hf hi ht hp
      rw [hs, List.length_singleton] at hl
      exact .inr (congrArg some (List.length_eq_zero_iff.mp (by omega)))

/-- A page that is not the index of its directory. -/
def besideIndex : SiteFile :=
  ⟨["guide", "x.html"]⟩

theorem references_besideIndex : ∃ page, besideIndex.Proper ∧
    buttonPage.compile (.ofText besideIndex.address) .default = .ok page ∧
    (∃ n, buttonPage.tree.size ≤ n ∧
      "../../RoomConnection.js" ∈ page.document.tree.references n) ∧
    (resolve besideIndex.directory "../../RoomConnection.js" = none ∨
      resolve besideIndex.directory "../../RoomConnection.js" = some []) := by
  have hf : besideIndex.Proper := ⟨List.cons_ne_nil _ _, by unfold PageUrl.Proper; decide⟩
  have hi : ¬ besideIndex.IsIndex := by
    unfold SiteFile.IsIndex
    decide
  have hnew : (buttonPage.compile (.ofText besideIndex.address) .default).toOption.any fun page =>
      (List.range page.document.tree.size).any fun n => decide (buttonPage.tree.size ≤ n ∧
        "../../RoomConnection.js" ∈ page.document.tree.references n) := by
    decide +kernel
  obtain ⟨page, h, hany⟩ := exists_ok hnew
  obtain ⟨n, -, hn⟩ := List.any_eq_true.mp hany
  have hr : page.url.relative ("/" ++ roomConnectionAsset) = "../../RoomConnection.js" := by
    rw [url_compile h]
    decide +kernel
  have hp := ((references_compile hf h).2 roomConnectionAsset List.mem_cons_self).2 hi
  rw [hr] at hp
  exact ⟨page, hf, h, ⟨n, of_decide_eq_true hn⟩, hp⟩

end Document

end LivePages
