import LivePages.Proofs.Page.Discovery
import LivePages.Proofs.Text.Map

namespace LivePages

namespace AssetSet

variable {a b : AssetSet} {path : String}

theorem mem_paths : path ∈ a.paths ↔ a.contains path :=
  TextMap.contains_iff.symm

theorem contains_insertAll (a : AssetSet) (path : String) (paths : List String) :
    (a.insertAll paths).contains path ↔ a.contains path ∨ path ∈ paths := by
  induction paths generalizing a with
  | nil => simp [insertAll]
  | cons p paths ih =>
    have hp : (a.insert p).contains path ↔ path = p ∨ a.contains path := by
      rw [contains, insert, TextMap.contains_insert, Bool.or_eq_true, beq_iff_eq, contains]
    rw [insertAll, List.foldl_cons, ← insertAll, ih, hp, List.mem_cons, or_assoc, or_left_comm]

theorem contains_union (a b : AssetSet) (path : String) :
    (a.union b).contains path ↔ a.contains path ∨ b.contains path := by
  rw [union, contains_insertAll, mem_paths]

theorem not_contains_empty (path : String) : ¬ empty.contains path :=
  Bool.false_ne_true

theorem isEmpty_iff : a.isEmpty ↔ ∀ path, ¬ a.contains path := by
  simp only [← mem_paths]
  exact TextMap.isEmpty_iff

theorem eq_of_contains (h : ∀ path, a.contains path ↔ b.contains path) : a = b := by
  obtain ⟨m⟩ := a
  obtain ⟨m'⟩ := b
  refine congrArg mk (TextMap.eq_of_lookup fun path => ?_)
  have h : (m.lookup path).isSome = (m'.lookup path).isSome := Bool.eq_iff_iff.mpr (h path)
  cases e : m.lookup path <;> cases e' : m'.lookup path <;> simp [e, e'] at h ⊢

end AssetSet

namespace Document

variable {d : Document} {url : PageUrl} {s : Settings} {page : CompiledPage} {path : String}

theorem contains_widgetAssets (ws : List WidgetDescriptor) (path : String) :
    (widgetAssets ws).contains path ↔
      path = roomConnectionAsset ∨ ∃ w ∈ ws, path ∈ w.content.assets := by
  have added (a : AssetSet) : (ws.foldl (fun a w => a.insertAll w.content.assets) a).contains path ↔
      a.contains path ∨ ∃ w ∈ ws, path ∈ w.content.assets := by
    induction ws generalizing a with
    | nil => simp
    | cons w ws ih =>
      rw [List.foldl_cons, ih, AssetSet.contains_insertAll, or_assoc, List.exists_mem_cons_iff]
  rw [widgetAssets, added, AssetSet.ofList, AssetSet.contains_insertAll, List.mem_singleton,
    or_iff_right (AssetSet.not_contains_empty path)]

/-- A page needs what connects it to its room and what its widgets need, or nothing at all. -/
theorem contains_assets (h : d.compile url s = .ok page) : page.assets.contains path ↔
    page.isInteractive ∧
      (path = roomConnectionAsset ∨ ∃ w ∈ page.widgets, path ∈ w.content.assets) := by
  by_cases hw : page.widgets = []
  · rw [eq_of_compile_nil h hw]
    simp [CompiledPage.isInteractive, AssetSet.not_contains_empty]
  · have hi : page.isInteractive := CompiledPage.isInteractive_iff.mpr hw
    have ha : page.assets = widgetAssets page.widgets :=
      congrArg CompiledPage.assets (of_compile h hw).2.2
    rw [ha, contains_widgetAssets, and_iff_right hi]

end Document

end LivePages
