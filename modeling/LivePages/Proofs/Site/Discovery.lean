import LivePages.Proofs.Files.Tree
import LivePages.Proofs.Site.References

namespace LivePages

theorem IsFileName.isSegment {name : String} (h : IsFileName name) : isSegment name.toList := by
  have empty : name.toList ≠ [] := by
    intro e
    exact h.ne_empty (String.toList_inj.mp e)
  have dot : name.toList ≠ ['.'] := by
    intro e
    exact h.ne_dot (String.toList_inj.mp e)
  unfold LivePages.isSegment
  simp [empty, dot]

namespace FileTree

variable {t : FileTree} {f g : SiteFile}

/-- The files of a tree, before they are sorted. -/
theorem map_names_siteFiles (t : FileTree) : (t.siteFiles.map SiteFile.names).Perm
    ((t.contents.filter fun entry => entry.2.isFile).map Prod.fst) := by
  unfold siteFiles
  refine ((List.mergeSort_perm _ _).map _).trans (.of_eq ?_)
  induction t.contents with
  | nil => rfl
  | cons entry contents ih =>
    obtain ⟨names, u⟩ := entry
    cases u with
    | file content => exact congrArg (names :: ·) ih
    | directory entries => exact ih

theorem mem_siteFiles (h : t.Named) :
    f ∈ t.siteFiles ↔ f.names ≠ [] ∧ ∃ content, t.find? f.names = some (file content) := by
  have names : f ∈ t.siteFiles ↔ f.names ∈ t.siteFiles.map SiteFile.names := by
    rw [List.mem_map]
    constructor
    · intro hm
      exact ⟨f, hm, rfl⟩
    · rintro ⟨⟨names⟩, hm, e⟩
      obtain ⟨_⟩ := f
      cases e
      exact hm
  rw [names, (map_names_siteFiles t).mem_iff, List.mem_map]
  constructor
  · rintro ⟨⟨place, u⟩, hm, rfl⟩
    obtain ⟨hm, hu⟩ := List.mem_filter.mp hm
    obtain ⟨hne, hf⟩ := h.mem_contents.mp hm
    cases u with
    | file content => exact ⟨hne, content, hf⟩
    | directory entries => cases hu
  · rintro ⟨hne, content, hf⟩
    exact ⟨(f.names, file content), List.mem_filter.mpr ⟨h.mem_contents.mpr ⟨hne, hf⟩, rfl⟩, rfl⟩

theorem nodup_siteFiles (h : t.Named) : t.siteFiles.Nodup := by
  apply List.Nodup.of_map SiteFile.names
  rw [(map_names_siteFiles t).nodup_iff]
  exact h.nodup_contents.sublist (List.filter_sublist.map _)

/-- The names on the way to a file of a site are segments of an address. -/
theorem proper_of_mem_siteFiles (h : t.Named) (hf : f ∈ t.siteFiles) : f.Proper := by
  obtain ⟨hne, content, hfind⟩ := (mem_siteFiles h).mp hf
  obtain ⟨-, names⟩ := h.find? hfind
  refine ⟨hne, ?_⟩
  intro name hn
  exact ⟨(names name hn).isSegment, (names name hn).slash⟩

/-- No file of a site is above another one. -/
theorem eq_of_prefix (h : t.Named) (hf : f ∈ t.siteFiles) (hg : g ∈ t.siteFiles)
    (hp : f.names <+: g.names) : f = g := by
  obtain ⟨-, content, hfind⟩ := (mem_siteFiles h).mp hf
  obtain ⟨-, content', hfind'⟩ := (mem_siteFiles h).mp hg
  obtain ⟨rest, e⟩ := hp
  by_cases hr : rest = []
  · rw [hr, List.append_nil] at e
    obtain ⟨names⟩ := f
    obtain ⟨names'⟩ := g
    exact congrArg SiteFile.mk e
  · have found : t.node? (f.names ++ rest) ≠ none := by
      rw [node?, e, hfind']
      simp
    have directory := node?_parent found hr
    rw [node?, hfind] at directory
    cases directory

end FileTree

namespace SiteFile

/-- Where no file is above another one, no two files have one address. The index of a directory has
the address of the directory, which is no file. -/
theorem eq_of_address {f g : SiteFile} (hf : f.Proper) (hg : g.Proper)
    (hfg : f.names <+: g.names → f = g) (hgf : g.names <+: f.names → g = f)
    (h : PageUrl.ofText f.address = PageUrl.ofText g.address) : f = g := by
  have segments := congrArg PageUrl.segments h
  have index {f : SiteFile} (hi : f.IsIndex) : f.names = f.directory ++ ["index.html"] :=
    (List.dropLast_append_getLast? _ hi).symm
  by_cases hi : f.IsIndex
  · rw [segments_of_isIndex hf hi] at segments
    by_cases hj : g.IsIndex
    · rw [segments_of_isIndex hg hj] at segments
      apply hfg
      rw [index hi, index hj, segments]
    · rw [segments_of_not_isIndex hg hj] at segments
      refine (hgf ?_).symm
      rw [← segments]
      exact List.dropLast_prefix _
  · rw [segments_of_not_isIndex hf hi] at segments
    by_cases hj : g.IsIndex
    · rw [segments_of_isIndex hg hj] at segments
      apply hfg
      rw [segments]
      exact List.dropLast_prefix _
    · rw [segments_of_not_isIndex hg hj] at segments
      exact hfg (segments ▸ List.prefix_refl _)

theorem fromRoot_injective : Function.Injective fromRoot := by
  rintro ⟨names⟩ ⟨names'⟩ h
  exact congrArg mk (List.cons.inj (congrArg SiteFile.names h)).2

theorem segmentsOf_intercalate_root (names : List String) :
    segmentsOf ("/".intercalate ("/" :: names)) = segmentsOf ("/".intercalate names) := by
  cases names with
  | nil => decide
  | cons name names =>
    rw [String.intercalate_cons_cons, segmentsOf_append]
    exact List.nil_append _

/-- The root is no part of an address. -/
theorem ofText_address_fromRoot {f : SiteFile} (hf : f.names ≠ []) :
    PageUrl.ofText f.fromRoot.address = PageUrl.ofText f.address := by
  obtain ⟨before, last, e⟩ := List.eq_nil_or_concat' f.names |>.resolve_left hf
  have names : f.fromRoot.names = ("/" :: before) ++ [last] := congrArg ("/" :: ·) e
  have segments : segmentsOf f.fromRoot.address = segmentsOf f.address := by
    unfold address publishedAddress
    rw [names, e, List.getLast?_concat, List.getLast?_concat]
    dsimp only
    split
    next =>
      rw [List.dropLast_concat, List.dropLast_concat, if_neg (by simp)]
      cases before with
      | nil => exact show segmentsOf "//" = segmentsOf "" by decide
      | cons first before =>
        have slash (text : String) : segmentsOf (text ++ "/") = segmentsOf text := by
          have parts := segmentsOf_append text ""
          rw [String.append_empty] at parts
          rw [parts]
          exact List.append_nil _
        rw [if_neg (by simp), slash, slash, segmentsOf_intercalate_root]
    next => exact segmentsOf_intercalate_root _
  rw [PageUrl.ofText, PageUrl.ofText, segments]

end SiteFile

namespace FileStore

variable {s : FileStore} {site : String} {files : List SiteFile} {f g : SiteFile}

/-- The files of a site are all files of one tree, under an empty path by their names from the root
on. -/
theorem exists_siteFiles (hs : s.root.Named) (h : s.discover site = .ok files) :
    ∃ t : FileTree, t.Named ∧
      files = if site = "" then t.siteFiles.map SiteFile.fromRoot else t.siteFiles := by
  have none : ∃ t : FileTree, t.Named ∧
      [] = if site = "" then t.siteFiles.map SiteFile.fromRoot else t.siteFiles := by
    have empty : (FileTree.file []).siteFiles = [] := by simp [FileTree.siteFiles, FileTree.contents]
    exact ⟨.file [], .file [], by simp [empty]⟩
  unfold discover at h
  split at h
  next =>
    cases h
    exact none
  next found _ =>
    dsimp only at h
    split at h
    next =>
      cases h
      exact none
    next first rest e =>
      split at h
      next =>
        cases h
        cases ht : s.get? found with
        | none =>
          rw [ht] at e
          cases e
        | some t =>
          rw [ht] at e
          have named : t.Named := by
            unfold get? at ht
            split at ht
            next => exact (hs.find? ht).1
            next => cases ht
          exact ⟨t, named, rfl⟩
      next => cases h

theorem exists_siteFiles_of_ne (hs : s.root.Named) (hne : site ≠ "")
    (h : s.discover site = .ok files) : ∃ t : FileTree, t.Named ∧ files = t.siteFiles := by
  obtain ⟨t, ht, e⟩ := exists_siteFiles hs h
  rw [if_neg hne] at e
  exact ⟨t, ht, e⟩

theorem nodup_discover (hs : s.root.Named) (h : s.discover site = .ok files) : files.Nodup := by
  obtain ⟨t, ht, rfl⟩ := exists_siteFiles hs h
  have nodup := FileTree.nodup_siteFiles ht
  split
  next => exact nodup.map SiteFile.fromRoot_injective
  next => exact nodup

theorem eq_of_prefix_discover (hs : s.root.Named) (h : s.discover site = .ok files) (hf : f ∈ files)
    (hg : g ∈ files) (hp : f.names <+: g.names) : f = g := by
  obtain ⟨t, ht, rfl⟩ := exists_siteFiles hs h
  by_cases hsite : site = ""
  · rw [if_pos hsite] at hf hg
    obtain ⟨f, hf', rfl⟩ := List.mem_map.mp hf
    obtain ⟨g, hg', rfl⟩ := List.mem_map.mp hg
    rw [FileTree.eq_of_prefix ht hf' hg' (List.cons_prefix_cons.mp hp).2]
  · rw [if_neg hsite] at hf hg
    exact FileTree.eq_of_prefix ht hf hg hp

theorem eq_of_address_discover (hs : s.root.Named) (h : s.discover site = .ok files) (hf : f ∈ files)
    (hg : g ∈ files) (ha : PageUrl.ofText f.address = PageUrl.ofText g.address) : f = g := by
  obtain ⟨t, ht, rfl⟩ := exists_siteFiles hs h
  have same {f g : SiteFile} (hf : f ∈ t.siteFiles) (hg : g ∈ t.siteFiles)
      (ha : PageUrl.ofText f.address = PageUrl.ofText g.address) : f = g :=
    SiteFile.eq_of_address (FileTree.proper_of_mem_siteFiles ht hf)
      (FileTree.proper_of_mem_siteFiles ht hg) (FileTree.eq_of_prefix ht hf hg)
      (FileTree.eq_of_prefix ht hg hf) ha
  by_cases hsite : site = ""
  · rw [if_pos hsite] at hf hg
    obtain ⟨f, hf', rfl⟩ := List.mem_map.mp hf
    obtain ⟨g, hg', rfl⟩ := List.mem_map.mp hg
    rw [SiteFile.ofText_address_fromRoot (FileTree.proper_of_mem_siteFiles ht hf').named,
      SiteFile.ofText_address_fromRoot (FileTree.proper_of_mem_siteFiles ht hg').named] at ha
    rw [same hf' hg' ha]
  · rw [if_neg hsite] at hf hg
    exact same hf hg ha

/-- The pages of a site have different addresses. -/
theorem pairwise_address_discover (hs : s.root.Named) (h : s.discover site = .ok files) :
    files.Pairwise fun f g => PageUrl.ofText f.address ≠ PageUrl.ofText g.address := by
  refine (nodup_discover hs h).imp_of_mem ?_
  intro f g hf hg hne he
  exact hne (eq_of_address_discover hs h hf hg he)

end FileStore

end LivePages
