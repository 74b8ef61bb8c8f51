import LivePages.Proofs.Site.Classification
import LivePages.Proofs.Site.Matching
import LivePages.Proofs.Text.Order

namespace LivePages

section Parts

variable {path rest piece first : String} {pieces : List String}

theorem pathParts_of_isRooted (hr : isRooted path) (e : splitText '/' path = first :: pieces) :
    pathParts path = "/" :: pieces.filter fun piece => !isIdle piece := by
  unfold pathParts
  rw [e]
  simp [hr]

theorem pathParts_of_not_isRooted (hr : ¬ isRooted path) (hne : first ≠ "")
    (e : splitText '/' path = first :: pieces) :
    pathParts path = first :: pieces.filter fun piece => !isIdle piece := by
  unfold pathParts
  rw [e]
  simp [hr, hne]

theorem pathParts_joinPath (hp : path ≠ "") (hr : ¬ isRooted rest) : pathParts (joinPath path rest) =
    pathParts path ++ (splitText '/' rest).filter fun piece => !isIdle piece := by
  obtain ⟨pieces, idle, hne, e, hi, e'⟩ := exists_splitText_joinPath hp hr
  obtain ⟨first, more, rfl⟩ := List.exists_cons_of_ne_nil hne
  have none : idle.filter (fun piece => !isIdle piece) = [] := by
    refine List.filter_eq_nil_iff.mpr fun piece hm => ?_
    rw [hi piece hm]
    decide
  unfold pathParts
  rw [e, e', isRooted_joinPath hp hr]
  simp [none]

theorem pathParts_of_not_mem (hs : '/' ∉ piece.toList) (hne : piece ≠ "") :
    pathParts piece = [piece] :=
  pathParts_of_not_isRooted (not_isRooted_of_not_mem hs) hne (splitText_of_not_mem hs)

theorem filter_isIdle_names {names : List String} (hn : ∀ name ∈ names, IsFileName name) :
    (names.filter fun piece => !isIdle piece) = names := by
  refine List.filter_eq_self.mpr fun name hm => ?_
  simp [(hn name hm).not_isIdle]

theorem SiteFile.IsNamed.pathParts {f : SiteFile} (h : f.IsNamed) : pathParts f.path = f.names := by
  obtain ⟨first, rest, e⟩ := List.exists_cons_of_ne_nil h.ne_nil
  have names := h.names
  rw [e, List.forall_mem_cons] at names
  rw [pathParts_of_not_isRooted h.isPlainPath.not_isRooted names.1.ne_empty (h.splitText.trans e),
    filter_isIdle_names names.2, e]

end Parts

theorem SiteFile.notAfter_iff (f g : SiteFile) : SiteFile.notAfter f g = true ↔ f.names ≤ g.names := by
  unfold SiteFile.notAfter
  rw [bne_iff_ne, Ne, compareSegments_eq_gt, not_lt]

theorem SiteFile.names_injective : Function.Injective SiteFile.names := by
  rintro ⟨names⟩ ⟨names'⟩ h
  exact congrArg SiteFile.mk h

/-- A path that starts with a dot as a piece of its own. -/
def StartsWithDot (site : String) : Prop :=
  (splitText '/' site).head? = some "."

instance (site : String) : Decidable (StartsWithDot site) :=
  inferInstanceAs (Decidable (_ = _))

namespace FileStore

variable {s : FileStore} {site found found' : String} {pieces : List String} {f : SiteFile}

/-- What is found piece by piece has the parts of its start and of the pieces. -/
theorem pathParts_foldlM (hf : found ≠ "") (hd : found ≠ ".")
    (hs : ∀ piece ∈ pieces, '/' ∉ piece.toList) (h : pieces.foldlM s.step? found = some found') :
    found' ≠ "" ∧ found' ≠ "." ∧
      pathParts found' = pathParts found ++ pieces.filter fun piece => !isIdle piece := by
  induction pieces generalizing found with
  | nil =>
    cases h
    exact ⟨hf, hd, (List.append_nil _).symm⟩
  | cons piece pieces ih =>
    rw [List.forall_mem_cons] at hs
    rw [List.foldlM_cons] at h
    obtain ⟨next, hnext, h⟩ := Option.bind_eq_some_iff.mp h
    have hr := not_isRooted_of_not_mem hs.1
    have e : next = joinPath found piece := by
      rw [step?_eq_some hnext, belowSite, if_neg (by simpa using hd)]
    have dot : next ≠ "." := by
      intro hdot
      have slash := slash_mem_joinPath hf hr
      rw [← e, hdot] at slash
      exact absurd slash (by decide)
    obtain ⟨hf', hd', hp⟩ := ih (ne_empty_of_step? hf hs.1 hnext) dot hs.2 h
    refine ⟨hf', hd', ?_⟩
    rw [hp, e, pathParts_joinPath hf hr, splitText_of_not_mem hs.1, List.append_assoc,
      ← List.filter_append, List.singleton_append]

theorem pathParts_foundSite (hne : site ≠ "") (hdot : ¬ StartsWithDot site)
    (h : s.foundSite? site = some found) :
    found ≠ "" ∧ found ≠ "." ∧ pathParts found = pathParts site := by
  have hs : ∀ piece ∈ splitText '/' site, '/' ∉ piece.toList := fun _ => slash_of_mem_splitText
  unfold foundSite? at h
  dsimp only at h
  rw [startsAtRoot_of_ne hne] at h
  split at h
  next hr =>
    obtain ⟨pieces, -, e⟩ := isRooted_iff.mp hr
    rw [e] at hs h
    rw [List.forall_mem_cons] at hs
    obtain ⟨hf, hd, hp⟩ := pathParts_foldlM (by decide) (by decide) hs.2 h
    refine ⟨hf, hd, hp.trans ?_⟩
    rw [pathParts_of_isRooted hr e]
    rfl
  next hr =>
    obtain ⟨first, pieces, e⟩ := List.exists_cons_of_ne_nil (splitText_ne_nil site)
    rw [StartsWithDot, e, List.head?_cons, Option.some.injEq] at hdot
    rw [e] at hs h
    rw [List.forall_mem_cons] at hs
    rw [List.foldlM_cons] at h
    obtain ⟨next, hnext, h⟩ := Option.bind_eq_some_iff.mp h
    cases step?_eq_some hnext
    have hfirst := ne_empty_of_step? (by decide) hs.1 hnext
    obtain ⟨hf, hd, hp⟩ := pathParts_foldlM hfirst hdot hs.2 h
    refine ⟨hf, hd, hp.trans ?_⟩
    have parts : pathParts (belowSite "." first) = [first] := pathParts_of_not_mem hs.1 hfirst
    rw [parts, pathParts_of_not_isRooted hr hfirst e]
    rfl

/-- What is found behind dots does not start with a dot, unless it is the start itself. -/
theorem head_pathParts_foldlM (hs : ∀ piece ∈ pieces, '/' ∉ piece.toList)
    (h : pieces.foldlM s.step? "." = some found) : found = "." ∨
      found ≠ "" ∧ found ≠ "." ∧ ∃ first rest, first ≠ "." ∧ pathParts found = first :: rest := by
  induction pieces with
  | nil =>
    cases h
    exact .inl rfl
  | cons piece pieces ih =>
    rw [List.forall_mem_cons] at hs
    rw [List.foldlM_cons] at h
    obtain ⟨next, hnext, h⟩ := Option.bind_eq_some_iff.mp h
    have hne := ne_empty_of_step? (by decide) hs.1 hnext
    cases step?_eq_some hnext
    by_cases hdot : piece = "."
    · subst hdot
      exact ih hs.2 h
    · obtain ⟨hf, hd, hp⟩ := pathParts_foldlM hne hdot hs.2 h
      have parts : pathParts (belowSite "." piece) = [piece] := pathParts_of_not_mem hs.1 hne
      rw [parts] at hp
      exact .inr ⟨hf, hd, piece, _, hdot, hp⟩

theorem head_pathParts_foundSite (hdot : StartsWithDot site) (h : s.foundSite? site = some found) :
    ¬ isRooted site ∧ (found = "." ∨
      found ≠ "" ∧ found ≠ "." ∧ ∃ first rest, first ≠ "." ∧ pathParts found = first :: rest) := by
  have hr : ¬ isRooted site := by
    intro hr
    rw [StartsWithDot, head_of_isRooted hr] at hdot
    exact absurd hdot (by decide)
  have hne : site ≠ "" := by
    rintro rfl
    exact absurd hdot (by decide)
  unfold foundSite? at h
  dsimp only at h
  rw [startsAtRoot_of_ne hne, if_neg hr] at h
  exact ⟨hr, head_pathParts_foldlM (fun _ => slash_of_mem_splitText) h⟩

theorem ne_empty_of_foundSite (h : s.foundSite? site = some found) : found ≠ "" := by
  by_cases hdot : StartsWithDot site
  · rcases (head_pathParts_foundSite hdot h).2 with rfl | ⟨hf, -⟩
    · decide
    · exact hf
  · by_cases hne : site = ""
    · subst hne
      cases h
      decide
    · exact (pathParts_foundSite hne hdot h).1

/-- The path of a file that was found starts with the parts of the site's path, unless that starts
with a dot. -/
theorem isPrefixOf?_belowSite (hsite : site ≠ "") (h : s.foundSite? site = some found)
    (hn : f.IsNamed) :
    (pathParts site).isPrefixOf? (pathParts (belowSite found f.path)) =
      if StartsWithDot site then none else some f.names := by
  have joined (hf : found ≠ "") (hd : found ≠ ".") :
      pathParts (belowSite found f.path) = pathParts found ++ f.names := by
    rw [belowSite, if_neg (by simpa using hd), pathParts_joinPath hf hn.isPlainPath.not_isRooted,
      hn.splitText, filter_isIdle_names hn.names]
  split
  next hdot =>
    obtain ⟨hr, hfound⟩ := head_pathParts_foundSite hdot h
    obtain ⟨first, rest, hne, e⟩ : ∃ first rest, first ≠ "." ∧
        pathParts (belowSite found f.path) = first :: rest := by
      rcases hfound with rfl | ⟨hf, hd, first, rest, hne, e⟩
      · obtain ⟨first, rest, e⟩ := List.exists_cons_of_ne_nil hn.ne_nil
        exact ⟨first, rest, (hn.names first (e ▸ List.mem_cons_self)).ne_dot, hn.pathParts.trans e⟩
      · exact ⟨first, rest ++ f.names, hne, by rw [joined hf hd, e, List.cons_append]⟩
    obtain ⟨pieces, hs⟩ := List.head?_eq_some_iff.mp hdot
    rw [e, pathParts_of_not_isRooted hr (by decide) hs, List.isPrefixOf?]
    simp [hne.symm]
  next hdot =>
    obtain ⟨hf, hd, hp⟩ := pathParts_foundSite hsite hdot h
    rw [joined hf hd, hp, List.isPrefixOf?_eq_some_iff_append_eq]

theorem siteFile_belowSite (hsite : site ≠ "") (h : s.foundSite? site = some found) (hn : f.IsNamed) :
    siteFile site (belowSite found f.path) =
      if StartsWithDot site then .error (.outside (belowSite found f.path)) else .ok f := by
  unfold siteFile
  rw [isPrefixOf?_belowSite hsite h hn]
  by_cases hdot : StartsWithDot site
  · rw [if_pos hdot, if_pos hdot]
  · rw [if_neg hdot, if_neg hdot]

variable {search : PathSearch} {files : List SiteFile}

/-- The files below what the path of a site leads to. -/
def filesFound (s : FileStore) (site : String) : List SiteFile :=
  (((s.foundSite? site).bind s.get?).map FileTree.siteFiles).getD []

theorem filesFound_of_some (h : s.foundSite? site = some found) :
    s.filesFound site = ((s.get? found).map FileTree.siteFiles).getD [] := by
  rw [filesFound, h, Option.bind_some]

theorem isNamed_of_mem_filesFound (hroot : s.root.Named) (hf : f ∈ s.filesFound site) :
    f.IsNamed := by
  unfold filesFound at hf
  cases h : (s.foundSite? site).bind s.get? with
  | none =>
    rw [h] at hf
    exact absurd hf List.not_mem_nil
  | some t =>
    obtain ⟨found, -, ht⟩ := Option.bind_eq_some_iff.mp h
    rw [h] at hf
    exact (named_of_get? hroot ht).isNamed_of_mem_siteFiles hf

theorem discover_eq_ok (hroot : s.root.Named) (hsite : site ≠ "")
    (h : StartsWithDot site → s.filesFound site = []) : s.discover site = .ok (s.filesFound site) := by
  unfold discover
  split
  next e => rw [filesFound, e]; rfl
  next found e =>
    rw [← filesFound_of_some e]
    dsimp only
    split
    next hnil => rw [hnil]
    next first rest hf =>
      have hn := isNamed_of_mem_filesFound hroot (hf ▸ List.mem_cons_self)
      have hdot : ¬ StartsWithDot site := fun hdot => by simp [h hdot] at hf
      rw [← List.isSome_isPrefixOf?_eq_isPrefixOf, isPrefixOf?_belowSite hsite e hn, if_neg hdot,
        Option.isSome_some, if_pos rfl, if_neg hsite, hf]

theorem discover_eq_error (hroot : s.root.Named) (hsite : site ≠ "") (hdot : StartsWithDot site)
    (hf : s.filesFound site ≠ []) : ∃ path, s.discover site = .error path := by
  unfold discover
  split
  next e =>
    rw [filesFound, e] at hf
    exact absurd rfl hf
  next found e =>
    rw [← filesFound_of_some e]
    dsimp only
    split
    next hnil => exact absurd hnil hf
    next first rest hf =>
      have hn := isNamed_of_mem_filesFound hroot (hf ▸ List.mem_cons_self)
      rw [← List.isSome_isPrefixOf?_eq_isPrefixOf, isPrefixOf?_belowSite hsite e hn, if_pos hdot]
      exact ⟨_, rfl⟩

/-- The path under which a file of a site is found. -/
def pathFound (s : FileStore) (site : String) (f : SiteFile) : String :=
  belowSite ((s.foundSite? site).getD ".") f.path

theorem siteFile_pathFound (hroot : s.root.Named) (hsite : site ≠ "") (hf : f ∈ s.filesFound site) :
    siteFile site (s.pathFound site f) =
      if StartsWithDot site then .error (.outside (s.pathFound site f)) else .ok f := by
  have hn := isNamed_of_mem_filesFound hroot hf
  unfold pathFound
  cases h : s.foundSite? site with
  | none =>
    rw [filesFound, h] at hf
    exact absurd hf List.not_mem_nil
  | some found => exact siteFile_belowSite hsite h hn

theorem pairwise_filesFound (s : FileStore) (site : String) :
    (s.filesFound site).Pairwise fun f g => f.names ≤ g.names := by
  unfold filesFound
  cases (s.foundSite? site).bind s.get? with
  | none => exact .nil
  | some t => exact pairwise_mergeSort_key SiteFile.notAfter_iff _

theorem mergeSort_filesFound (s : FileStore) (site : String) :
    (s.filesFound site).mergeSort SiteFile.notAfter = s.filesFound site :=
  List.mergeSort_of_pairwise
    ((pairwise_filesFound s site).imp fun {f g} => (SiteFile.notAfter_iff f g).mpr)

section Search

variable (hsearch : search.FindsBelow) (hroot : s.root.Named) (hne : site ≠ "")
include hsearch hroot hne

/-- The regular files among the paths that a search finds are the files of the site. -/
theorem exists_search : ∃ paths, search s (escapePattern site ++ everythingBelow) = some paths ∧
    (paths.filter s.hasFile).Perm ((s.filesFound site).map (s.pathFound site)) := by
  obtain ⟨paths, hpaths, hp⟩ :=
    hsearch s _ _ hroot (escapePattern_ne_empty hne) (matchesBelow_escapePattern hroot site)
  refine ⟨paths, hpaths, (hp.filter s.hasFile).trans ?_⟩
  unfold pathFound
  cases h : s.foundSite? site with
  | none =>
    rw [filesFound, h]
    exact .refl _
  | some found =>
    rw [filesFound_of_some h, Option.toList_some, List.flatMap_singleton]
    exact filter_pathsBelow hroot (ne_empty_of_foundSite h)

theorem discoverBy_eq_ok (h : StartsWithDot site → s.filesFound site = []) :
    s.discoverBy search site = .ok (s.filesFound site) := by
  obtain ⟨paths, hpaths, hp⟩ := exists_search hsearch hroot hne
  have each : List.Forall₂ (fun path f => siteFile site path = .ok f)
      ((s.filesFound site).map (s.pathFound site)) (s.filesFound site) := by
    rw [List.forall₂_map_left_iff, List.forall₂_same]
    intro f hf
    rw [siteFile_pathFound hroot hne hf, if_neg fun hdot => by simp [h hdot] at hf]
  obtain ⟨files, hfiles, hperm⟩ := List.perm_comp_forall₂ hp each
  have sorted := (mergeSort_eq_iff SiteFile.notAfter_iff SiteFile.names_injective).mpr hperm
  unfold discoverBy
  rw [hpaths]
  dsimp only
  rw [mapM_eq_ok.mpr hfiles, ok_bind, sorted, mergeSort_filesFound]
  rfl

theorem discoverBy_eq_error (hdot : StartsWithDot site) (hf : s.filesFound site ≠ []) :
    ∃ fault, s.discoverBy search site = .error fault := by
  obtain ⟨paths, hpaths, hp⟩ := exists_search hsearch hroot hne
  obtain ⟨first, rest, e⟩ := List.exists_cons_of_ne_nil (l := paths.filter s.hasFile) (by
    intro hnil
    rw [hnil] at hp
    exact hf (List.map_eq_nil_iff.mp hp.symm.eq_nil))
  obtain ⟨f, hf, rfl⟩ := List.mem_map.mp (hp.mem_iff.mp (e ▸ List.mem_cons_self))
  unfold discoverBy
  rw [hpaths]
  dsimp only
  rw [e, List.mapM_cons, siteFile_pathFound hroot hne hf, if_pos hdot]
  exact ⟨_, rfl⟩

end Search

/-- Whatever the search, as long as it finds what it is documented to find, the answer is the same. -/
theorem discoverBy_eq_ok_iff (hsearch : search.FindsBelow) (hroot : s.root.Named) (hne : site ≠ "") :
    s.discoverBy search site = .ok files ↔ s.discover site = .ok files := by
  by_cases h : StartsWithDot site → s.filesFound site = []
  · rw [discoverBy_eq_ok hsearch hroot hne h, discover_eq_ok hroot hne h, Except.ok.injEq, Except.ok.injEq]
  · obtain ⟨hdot, hf⟩ := Classical.not_imp.mp h
    obtain ⟨fault, e⟩ := discoverBy_eq_error hsearch hroot hne hdot hf
    obtain ⟨path, e'⟩ := discover_eq_error hroot hne hdot hf
    rw [e, e']
    exact iff_of_false (fun h => nomatch h) fun h => nomatch h

/-- The files below the directory that a path leads to, as a site shows them: each once under its
names, in the order of the names, the pages known by their extension, and each page with its
address. -/
structure ShowsSite (s : FileStore) (site : String) (files : List SiteFile) : Prop where
  mem : ∀ f, f ∈ files ↔ f.IsNamed ∧ ∃ c, s.node? (joinPath site f.path) = some (.file c)
  nodup : files.Nodup
  sorted : files.Pairwise fun f g => f.names < g.names
  page : ∀ f ∈ files, f.isPage ↔ ∃ stem, stem ≠ "" ∧ f.names.getLast? = some (stem ++ ".html")
  index : ∀ f ∈ files, ∀ parents, f.names = parents ++ ["index.html"] →
    f.address = String.join (parents.map (· ++ "/"))
  address : ∀ f ∈ files, f.names.getLast? ≠ some "index.html" → f.address = f.path

theorem isFindable_of_not_startsWithDot (hne : site ≠ "") (h : ¬ StartsWithDot site) :
    IsFindable site := by
  by_cases hr : isRooted site
  · exact .inl hr
  · refine .inr ?_
    obtain ⟨first, pieces, e⟩ := List.exists_cons_of_ne_nil (splitText_ne_nil site)
    rw [StartsWithDot, e, List.head?_cons, Option.some.injEq] at h
    rw [e, List.dropWhile_cons_of_neg (by simpa using h), List.head?_cons, Ne, Option.some.injEq]
    rintro rfl
    rw [isRooted_iff, e] at hr
    have single : pieces = [] := not_not.mp fun hp => hr ⟨pieces, hp, rfl⟩
    exact hne (eq_empty_of_splitText (e.trans (by rw [single])))

theorem mem_filesFound (hroot : s.root.Named) (hs : IsFindable site) : f ∈ s.filesFound site ↔
    f.IsNamed ∧ ∃ c, s.node? (joinPath site f.path) = some (.file c) := by
  rw [filesFound, get?_foundSite hs]
  exact mem_siteFiles_get? hroot (ne_empty_of_isFindable hs)

theorem filesFound_eq_nil (hroot : s.root.Named) (hne : site ≠ "")
    (h : ∀ f : SiteFile, f.IsNamed → ∀ c, s.node? (joinPath site f.path) ≠ some (.file c)) :
    s.filesFound site = [] := by
  refine List.eq_nil_iff_forall_not_mem.mpr fun f hf => ?_
  by_cases hs : IsFindable site
  · obtain ⟨hn, c, hc⟩ := (mem_filesFound hroot hs).mp hf
    exact h f hn c hc
  · rw [filesFound, foundSite?_eq_none hne hs] at hf
    exact List.not_mem_nil hf

theorem nodup_filesFound (hroot : s.root.Named) (site : String) : (s.filesFound site).Nodup := by
  unfold filesFound
  cases h : (s.foundSite? site).bind s.get? with
  | none => exact .nil
  | some t =>
    obtain ⟨found, -, ht⟩ := Option.bind_eq_some_iff.mp h
    exact FileTree.nodup_siteFiles (named_of_get? hroot ht)

theorem showsSite_filesFound (hroot : s.root.Named)
    (hm : ∀ f, f ∈ s.filesFound site ↔ f.IsNamed ∧ ∃ c, s.node? (joinPath site f.path) = some (.file c)) :
    s.ShowsSite site (s.filesFound site) where
  mem := hm
  nodup := nodup_filesFound hroot site
  sorted := by
    refine ((pairwise_filesFound s site).and (nodup_filesFound hroot site)).imp ?_
    rintro f g ⟨hle, hne⟩
    exact lt_of_le_of_ne hle fun e => hne (SiteFile.names_injective e)
  page f _ := f.isPage_iff
  index _ _ _ h := SiteFile.address_index h
  address f hf h := SiteFile.address_of_ne_index ((hm f).mp hf).1.head_ne_root h

/-- A site is found as it is exactly if its path does not start with a dot, or there is no file below
it. -/
theorem discoverBy_showsSite_iff (hsearch : search.FindsBelow) (hroot : s.root.Named)
    (hne : site ≠ "") :
    (∃ files, s.discoverBy search site = .ok files ∧ s.ShowsSite site files) ↔
      (StartsWithDot site →
        ∀ f : SiteFile, f.IsNamed → ∀ c, s.node? (joinPath site f.path) ≠ some (.file c)) := by
  constructor
  · rintro ⟨files, hfiles, hshows⟩ hdot f hn c hc
    have hf := (hshows.mem f).mpr ⟨hn, c, hc⟩
    by_cases hnil : s.filesFound site = []
    · rw [discoverBy_eq_ok hsearch hroot hne fun _ => hnil, hnil] at hfiles
      cases hfiles
      exact List.not_mem_nil hf
    · obtain ⟨fault, e⟩ := discoverBy_eq_error hsearch hroot hne hdot hnil
      cases e.symm.trans hfiles
  · intro h
    by_cases hdot : StartsWithDot site
    · have hnil := filesFound_eq_nil hroot hne (h hdot)
      refine ⟨_, discoverBy_eq_ok hsearch hroot hne fun _ => hnil, showsSite_filesFound hroot fun f => ?_⟩
      rw [hnil]
      refine iff_of_false List.not_mem_nil ?_
      rintro ⟨hn, c, hc⟩
      exact h hdot f hn c hc
    · refine ⟨_, discoverBy_eq_ok hsearch hroot hne fun hd => absurd hd hdot, ?_⟩
      exact showsSite_filesFound hroot fun f =>
        mem_filesFound hroot (isFindable_of_not_startsWithDot hne hdot)

/-- A site with special characters in its name, hidden files and a directory named like a page. -/
def markedSite : FileStore where
  root := .directory [("s[1]*", .directory [
    (".hidden", .file [0]), ("a.html", .directory [("x", .file [1])]),
    ("guide", .directory [("index.html", .file [2])]), (".html", .file [3])])]
  here := []

theorem named_markedSite : markedSite.root.Named := by
  have page : (FileTree.directory [("x", .file [1])]).Named :=
    .directory (by decide) (by decide) (by simp [FileTree.Named.file])
  have guide : (FileTree.directory [("index.html", .file [2])]).Named :=
    .directory (by decide) (by decide) (by simp [FileTree.Named.file])
  have site : (FileTree.directory [
      (".hidden", .file [0]), ("a.html", .directory [("x", .file [1])]),
      ("guide", .directory [("index.html", .file [2])]), (".html", .file [3])]).Named :=
    .directory (by decide) (by decide) (by simp [FileTree.Named.file, page, guide])
  exact .directory (by decide) (by decide) (by simp [site])

end FileStore

/-- With a slash at its end the path of the site serves, with a dot at its start it does not. -/
theorem showsSite_markedSite : PathSearch.FindsBelow searchBelow ∧
    FileStore.markedSite.root.Named ∧ "s[1]*/" ≠ "" ∧ "./s[1]*" ≠ "" ∧
      (∃ files, FileStore.markedSite.discoverBy searchBelow "s[1]*/" = .ok files ∧
        FileStore.markedSite.ShowsSite "s[1]*/" files) ∧
      ¬ ∃ files, FileStore.markedSite.discoverBy searchBelow "./s[1]*" = .ok files ∧
        FileStore.markedSite.ShowsSite "./s[1]*" files := by
  have finds := findsBelow_searchBelow
  have named := FileStore.named_markedSite
  have plain : "s[1]*/" ≠ "" := by decide
  have dotted : "./s[1]*" ≠ "" := by decide
  refine ⟨finds, named, plain, dotted, ?_, ?_⟩
  · refine (FileStore.discoverBy_showsSite_iff finds named plain).mpr fun hdot => ?_
    exact absurd hdot (by decide)
  · intro h
    have none := (FileStore.discoverBy_showsSite_iff finds named dotted).mp h (by decide)
    have hn : SiteFile.IsNamed ⟨[".hidden"]⟩ := ⟨by decide, by decide⟩
    exact none ⟨[".hidden"]⟩ hn [0] (by decide +kernel)

end LivePages
