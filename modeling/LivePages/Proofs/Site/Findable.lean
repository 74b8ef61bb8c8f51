import LivePages.Proofs.Files.Writing
import LivePages.Proofs.Site.Classification
import LivePages.Proofs.Site.Discovery

namespace LivePages

/-- A file to which names lead. -/
structure SiteFile.IsNamed (f : SiteFile) : Prop where
  ne_nil : f.names ≠ []
  names : ∀ name ∈ f.names, IsFileName name

namespace SiteFile.IsNamed

variable {f : SiteFile} (h : f.IsNamed)
include h

theorem head_ne_root : f.names.head? ≠ some "/" := by
  intro e
  exact absurd (h.names "/" (List.mem_of_head? e)).slash (by decide)

theorem path_eq : f.path = "/".intercalate f.names :=
  SiteFile.path_eq_intercalate h.head_ne_root

theorem isPlainPath : IsPlainPath f.path :=
  h.path_eq ▸ isPlainPath_intercalate h.names h.ne_nil

theorem splitText : splitText '/' f.path = f.names :=
  h.path_eq ▸ splitText_intercalate (fun name hm => (h.names name hm).slash) h.ne_nil

end SiteFile.IsNamed

theorem FileTree.Named.isNamed_of_mem_siteFiles {t : FileTree} {f : SiteFile} (h : t.Named)
    (hf : f ∈ t.siteFiles) : f.IsNamed := by
  obtain ⟨hne, content, hfind⟩ := (mem_siteFiles h).mp hf
  exact ⟨hne, (h.find? hfind).2⟩

/-- A path to a site that is found piece by piece. Behind the dots at its start there is no empty
piece, under which nothing is found. -/
def IsFindable (site : String) : Prop :=
  isRooted site ∨ ((splitText '/' site).dropWhile (· == ".")).head? ≠ some ""

instance (site : String) : Decidable (IsFindable site) :=
  inferInstanceAs (Decidable (_ ∨ _))

theorem startsAtRoot_of_ne {site : String} (h : site ≠ "") : startsAtRoot site = isRooted site := by
  simp [startsAtRoot, h]

theorem slash_mem_joinPath {path rest : String} (hp : path ≠ "") (hr : ¬ isRooted rest) :
    '/' ∈ (joinPath path rest).toList := by
  unfold joinPath
  rw [if_neg hr]
  split
  next h =>
    have slash : path.toList.getLast? = some '/' := by simpa [hp] using h
    rw [String.toList_append]
    exact List.mem_append_left _ (List.mem_of_getLast? slash)
  next =>
    rw [String.toList_append, String.toList_append]
    exact List.mem_append_left _ (List.mem_append_right _ (by decide))

namespace FileStore

variable {s : FileStore} {site found piece : String} {pieces place p : List String}

/-- The place that a path leads to, if it leads somewhere. -/
def place? (s : FileStore) (path : String) : Option (List String) :=
  (s.locate path).toOption

theorem find?_of_locate (h : s.locate found = .ok p) : ∃ t, s.root.find? p = some t := by
  have hne : found ≠ "" := by
    rintro rfl
    cases h
  rw [locate_of_ne_empty _ hne] at h
  obtain ⟨piece, pieces, e⟩ := List.exists_cons_of_ne_nil (splitText_ne_nil found)
  rw [e] at h
  have present := node?_of_walk (walk_cons.mp h).2.2 (walk_cons.mp h).2.1
  unfold FileTree.node? at present
  cases hf : s.root.find? p with
  | none => simp [hf] at present
  | some t => exact ⟨t, rfl⟩

theorem has_eq (s : FileStore) (path : String) : s.has path = (s.place? path).isSome := by
  unfold has get? place?
  cases h : s.locate path with
  | error fault => rfl
  | ok p =>
    obtain ⟨t, ht⟩ := find?_of_locate h
    dsimp only
    rw [ht]
    rfl

theorem get?_eq (s : FileStore) (path : String) : s.get? path = (s.place? path).bind s.root.find? := by
  unfold get? place?
  cases s.locate path <;> rfl

/-- From a directory, a dot and two dots can always be followed. -/
theorem walk_special (h : piece = "." ∨ piece = "..") :
    (walk s.root [piece] place).toOption.isSome ↔ s.root.node? place = some .directory := by
  unfold walk FileTree.node?
  rcases s.root.find? place with _ | ⟨content⟩ | ⟨entries⟩
  · simp [Except.toOption]
  · simp [Except.toOption, FileTree.node]
  · rcases h with rfl | rfl <;> simp [isIdle, walk, Except.toOption, FileTree.node]

/-- What is looked for after one more piece. -/
def nextPath (found piece : String) : String :=
  if found == "." then piece else joinPath found piece

/-- The pieces that are left can be followed one by one. Only at the start an empty piece would be a
path of its own. -/
structure Follows (found : String) (pieces : List String) : Prop where
  ne_empty : found ≠ ""
  slash : ∀ piece ∈ pieces, '/' ∉ piece.toList
  start : found = "." → (pieces.dropWhile (· == ".")).head? ≠ some ""

/-- What is below a path that was found is followed from where the path leads. -/
theorem locate_belowSite {rest : String} (hf : found ≠ "") (hr : ¬ isRooted rest)
    (hne : found = "." → rest ≠ "") : s.locate (belowSite found rest) =
      (s.locate found >>= fun place => walk s.root (splitText '/' rest) place) := by
  unfold belowSite
  split
  next hdot =>
    cases beq_iff_eq.mp hdot
    have start : s.startOf rest = s.startOf "." := by
      unfold startOf
      rw [if_neg hr, if_neg (by decide)]
    have dot : splitText '/' "." = ["."] := by decide
    rw [locate_of_ne_empty _ (hne rfl), locate_of_ne_empty _ hf, start, dot, ← walk_append]
    exact (walk_idle (by decide) (splitText_ne_nil rest) _).symm
  next => exact locate_joinPath hf hr

namespace Follows

variable (h : Follows found (piece :: pieces))
include h

theorem locate_nextPath (s : FileStore) : s.locate (nextPath found piece) =
    (s.locate found >>= fun place => walk s.root [piece] place) := by
  have slash := h.slash piece List.mem_cons_self
  have hne (hdot : found = ".") : piece ≠ "" := by
    rintro rfl
    exact h.start hdot rfl
  rw [← splitText_of_not_mem slash]
  exact locate_belowSite h.ne_empty (not_isRooted_of_not_mem slash) hne

/-- One more piece is found exactly if it can be followed. -/
theorem step?_eq (s : FileStore) : s.step? found piece =
    if (s.place? (nextPath found piece)).isSome then some (nextPath found piece) else none := by
  unfold step?
  dsimp only
  split
  next hspecial =>
    rw [Bool.or_eq_true, beq_iff_eq, beq_iff_eq] at hspecial
    -- For a dot or two dots only what was found before is looked at.
    have directory : s.hasDirectory found ↔ (s.place? (nextPath found piece)).isSome := by
      rw [hasDirectory_iff, place?, h.locate_nextPath]
      cases hl : s.locate found with
      | error fault =>
        refine iff_of_false ?_ Bool.false_ne_true
        intro directory
        cases hl.symm.trans directory.locate
      | ok place =>
        cases place_of_locate hl
        rw [ok_bind, walk_special hspecial]
        exact ⟨fun directory => directory.node?, fun node => ⟨hl, node⟩⟩
    exact if_congr directory rfl rfl
  next =>
    rw [has_eq]
    rfl

theorem next : Follows (nextPath found piece) pieces := by
  have slash := h.slash piece List.mem_cons_self
  unfold nextPath
  refine ⟨?_, fun piece hm => h.slash piece (List.mem_cons_of_mem _ hm), ?_⟩
  · split
    next hdot =>
      rintro rfl
      exact h.start (beq_iff_eq.mp hdot) rfl
    next => exact joinPath_ne_empty h.ne_empty (not_isRooted_of_not_mem slash)
  · split
    next hdot =>
      rintro rfl
      exact h.start (beq_iff_eq.mp hdot)
    next =>
      intro hdot
      have hm := slash_mem_joinPath h.ne_empty (not_isRooted_of_not_mem slash)
      rw [hdot] at hm
      exact absurd hm (by decide)

end Follows

/-- What is found piece by piece is what the whole path leads to. The induction is on the pieces that
are left; what was found before stands for the others. -/
theorem place?_foldlM (h : Follows found pieces) : (pieces.foldlM s.step? found).bind s.place? =
    (s.locate found >>= fun place => walk s.root pieces place).toOption := by
  induction pieces generalizing found with
  | nil =>
    rw [List.foldlM_nil]
    show s.place? found = _
    unfold place?
    cases s.locate found <;> rfl
  | cons piece pieces ih =>
    have split : (s.locate found >>= fun place => walk s.root (piece :: pieces) place) =
        (s.locate (nextPath found piece) >>= fun place => walk s.root pieces place) := by
      rw [h.locate_nextPath, bind_assoc]
      refine bind_congr ?_
      intro place
      exact walk_append s.root [piece] pieces place
    rw [split, List.foldlM_cons, h.step?_eq]
    split
    next => exact ih h.next
    next hnone =>
      unfold place? at hnone
      cases hl : s.locate (nextPath found piece) with
      | error fault => rfl
      | ok place =>
        rw [hl] at hnone
        exact absurd rfl hnone

/-- A site that can be found is found where its path leads to. -/
theorem place?_foundSite (h : IsFindable site) : (s.foundSite? site).bind s.place? = s.place? site := by
  have slash : ∀ piece ∈ splitText '/' site, '/' ∉ piece.toList :=
    fun _ => slash_of_mem_splitText
  have hne : site ≠ "" := by
    rintro rfl
    exact absurd h (by decide)
  have start (pieces : List String) (hp : splitText '/' site = pieces) :
      s.place? site = (walk s.root pieces (s.startOf site)).toOption := by
    rw [place?, locate_of_ne_empty _ hne, hp]
  unfold foundSite?
  dsimp only
  rw [startsAtRoot_of_ne hne]
  split
  next hr =>
    obtain ⟨pieces, hpieces, e⟩ := isRooted_iff.mp hr
    have slash := fun piece hm => slash piece (e ▸ List.mem_cons_of_mem _ hm)
    have root : splitText '/' "/" = ["", ""] := by decide
    rw [start _ e, e, List.tail_cons, place?_foldlM ⟨by decide, slash, fun hdot => absurd hdot (by decide)⟩,
      locate_of_ne_empty _ (by decide), root, ← walk_append]
    unfold startOf
    rw [if_pos hr, if_pos (by decide)]
    congr 1
    rw [walk_idle rfl hpieces]
    exact (walk_idle rfl (List.cons_ne_nil _ _) _).trans (walk_idle rfl hpieces _)
  next hr =>
    have dot : splitText '/' "." = ["."] := by decide
    rw [start _ rfl, place?_foldlM ⟨by decide, slash, fun _ => h.resolve_left hr⟩,
      locate_of_ne_empty _ (by decide), dot, ← walk_append]
    unfold startOf
    rw [if_neg hr, if_neg (by decide)]
    congr 1
    exact walk_idle (by decide) (splitText_ne_nil site) _

theorem get?_foundSite (h : IsFindable site) : (s.foundSite? site).bind s.get? = s.get? site := by
  rw [get?_eq, ← place?_foundSite h, Option.bind_assoc]
  exact congrArg _ (funext fun path => get?_eq s path)

/-- Behind dots, nothing is found under an empty piece. -/
theorem foundSite?_eq_none (hne : site ≠ "") (h : ¬ IsFindable site) : s.foundSite? site = none := by
  obtain ⟨hr, hempty⟩ := not_or.mp h
  rw [not_not] at hempty
  unfold foundSite?
  dsimp only
  rw [startsAtRoot_of_ne hne, if_neg hr]
  revert hempty
  induction splitText '/' site with
  | nil => exact fun hempty => absurd hempty (by decide)
  | cons piece pieces ih =>
    intro hempty
    rw [List.foldlM_cons]
    by_cases hdot : piece = "."
    · -- A dot leads back to the start.
      subst hdot
      have next : s.step? "." "." = none ∨ s.step? "." "." = some "." := by
        unfold step?
        dsimp only
        rw [if_pos (by decide)]
        split
        next => exact .inr rfl
        next => exact .inl rfl
      rcases next with e | e
      · rw [e]
        rfl
      · rw [e]
        exact ih hempty
    · rw [List.dropWhile_cons_of_neg (by simpa using hdot), List.head?_cons] at hempty
      cases Option.some.inj hempty
      have absent : s.step? "." "" = none := rfl
      rw [absent]
      rfl

variable {files : List SiteFile} {f : SiteFile} {c : List UInt8}

theorem ne_empty_of_isFindable (hs : IsFindable site) : site ≠ "" := by
  rintro rfl
  exact absurd hs (by decide)

/-- The files of a site are those of the tree to which its path leads. -/
theorem discover_findable (h : s.discover site = .ok files) (hs : IsFindable site) :
    files = ((s.get? site).map FileTree.siteFiles).getD [] := by
  rw [← get?_foundSite hs]
  unfold discover at h
  split at h
  next hnone =>
    cases h
    rw [hnone]
    rfl
  next found hfound =>
    rw [hfound, Option.bind_some]
    dsimp only at h
    split at h
    next e =>
      cases h
      exact e.symm
    next e =>
      split at h
      next =>
        rw [if_neg (ne_empty_of_isFindable hs)] at h
        cases h
        rfl
      next => cases h

theorem discover_not_findable (hne : site ≠ "") (h : s.discover site = .ok files)
    (hs : ¬ IsFindable site) : files = [] := by
  unfold discover at h
  rw [foundSite?_eq_none hne hs] at h
  cases h
  rfl

theorem isNamed_of_discover (hroot : s.root.Named) (hne : site ≠ "") (h : s.discover site = .ok files)
    (hf : f ∈ files) : f.IsNamed := by
  obtain ⟨t, ht, rfl⟩ := exists_siteFiles_of_ne hroot hne h
  exact ht.isNamed_of_mem_siteFiles hf

/-- The files of the tree that a path leads to are the files below it, each under its names. -/
theorem mem_siteFiles_get? (hroot : s.root.Named) (hne : site ≠ "") :
    f ∈ ((s.get? site).map FileTree.siteFiles).getD [] ↔
      f.IsNamed ∧ ∃ c, s.node? (joinPath site f.path) = some (.file c) := by
  rw [get?]
  cases hl : s.locate site with
  | error fault =>
    refine iff_of_false List.not_mem_nil ?_
    rintro ⟨named, c, hc⟩
    have found := reaches_of_locate named.isPlainPath (locate_of_node? hc)
    cases hl.symm.trans (found.resolve_left hne)
  | ok p =>
    cases place_of_locate hl
    obtain ⟨t, ht⟩ := find?_of_locate hl
    dsimp only
    rw [ht, Option.map_some, Option.getD_some, FileTree.mem_siteFiles (hroot.find? ht).1]
    have seen (named : f.IsNamed) : s.node? (joinPath site f.path) = t.node? f.names := by
      rw [node?_joinPath named.isPlainPath (.inr hl), named.splitText, FileTree.node?_append ht]
    constructor
    · rintro ⟨hn, c, hc⟩
      have named : f.IsNamed := ⟨hn, ((hroot.find? ht).1.find? hc).2⟩
      refine ⟨named, c, ?_⟩
      rw [seen named, FileTree.node?, hc]
      rfl
    · rintro ⟨named, c, hc⟩
      rw [seen named] at hc
      exact ⟨named.ne_nil, c, FileTree.find?_of_node?_file hc⟩

/-- The files of a site that is found are the files below its directory, each under its names. -/
theorem mem_discover (hroot : s.root.Named) (h : s.discover site = .ok files) (hs : IsFindable site) :
    f ∈ files ↔ f.IsNamed ∧ ∃ c, s.node? (joinPath site f.path) = some (.file c) := by
  rw [discover_findable h hs]
  exact mem_siteFiles_get? hroot (ne_empty_of_isFindable hs)

/-- What is among the files of a site is a file below its directory. -/
theorem node?_of_discover (hroot : s.root.Named) (hne : site ≠ "") (h : s.discover site = .ok files)
    (hf : f ∈ files) : ∃ c, s.node? (joinPath site f.path) = some (.file c) := by
  by_cases hs : IsFindable site
  · exact ((mem_discover hroot h hs).mp hf).2
  · rw [discover_not_findable hne h hs] at hf
    exact absurd hf List.not_mem_nil

end FileStore

end LivePages
