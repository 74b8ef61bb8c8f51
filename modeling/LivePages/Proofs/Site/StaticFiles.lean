import LivePages.Proofs.Deploy.Deployment
import LivePages.Proofs.Site.Findable

namespace LivePages

open FileAction FileStore

section Loops

variable {s s' : FileStore} {path static site : String} {page : CompiledFile} {f : SiteFile}

theorem createParent_ok (h : (createParent path).runOn s = (.ok (), s')) :
    Fills (s.OnWay path) NoFile s s' := by
  unfold createParent at h
  split at h
  next parent hparent =>
    obtain ⟨hf, -⟩ := makeDirectories_ok (runOn_explain_eq_ok.mp h)
    exact hf.mono fun q _ => OnWay.of_parent hparent
  next =>
    cases h
    exact .refl _ _

theorem publishPage_ok (h : (publishPage static page).runOn s = (.ok (), s'))
    (hp : IsPlainPath page.file.path) : Fills (s.Reached static)
      (OneFile (s.placeOf static ++ splitText '/' page.file.path) (bytesOf page.html)) s s' := by
  obtain ⟨⟨⟩, s₁, h₁, h₂⟩ := runOn_bind_eq_ok.mp h
  have made := createParent_ok h₁
  obtain ⟨written, -⟩ := writeFile_ok (D := s.OnWay (joinPath static page.file.path))
    (runOn_explain_eq_ok.mp h₂)
  rw [made.placeOf, placeOf_plain hp] at written
  exact (made.after written).mono fun q _ => reached_of_onWay hp

theorem publishFile_ok (h : (publishFile site static f).runOn s = (.ok (), s'))
    (hp : IsPlainPath f.path) (ha : Apart (s.placeOf site) (s.placeOf static)) :
    ∃ content, s.root.node? (s.placeOf site ++ splitText '/' f.path) = some (.file content) ∧
      Fills (s.Reached static) (OneFile (s.placeOf static ++ splitText '/' f.path) content) s s' := by
  obtain ⟨⟨⟩, s₁, h₁, h₂⟩ := runOn_bind_eq_ok.mp h
  have made := createParent_ok h₁
  obtain ⟨content, hc, written⟩ := copyFile_ok (D := s.OnWay (joinPath static f.path))
    (runOn_explain_eq_ok.mp h₂)
  rw [made.placeOf, made.placeOf, placeOf_plain hp, placeOf_plain hp, if_neg (ha.ne _ _).symm]
    at written
  rw [made.placeOf, placeOf_plain hp, made.file_iff fun _ => id] at hc
  exact ⟨content, hc, (made.after written).mono fun q _ => reached_of_onWay hp⟩

/-- The pages of a site have been written, and what is beside them stays. -/
theorem publishPages_ok {pages : List CompiledFile}
    (h : (pages.forM (publishPage static)).runOn s = (.ok (), s'))
    (hp : ∀ page ∈ pages, IsPlainPath page.file.path) : Fills (s.Reached static)
      (fun q c => ∃ page ∈ pages, OneFile (s.placeOf static ++ splitText '/' page.file.path)
        (bytesOf page.html) q c) s s' := by
  refine Fills.forM (fun s' => s'.here = s.here) ?_ rfl h
  intro page hpage s₁ s₂ here hrun
  have written := publishPage_ok hrun (hp page hpage)
  rw [placeOf_of_here here] at written
  exact ⟨written.mono fun q _ => (reached_of_here here).mp, written.here.trans here⟩

/-- The other files of a site have been copied, and what is beside them stays. -/
theorem publishFiles_ok {files : List SiteFile}
    (h : (files.forM (publishFile site static)).runOn s = (.ok (), s'))
    (hp : ∀ f ∈ files, IsPlainPath f.path) (hs : s.root.Named)
    (ha : Apart (s.placeOf site) (s.placeOf static)) : Fills (s.Reached static)
      (fun q c => ∃ f ∈ files, q = s.placeOf static ++ splitText '/' f.path ∧
        s.root.node? (s.placeOf site ++ splitText '/' f.path) = some (.file c)) s s' := by
  refine Fills.forM (Untouched (s.placeOf site) s) ?_ (.refl hs _) h
  intro f hf s₁ s₂ same hrun
  have apart : Apart (s₁.placeOf site) (s₁.placeOf static) := by
    rwa [same.placeOf, same.placeOf]
  obtain ⟨content, hc, copied⟩ := publishFile_ok hrun (hp f hf) apart
  rw [same.placeOf, same.file_iff] at hc
  rw [same.placeOf] at copied
  constructor
  · refine (copied.mono fun q _ => (reached_of_here same.here).mp).congr ?_
    intro q c
    unfold OneFile
    rw [hc]
    simp [eq_comm]
  · apply same.fills copied
    rintro r c ⟨he, -⟩
    exact ha.ne _ _ he

end Loops

theorem WidgetContent.isPlainPath_of_mem {c : WidgetContent} {path : String} (h : path ∈ c.assets) :
    IsPlainPath path := by
  cases c
  all_goals
    simp only [assets, className, libraryAssets, List.cons_append, List.nil_append, List.mem_cons,
      List.not_mem_nil, or_false] at h
    casesm* _ ∨ _
    all_goals
      subst h
      decide

/-- The files below a place, each under its names. -/
def Below (place : List String) (R : SiteFile → List UInt8 → Prop) (q : List String)
    (c : List UInt8) : Prop :=
  ∃ f : SiteFile, q = place ++ f.names ∧ R f c

theorem below_iff {place : List String} {R : SiteFile → List UInt8 → Prop} {f : SiteFile}
    {c : List UInt8} : Below place R (place ++ f.names) c ↔ R f c := by
  constructor
  · rintro ⟨⟨names⟩, he, h⟩
    cases List.append_cancel_left he
    exact h
  · intro h
    exact ⟨f, rfl, h⟩

theorem not_below {a place : List String} {R : SiteFile → List UInt8 → Prop} (ha : Apart a place)
    (r : List String) (c : List UInt8) : ¬ Below place R (a ++ r) c := by
  rintro ⟨f, he, -⟩
  exact ha.ne _ _ he

theorem override_below {D : List String → Prop} {place : List String}
    {R R' : SiteFile → List UInt8 → Prop} {s s' s'' : FileStore} (h : Fills D (Below place R) s s')
    (h' : Fills D (Below place R') s' s'') :
    Fills D (Below place fun f c => R' f c ∨ (∀ c', ¬ R' f c') ∧ R f c) s s'' := by
  refine (h.override h').congr ?_
  intro q c
  constructor
  · rintro (⟨f, rfl, hc⟩ | ⟨none, f, rfl, hc⟩)
    · exact ⟨f, rfl, .inl hc⟩
    · exact ⟨f, rfl, .inr ⟨fun c' hc' => none c' ⟨f, rfl, hc'⟩, hc⟩⟩
  · rintro ⟨f, rfl, hc | ⟨none, hc⟩⟩
    · exact .inl ⟨f, rfl, hc⟩
    · exact .inr ⟨fun c' hc' => none c' (below_iff.mp hc'), f, rfl, hc⟩

/-- The directory with the files that visitors see. -/
abbrev SiteOptions.static (o : SiteOptions) : String :=
  joinPath o.out staticDirectory

theorem apart_static {s : FileStore} {o : SiteOptions} {place : List String}
    (h : Apart place (s.placeOf o.out)) : Apart place (s.placeOf o.static) := by
  rw [placeOf_name (by decide), ← List.append_nil place]
  exact h.append _ _

namespace PreparedSite

variable {p : PreparedSite} {o : SiteOptions} {s : FileStore} {f : SiteFile} {c : List UInt8}

/-- A file of a site that is no page is published as it is. -/
structure IsOther (p : PreparedSite) (o : SiteOptions) (s : FileStore) (f : SiteFile)
    (c : List UInt8) : Prop where
  mem : f ∈ p.files
  other : ¬ f.isPage
  source : s.node? (joinPath o.site f.path) = some (.file c)

/-- A page of a site is published as it is compiled. -/
structure IsPage (p : PreparedSite) (o : SiteOptions) (s : FileStore) (f : SiteFile)
    (c : List UInt8) : Prop where
  mem : f ∈ p.files
  page : f.isPage
  source : ∃ html text, s.Compiled o.site p.settings f html text ∧ c = bytesOf text

/-- A file is published that is an asset or below one. -/
structure IsAsset (p : PreparedSite) (o : SiteOptions) (s : FileStore) (f : SiteFile)
    (c : List UInt8) : Prop where
  named : f.IsNamed
  asset : ∃ path ∈ p.build.assets.paths, splitText '/' path <+: f.names
  source : s.node? (joinPath o.assets f.path) = some (.file c)

/-- What is published under a path. A file of the site takes the place of an asset. -/
inductive Publishes (p : PreparedSite) (o : SiteOptions) (s : FileStore) (f : SiteFile)
    (c : List UInt8) : Prop
  | other (h : p.IsOther o s f c)
  | page (h : p.IsPage o s f c)
  | asset (hf : f ∉ p.files) (h : p.IsAsset o s f c)

section Prepared

variable (hp : s.prepare o = .ok p)
include hp

theorem discover_of_prepare : s.discover o.site = .ok p.files :=
  (prepare_eq_ok.mp hp).2.1

theorem compiled_of_prepare :
    s.answer (compileFiles o.site (.start p.settings) p.files) = .ok (p.build, p.pages) :=
  (prepare_eq_ok.mp hp).2.2.1

theorem isNamed_of_mem (hs : s.root.Named) (hne : o.site ≠ "") (hf : f ∈ p.files) : f.IsNamed :=
  isNamed_of_discover hs hne (discover_of_prepare hp) hf

theorem exists_source (hs : s.root.Named) (hne : o.site ≠ "") (hf : f ∈ p.files) :
    ∃ c, s.node? (joinPath o.site f.path) = some (.file c) :=
  node?_of_discover hs hne (discover_of_prepare hp) hf

/-- The files of a site stand below the place of the site. -/
theorem source_iff (hs : s.root.Named) (hne : o.site ≠ "") (hf : f ∈ p.files) :
    s.node? (joinPath o.site f.path) = some (.file c) ↔
      s.root.node? (s.placeOf o.site ++ splitText '/' f.path) = some (.file c) := by
  obtain ⟨c', hc'⟩ := exists_source hp hs hne hf
  rw [hc', node?_of_joinPath (isNamed_of_mem hp hs hne hf).isPlainPath hc']

/-- Every page of a site is compiled. -/
theorem exists_compiled (hf : f ∈ p.files) (hpage : f.isPage) :
    ∃ page ∈ p.pages, page.file = f ∧ ∃ html, s.Compiled o.site p.settings f html page.html :=
  exists_of_forall₂ (pages_of_compileFiles (compiled_of_prepare hp)).flip
    (List.mem_filter.mpr ⟨hf, hpage⟩)

theorem isPage_iff : p.IsPage o s f c ↔
    ∃ page ∈ p.pages, page.file = f ∧ c = bytesOf page.html := by
  constructor
  · rintro ⟨hf, hpage, html, text, h, rfl⟩
    obtain ⟨page, hm, rfl, html', h'⟩ := exists_compiled hp hf hpage
    rw [(h'.unique h).2]
    exact ⟨page, hm, rfl, rfl⟩
  · rintro ⟨page, hm, rfl, rfl⟩
    obtain ⟨f, hf, rfl, html, h⟩ :=
      exists_of_forall₂ (pages_of_compileFiles (compiled_of_prepare hp)) hm
    obtain ⟨hf, hpage⟩ := List.mem_filter.mp hf
    exact ⟨hf, hpage, html, page.html, h, rfl⟩

theorem isPlainPath_of_asset : ∀ path ∈ p.build.assets.paths, IsPlainPath path := by
  intro path hm
  have needed := (contains_assets_of_compileFiles (compiled_of_prepare hp) path).mp
    (AssetSet.mem_paths.mp hm)
  rcases needed with hm | ⟨f, -, -, html, page, hpage, hm⟩
  · exact absurd hm (AssetSet.not_contains_empty path)
  · rcases ((Document.contains_assets hpage.compiled).mp hm).2 with rfl | ⟨w, -, hm⟩
    · decide
    · exact w.content.isPlainPath_of_mem hm

theorem reaches_assets {path : String} (hm : path ∈ p.build.assets.paths) : s.Reaches o.assets := by
  have there := (prepare_eq_ok.mp hp).2.2.2 path (AssetSet.mem_paths.mp hm)
  exact reaches_of_has (isPlainPath_of_asset hp path hm) there

end Prepared

section Phases

variable {s₁ s₂ : FileStore} (hs : s.root.Named) (hne : o.site ≠ "") (hp : s.prepare o = .ok p)
include hs hne hp

theorem others_ok (hsame : Untouched (s.placeOf o.site) s s₁)
    (ha : Apart (s.placeOf o.site) (s.placeOf o.static))
    (h : (p.others.forM (publishFile o.site o.static)).runOn s₁ = (.ok (), s₂)) :
    Fills (s.Reached o.static) (Below (s.placeOf o.static) (p.IsOther o s)) s₁ s₂ := by
  have named (f) (hf : f ∈ p.files) : f.IsNamed := isNamed_of_mem hp hs hne hf
  have plain (f) (hf : f ∈ p.others) : IsPlainPath f.path :=
    (named f (List.mem_filter.mp hf).1).isPlainPath
  have copied := publishFiles_ok h plain hsame.named (by rwa [hsame.placeOf, hsame.placeOf])
  refine (copied.mono fun q _ => (reached_of_here hsame.here).mp).congr ?_
  intro q c
  rw [hsame.placeOf, hsame.placeOf]
  constructor
  · rintro ⟨f, hf, rfl, hc⟩
    obtain ⟨hf, hother⟩ := List.mem_filter.mp hf
    rw [hsame.file_iff] at hc
    refine ⟨f, ?_, hf, by simpa using hother, (source_iff hp hs hne hf).mpr hc⟩
    rw [(named f hf).splitText]
  · rintro ⟨f, rfl, hf, hother, hc⟩
    refine ⟨f, List.mem_filter.mpr ⟨hf, by simpa using hother⟩, ?_, ?_⟩
    · rw [(named f hf).splitText]
    · rw [hsame.file_iff]
      exact (source_iff hp hs hne hf).mp hc

theorem pages_ok (here : s₁.here = s.here)
    (h : (p.pages.forM (publishPage o.static)).runOn s₁ = (.ok (), s₂)) :
    Fills (s.Reached o.static) (Below (s.placeOf o.static) (p.IsPage o s)) s₁ s₂ := by
  have named (page) (hm : page ∈ p.pages) : page.file.IsNamed :=
    isNamed_of_mem hp hs hne ((isPage_iff hp).mpr ⟨page, hm, rfl, rfl⟩).mem
  have written := publishPages_ok h fun page hm => (named page hm).isPlainPath
  refine (written.mono fun q _ => (reached_of_here here).mp).congr ?_
  intro q c
  rw [placeOf_of_here here]
  constructor
  · rintro ⟨page, hm, rfl, hc⟩
    refine ⟨page.file, ?_, (isPage_iff hp).mpr ⟨page, hm, rfl, hc⟩⟩
    rw [(named page hm).splitText]
  · rintro ⟨f, rfl, h⟩
    obtain ⟨page, hm, rfl, hc⟩ := (isPage_iff hp).mp h
    refine ⟨page, hm, ?_, hc⟩
    rw [(named page hm).splitText]

omit hne in
theorem assets_ok (hsame : Untouched (s.placeOf o.assets) s s₁)
    (ha : Apart (s.placeOf o.assets) (s.placeOf o.static))
    (h : (p.build.assets.copy o.assets o.static).runOn s₁ = (.ok (), s₂)) :
    Fills (s.Reached o.static) (Below (s.placeOf o.static) (p.IsAsset o s)) s₁ s₂ := by
  have copied := AssetSet.copy_ok h (isPlainPath_of_asset hp) hsame.named
    (by rwa [hsame.placeOf, hsame.placeOf])
  refine (copied.mono fun q _ => (reached_of_here hsame.here).mp).congr ?_
  intro q c
  unfold AssetSet.Files FilesBelow
  rw [hsame.placeOf, hsame.placeOf]
  constructor
  · rintro ⟨path, hm, r, rfl, hc⟩
    rw [List.append_assoc, hsame.file_iff] at hc
    have names := (hs.find? (FileTree.find?_of_node?_file hc)).2
    have named : SiteFile.IsNamed ⟨splitText '/' path ++ r⟩ :=
      ⟨List.append_ne_nil_of_left_ne_nil (splitText_ne_nil path) r,
        fun name hn => names name (List.mem_append_right _ hn)⟩
    refine ⟨⟨splitText '/' path ++ r⟩, List.append_assoc _ _ _, named,
      ⟨path, hm, List.prefix_append _ _⟩, ?_⟩
    rw [node?_joinPath named.isPlainPath (reaches_assets hp hm), named.splitText]
    exact hc
  · rintro ⟨f, rfl, named, ⟨path, hm, r, hr⟩, hc⟩
    refine ⟨path, hm, r, ?_, ?_⟩
    · rw [List.append_assoc, hr]
    · rw [List.append_assoc, hr, hsame.file_iff, ← hc,
        node?_joinPath named.isPlainPath (reaches_assets hp hm), named.splitText]

/-- Of what is written under one path, the last is what counts. -/
theorem publishes_iff : p.Publishes o s f c ↔
    p.IsOther o s f c ∨ (∀ c', ¬ p.IsOther o s f c') ∧
      (p.IsPage o s f c ∨ (∀ c', ¬ p.IsPage o s f c') ∧ p.IsAsset o s f c) := by
  constructor
  · rintro (h | h | ⟨hf, h⟩)
    · exact .inl h
    · exact .inr ⟨fun c' h' => h'.other h.page, .inl h⟩
    · exact .inr ⟨fun c' h' => hf h'.mem, .inr ⟨fun c' h' => hf h'.mem, h⟩⟩
  · rintro (h | ⟨hother, h | ⟨hpage, h⟩⟩)
    · exact .other h
    · exact .page h
    · refine .asset ?_ h
      intro hf
      by_cases hpage' : f.isPage
      · obtain ⟨page, hm, rfl, -⟩ := exists_compiled hp hf hpage'
        exact hpage _ ((isPage_iff hp).mpr ⟨page, hm, rfl, rfl⟩)
      · obtain ⟨c', hc'⟩ := exists_source hp hs hne hf
        exact hother c' ⟨hf, hpage', hc'⟩

/-- Below the directory that visitors see, a run writes what it publishes and nothing else. -/
theorem static_ok {s₃ s₄ : FileStore} (hsite : Apart (s.placeOf o.site) (s.placeOf o.out))
    (hassets : Apart (s.placeOf o.assets) (s.placeOf o.out))
    (h₁ : TextsWritten p.texts o.out s s₁)
    (h₂ : (p.build.assets.copy o.assets o.static).runOn s₁ = (.ok (), s₂))
    (h₃ : (p.pages.forM (publishPage o.static)).runOn s₂ = (.ok (), s₃))
    (h₄ : (p.others.forM (publishFile o.site o.static)).runOn s₃ = (.ok (), s₄)) :
    Fills (s.placeOf o.static <+: ·) (Below (s.placeOf o.static) (p.Publishes o s)) s₁ s₄ := by
  have apart := apart_static hsite
  have assets := assets_ok hs hp (h₁.untouched hs hassets) (apart_static hassets) h₂
  have pages := pages_ok hs hne hp (assets.here.trans h₁.here) h₃
  -- The site is as it was when its other files are copied.
  have same := ((h₁.untouched hs hsite).fills assets (not_below apart)).fills pages (not_below apart)
  have others := others_ok hs hne hp same apart h₄
  have all := override_below (override_below assets pages) others
  -- The way to the directory is there since the texts were written.
  have within (q) (hnone : s₁.root.node? q = none) (hq : s.Reached o.static q) :
      s.placeOf o.static <+: q := by
    rcases hq with hq | hq
    · rcases hq.of_name (by decide) with hq | rfl
      · exact absurd hnone (h₁.onWay q hq)
      · exact List.prefix_refl _
    · exact hq
  refine (all.mono within).congr ?_
  intro q c
  exact exists_congr fun f => and_congr_right fun _ => (publishes_iff hs hne hp).symm

theorem isNamed_of_publishes (h : p.Publishes o s f c) : f.IsNamed := by
  cases h with
  | other h => exact isNamed_of_mem hp hs hne h.mem
  | page h => exact isNamed_of_mem hp hs hne h.mem
  | asset hf h => exact h.named

end Phases

/-- One content is published under a path. -/
theorem Publishes.unique {c' : List UInt8} (h : p.Publishes o s f c) (h' : p.Publishes o s f c') :
    c' = c := by
  cases h with
  | other h =>
    cases h' with
    | other h' => cases h.source.symm.trans h'.source; rfl
    | page h' => exact absurd h'.page h.other
    | asset hf => exact absurd h.mem hf
  | page h =>
    cases h' with
    | other h' => exact absurd h.page h'.other
    | page h' =>
      obtain ⟨html, text, compiled, rfl⟩ := h.source
      obtain ⟨html', text', compiled', rfl⟩ := h'.source
      rw [(compiled.unique compiled').2]
    | asset hf => exact absurd h.mem hf
  | asset hf h =>
    cases h' with
    | other h' => exact absurd h'.mem hf
    | page h' => exact absurd h'.mem hf
    | asset _ h' => cases h.source.symm.trans h'.source; rfl

end PreparedSite

end LivePages
