import LivePages.Proofs.Site.Discovery
import LivePages.Proofs.Site.Preparation

namespace LivePages

namespace ExecutionPlan

variable {p p' q : ExecutionPlan} {page : CompiledPage} {s : Settings} {e : WidgetError}

/-- A page is refused for what is in the room of its address, and for nothing else. -/
theorem addPage_eq_error_of_room (h : p.room? page.url.text = q.room? page.url.text)
    (he : p.addPage page s = .error e) : q.addPage page s = .error e := by
  unfold addPage at he ⊢
  split at he
  next => cases he
  next hw =>
    rw [if_neg hw, ← h]
    rcases bind_eq_error.mp he with he | ⟨executors, -, he⟩
    · exact bind_eq_error.mpr (.inl he)
    · cases he

/-- A page with widgets gets a room if its address has none. -/
theorem keys_addPage (h : p.addPage page s = .ok p') (hn : p.room? page.url.text = none) :
    p'.rooms.keys.Perm (p.rooms.keys ++ if page.isInteractive then [page.url.text] else []) := by
  rcases addPage_cases h with ⟨hw, rfl⟩ | ⟨hw, executors, -, rfl⟩
  · have plain : ¬ page.isInteractive := mt CompiledPage.isInteractive_iff.mp (not_not.mpr hw)
    rw [if_neg plain, List.append_nil]
  · rw [if_pos (CompiledPage.isInteractive_iff.mpr hw)]
    apply TextMap.keys_insert
    rw [TextMap.contains, ← room?, hn]
    decide

end ExecutionPlan

namespace FileStore

variable {s : FileStore} {site : String} {b b' : SiteBuild} {files : List SiteFile}
  {texts : List CompiledFile} {t : Settings}

/-- Files of different addresses that are compiled one after another get a room for each page that
has widgets. -/
theorem rooms_of_compileFiles (h : s.answer (compileFiles site b files) = .ok (b', texts))
    (hd : files.Pairwise fun f g => PageUrl.ofText f.address ≠ PageUrl.ofText g.address)
    (hn : ∀ f ∈ files, b.plan.room? (PageUrl.ofText f.address).text = none) :
    ∃ pages, List.Forall₂ (fun f page => ∃ html, s.CompiledAlone site b.settings f html page)
        (files.filter SiteFile.isPage) pages ∧
      b'.plan.rooms.keys.Perm
        (b.plan.rooms.keys ++ (pages.filter CompiledPage.isInteractive).map fun p => p.url.text) ∧
      b'.interactivePages =
        b.interactivePages + (pages.filter CompiledPage.isInteractive).length := by
  induction files generalizing b texts with
  | nil =>
    rw [compileFiles] at h
    cases Except.ok.inj h
    exact ⟨[], .nil, by simp, by simp⟩
  | cons f files ih =>
    rw [List.pairwise_cons] at hd
    rw [List.forall_mem_cons] at hn
    by_cases hf : f.isPage
    · obtain ⟨html, b₁, text, rest, hr, hc, hfiles, -⟩ := of_compileFiles_page hf h
      have settings := SiteBuild.settings_compilePage hc
      obtain ⟨⟨b₂, page⟩, hd', hc⟩ := bind_eq_ok.mp hc
      cases Except.ok.inj hc
      obtain ⟨hp, ha⟩ := SiteBuild.compileDocument_eq_ok.mp hd'
      have url := Document.url_compile hp
      have free (g) (hg : g ∈ files) : b₁.plan.room? (PageUrl.ofText g.address).text = none := by
        refine (ExecutionPlan.room?_addPage ha.plan ?_).trans (hn.2 g hg)
        rw [url]
        intro e
        exact hd.1 g hg (PageUrl.eq_of_text_eq e).symm
      obtain ⟨pages, hpages, hkeys, hcount⟩ := ih hfiles hd.2 free
      rw [settings] at hpages
      have own := ExecutionPlan.keys_addPage ha.plan (by rw [url]; exact hn.1)
      refine ⟨page :: pages, ?_, ?_, ?_⟩
      · rw [List.filter_cons_of_pos hf]
        exact .cons ⟨html, hr, hp⟩ hpages
      · refine hkeys.trans ((own.append_right _).trans (.of_eq ?_))
        rw [List.append_assoc, List.filter_cons]
        split <;> rfl
      · rw [hcount, ha.interactivePages, List.filter_cons]
        split
        next =>
          rw [List.length_cons]
          omega
        next => rw [Nat.add_zero]
    · rw [answer_compileFiles_other hf] at h
      rw [List.filter_cons_of_neg hf]
      exact ih h hd.2 hn.2

/-- Whether a page of a new address is refused does not depend on the pages before it. -/
theorem compilePage_start_eq_error {before : List SiteFile} {f : SiteFile} {html : String}
    {e : WidgetError}
    (hd : ∀ g ∈ before, PageUrl.ofText g.address ≠ PageUrl.ofText f.address)
    (h : ((SiteBuild.start t).run (s.pageSteps site before)).compilePage f.address html = .error e) :
    (SiteBuild.start t).compilePage f.address html = .error e := by
  have other : ∀ x ∈ s.pageSteps site before, x.url ≠ .ofText f.address := by
    intro x hx
    obtain ⟨g, hg, hx⟩ := List.mem_filterMap.mp hx
    obtain ⟨text, -, rfl⟩ := Option.map_eq_some_iff.mp hx
    exact hd g (List.mem_of_mem_filter hg)
  have room := SiteBuild.room?_run (b := .start t) other
  have settings := SiteBuild.settings_run (.start t) (s.pageSteps site before)
  generalize (SiteBuild.start t).run (s.pageSteps site before) = b at h room settings
  rcases bind_eq_error.mp h with h | ⟨r, -, h⟩
  · refine bind_eq_error.mpr (.inl ?_)
    rcases bind_eq_error.mp h with h | ⟨page, hp, h⟩
    · rw [settings] at h
      exact bind_eq_error.mpr (.inl h)
    · rw [settings] at hp
      refine bind_eq_error.mpr (.inr ⟨page, hp, ?_⟩)
      rcases bind_eq_error.mp h with h | ⟨plan, -, h⟩
      · rw [settings] at h
        refine bind_eq_error.mpr (.inl (ExecutionPlan.addPage_eq_error_of_room ?_ h))
        rw [Document.url_compile hp]
        exact room
      · cases h
  · cases h

/-- A run that reports a page has met it after the pages before it. -/
theorem of_prepare_compile {o : SiteOptions} {path : String} {e : WidgetError}
    (h : s.prepare o = .error (.compile path e)) :
    ∃ t before f after html, s.answer (loadSettings o.settings) = .ok t ∧
      s.discover o.site = .ok (before ++ f :: after) ∧ f.isPage ∧ f.path = path ∧
      s.pageText o.site f = .ok html ∧
      ((SiteBuild.start t).run (s.pageSteps o.site before)).compilePage f.address html = .error e := by
  rcases bind_eq_error.mp h with h | ⟨t, ht, h⟩
  · rcases of_loadSettings_eq_error h with ⟨p, fault, h⟩ | ⟨p, h⟩ <;> cases h
  rcases bind_eq_error.mp h with h | ⟨files, hd, h⟩
  · obtain ⟨path, -, h⟩ := mapError_eq_error.mp h
    cases h
  rcases bind_eq_error.mp h with h | ⟨r, -, h⟩
  · obtain ⟨before, f, after, r, rfl, hf, hb, hfail⟩ := compileFiles_eq_error.mp h
    cases hfail with
    | compile hr hc =>
      exact ⟨t, before, f, after, _, ht, mapError_eq_ok.mp hd, hf, rfl, hr,
        run_of_compileFiles hb ▸ hc⟩
  rcases bind_eq_error.mp h with h | ⟨checked, -, h⟩
  · obtain ⟨e, -, h⟩ := mapError_eq_error.mp h
    cases h
  · cases h

end FileStore

variable {s s' : FileStore} {o : SiteOptions}

theorem PreparedSite.summary_of_write {p : PreparedSite} {summary : SiteSummary}
    (h : (p.write o).runOn s = (.ok summary, s')) : summary = p.summary := by
  obtain ⟨_, _, -, h⟩ := FileAction.runOn_bind_eq_ok.mp h
  obtain ⟨_, _, -, h⟩ := FileAction.runOn_bind_eq_ok.mp h
  obtain ⟨_, _, -, h⟩ := FileAction.runOn_bind_eq_ok.mp h
  cases h
  rfl

/-- A page that a run refuses is refused also when nothing stands before it. -/
theorem refused_of_publishSite (hs : s.root.Named) {path : String} {e : WidgetError}
    (h : (publishSite o).runOn s = (.error (.compile path e), s')) :
    ∃ t files f html, s.answer (loadSettings o.settings) = .ok t ∧
      s.discover o.site = .ok files ∧ f ∈ files ∧ f.isPage ∧ f.path = path ∧
      s.pageText o.site f = .ok html ∧
      (SiteBuild.start t).compilePage f.address html = .error e := by
  rw [publishSite_runOn] at h
  cases hp : s.prepare o with
  | ok p =>
    rw [hp] at h
    have late := (p.failsAs_write o).error s _ s' h
    cases late
  | error e' =>
    rw [hp] at h
    cases h
    obtain ⟨t, before, f, after, html, ht, hd, hf, hpath, hr, hc⟩ := FileStore.of_prepare_compile hp
    refine ⟨t, _, f, html, ht, hd, List.mem_append_right _ List.mem_cons_self, hf, hpath, hr, ?_⟩
    apply FileStore.compilePage_start_eq_error ?_ hc
    intro g hg
    have distinct := FileStore.pairwise_address_discover hs hd
    exact (List.pairwise_append.mp distinct).2.2 g hg f List.mem_cons_self

/-- The rooms of a site that is ready are those of its pages with widgets. -/
theorem PreparedSite.rooms_of_prepare {p : PreparedSite} (hs : s.root.Named)
    (hp : s.prepare o = .ok p) :
    ∃ pages, List.Forall₂ (fun f page => ∃ html, s.CompiledAlone o.site p.settings f html page)
        (p.files.filter SiteFile.isPage) pages ∧
      p.build.plan.rooms.keys.Perm
        ((pages.filter CompiledPage.isInteractive).map fun page => page.url.text) ∧
      p.build.interactivePages = (pages.filter CompiledPage.isInteractive).length := by
  obtain ⟨-, hd, hr, -⟩ := FileStore.prepare_eq_ok.mp hp
  obtain ⟨pages, hpages, hkeys, hcount⟩ := FileStore.rooms_of_compileFiles hr
    (FileStore.pairwise_address_discover hs hd) fun f _ => rfl
  exact ⟨pages, hpages, hkeys, hcount.trans (Nat.zero_add _)⟩

/-- No two pages of a site share a room. Their addresses differ, because no file is above another
one; so a page is never refused for the names in another page, and every page with widgets has a
room of its own. -/
theorem rooms_publishSite (hs : s.root.Named) (o : SiteOptions) :
    (∀ site files, s.discover site = .ok files → files.Nodup ∧
      ∀ f ∈ files, ∀ g ∈ files, (f.names <+: g.names → f = g) ∧
        (PageUrl.ofText f.address = PageUrl.ofText g.address → f = g)) ∧
    (∀ path e s', (publishSite o).runOn s = (.error (.compile path e), s') →
      ∃ t files f html, s.answer (loadSettings o.settings) = .ok t ∧
        s.discover o.site = .ok files ∧ f ∈ files ∧ f.isPage ∧ f.path = path ∧
        s.pageText o.site f = .ok html ∧
        (SiteBuild.start t).compilePage f.address html = .error e) ∧
    ∀ summary s', (publishSite o).runOn s = (.ok summary, s') →
      ∃ p pages, s.prepare o = .ok p ∧ summary = p.summary ∧
        List.Forall₂ (fun f page => ∃ html, s.CompiledAlone o.site p.settings f html page)
          (p.files.filter SiteFile.isPage) pages ∧
        summary.rooms = summary.interactivePages ∧
        summary.interactivePages = (pages.filter CompiledPage.isInteractive).length ∧
        p.build.plan.rooms.keys.Perm
          ((pages.filter CompiledPage.isInteractive).map fun page => page.url.text) := by
  refine ⟨?_, ?_, ?_⟩
  · intro site files hd
    refine ⟨FileStore.nodup_discover hs hd, ?_⟩
    intro f hf g hg
    exact ⟨FileStore.eq_of_prefix_discover hs hd hf hg, FileStore.eq_of_address_discover hs hd hf hg⟩
  · intro path e s' h
    exact refused_of_publishSite hs h
  · intro summary s' h
    rw [publishSite_runOn] at h
    cases hp : s.prepare o with
    | error e =>
      rw [hp] at h
      cases h
    | ok p =>
      rw [hp] at h
      have summary_eq := PreparedSite.summary_of_write h
      obtain ⟨pages, hpages, hkeys, hcount⟩ := PreparedSite.rooms_of_prepare hs hp
      have rooms : summary.rooms = summary.interactivePages := by
        have size := hkeys.length_eq
        rw [TextMap.keys, List.length_map, List.length_map, ← hcount] at size
        rw [summary_eq]
        exact size
      exact ⟨p, pages, rfl, summary_eq, hpages, rooms, summary_eq ▸ hcount, hkeys⟩

def buttonMarkup : String :=
  "<x-button name=\"a\" command=\"ls\" image=\"alpine\" label=\"List\"></x-button>"

/-- Two pages with one button each, of one name, and what their visitors need. -/
def smallSite : FileStore where
  root := .directory [
    ("site", .directory [
      ("guide", .directory [("x.html", .file (bytesOf buttonMarkup))]),
      ("index.html", .file (bytesOf buttonMarkup)),
      ("style.css", .file [0])]),
    ("assets", .directory [
      ("RoomConnection.js", .file [1]), ("Widget.js", .file [2]), ("ButtonWidget.js", .file [3])])]
  here := []

theorem named_smallSite : smallSite.root.Named := by
  have guide : (FileTree.directory [("x.html", .file (bytesOf buttonMarkup))]).Named :=
    .directory (by decide) (by decide) (by simp [FileTree.Named.file])
  have site : (FileTree.directory [
      ("guide", .directory [("x.html", .file (bytesOf buttonMarkup))]),
      ("index.html", .file (bytesOf buttonMarkup)), ("style.css", .file [0])]).Named :=
    .directory (by decide) (by decide) (by simp [FileTree.Named.file, guide])
  have assets : (FileTree.directory [("RoomConnection.js", .file [1]), ("Widget.js", .file [2]),
      ("ButtonWidget.js", .file [3])]).Named :=
    .directory (by decide) (by decide) (by simp [FileTree.Named.file])
  exact .directory (by decide) (by decide) (by simp [site, assets])

theorem discover_smallSite : smallSite.discover "site" =
    .ok [⟨["guide", "x.html"]⟩, ⟨["index.html"]⟩, ⟨["style.css"]⟩] := by
  have found : smallSite.foundSite? "site" = some "site" := by decide +kernel
  have files : ((smallSite.get? "site").map FileTree.siteFiles).getD [] =
      [⟨["guide", "x.html"]⟩, ⟨["index.html"]⟩, ⟨["style.css"]⟩] := by
    show List.mergeSort [SiteFile.mk ["guide", "x.html"], ⟨["index.html"]⟩, ⟨["style.css"]⟩]
      SiteFile.notAfter = _
    exact List.mergeSort_of_pairwise (by decide +kernel)
  rw [FileStore.discover, found]
  dsimp only
  rw [files]
  decide +kernel

theorem publishSite_smallSite : ∃ summary s',
    (publishSite ⟨"site", "out", "assets", none⟩).runOn smallSite = (.ok summary, s') ∧
      summary.pages = 2 := by
  have prepared : (smallSite.prepare ⟨"site", "out", "assets", none⟩).toOption.any fun p =>
      ((p.write ⟨"site", "out", "assets", none⟩).runOn smallSite).1.toOption.any fun summary =>
        summary.pages == 2 := by
    unfold FileStore.prepare
    rw [discover_smallSite]
    decide +kernel
  obtain ⟨p, hp, hw⟩ := exists_ok prepared
  obtain ⟨summary, hw, hpages⟩ := exists_ok hw
  have run : (publishSite ⟨"site", "out", "assets", none⟩).runOn smallSite =
      (.ok summary, ((p.write ⟨"site", "out", "assets", none⟩).runOn smallSite).2) := by
    rw [publishSite_runOn, hp]
    exact Prod.ext hw rfl
  exact ⟨summary, _, run, beq_iff_eq.mp hpages⟩

theorem rooms_smallSite : smallSite.root.Named ∧ ∃ summary s',
    (publishSite ⟨"site", "out", "assets", none⟩).runOn smallSite = (.ok summary, s') ∧
      summary.pages = 2 ∧ summary.rooms = summary.interactivePages := by
  obtain ⟨summary, s', run, hpages⟩ := publishSite_smallSite
  obtain ⟨_, _, -, -, -, hrooms, -, -⟩ := (rooms_publishSite named_smallSite _).2.2 summary s' run
  exact ⟨named_smallSite, summary, s', run, hpages, hrooms⟩

end LivePages
