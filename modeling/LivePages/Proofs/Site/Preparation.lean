import LivePages.Proofs.Site.PageFiles

namespace LivePages

/-- An error that a run meets before it writes anything. -/
def SiteError.isEarly : SiteError → Bool
  | settingsFile _ _ | settings _ | outside _ | read _ _ | compile _ _
  | deploy (.missingAsset _) => true
  | _ => false

/-- A site that can be written. -/
structure PreparedSite where
  settings : Settings
  files : List SiteFile
  build : SiteBuild
  pages : List CompiledFile

/-- What a run does before it writes anything. -/
def FileStore.prepare (s : FileStore) (o : SiteOptions) : Except SiteError PreparedSite := do
  let t ← s.answer (loadSettings o.settings)
  let files ← (s.discover o.site).mapError .outside
  let r ← s.answer (compileFiles o.site (.start t) files)
  (s.answer (r.1.assets.check o.assets)).mapError .deploy
  return ⟨t, files, r.1, r.2⟩

/-- Writes the texts of a deployment and assets that are all there. -/
def writeChecked (texts : Artifacts) (assets : AssetSet) (out root : String) :
    FileAction DeployError Unit := do
  FileAction.on out (.makeDirectories out)
  writePlan out texts.plan
  writeArtifact out proxyFileName texts.proxy
  writeArtifact out imageFileName texts.image
  writeArtifact out composeFileName texts.compose
  assets.copy root (joinPath out staticDirectory)

namespace PreparedSite

def texts (p : PreparedSite) : Artifacts :=
  p.build.plan.artifacts p.settings

def others (p : PreparedSite) : List SiteFile :=
  p.files.filter fun file => !file.isPage

def summary (p : PreparedSite) : SiteSummary :=
  ⟨p.build.pagesCompiled, p.build.interactivePages, p.build.plan.rooms.size, p.build.assets.size⟩

/-- What a run does from its first write on. -/
def write (p : PreparedSite) (o : SiteOptions) : FileAction SiteError SiteSummary := do
  (writeChecked p.texts p.build.assets o.out o.assets).explain .deploy
  p.pages.forM (publishPage (joinPath o.out staticDirectory))
  p.others.forM (publishFile o.site (joinPath o.out staticDirectory))
  return p.summary

end PreparedSite

variable {s s' : FileStore} {o : SiteOptions} {e : SiteError} {p : PreparedSite}

theorem writeDeployment_eq (plan : ExecutionPlan) (assets : AssetSet) (t : Settings)
    (out root : String) : writeDeployment plan assets t out root =
      assets.check root >>= fun _ => writeChecked (plan.artifacts t) assets out root :=
  rfl

/-- A run writes a site after all of it is prepared. -/
theorem publishSite_runOn (o : SiteOptions) (s : FileStore) : (publishSite o).runOn s =
    match s.prepare o with
    | .ok p => (p.write o).runOn s
    | .error e => (.error e, s) := by
  unfold publishSite FileStore.prepare
  rw [FileAction.runOn_bind, FileStore.runOn_of_answer (readOnly_loadSettings _)]
  cases s.answer (loadSettings o.settings) with
  | error e => rfl
  | ok t =>
    rw [ok_bind]
    show (get >>= _ : FileAction SiteError SiteSummary).runOn s = _
    rw [FileAction.runOn_get_bind]
    cases s.discover o.site with
    | error path => rfl
    | ok files =>
      rw [mapError_ok, ok_bind]
      show (compileFiles o.site (.start t) files >>= _ : FileAction SiteError SiteSummary).runOn s = _
      rw [FileAction.runOn_bind, FileStore.runOn_of_answer (readOnly_compileFiles _ _ _)]
      generalize s.answer (compileFiles o.site (.start t) files) = compiled
      cases compiled with
      | error e => rfl
      | ok r =>
        obtain ⟨b, pages⟩ := r
        rw [ok_bind]
        show ((writeDeployment b.plan b.assets t o.out o.assets).explain .deploy >>= _ :
          FileAction SiteError SiteSummary).runOn s = _
        rw [writeDeployment_eq, FileAction.explain_bind, bind_assoc, FileAction.runOn_bind,
          FileStore.runOn_of_answer ((AssetSet.readOnly_check _ _).explain _),
          FileStore.answer_explain]
        cases s.answer (b.assets.check o.assets) with
        | error e => rfl
        | ok checked => rfl

section Errors

open FileAction

/-- An error of an operation on files. -/
def DeployError.IsFault (e : DeployError) : Prop :=
  ∃ path fault, e = .files path fault

theorem failsAs_on {α : Type} (path : String) (action : FileAction FileFault α) :
    FailsAs DeployError.IsFault (action.on path) :=
  .explain fun fault => ⟨path, fault, rfl⟩

theorem failsAs_copyAsset (source target : String) :
    FailsAs DeployError.IsFault (copyAsset source target) := by
  unfold copyAsset
  split
  next => exact (failsAs_on ..).bind fun _ => failsAs_on ..
  next => exact failsAs_on ..

theorem failsAs_copyEntries (source target : String) (entries : List (String × FileTree)) :
    FailsAs DeployError.IsFault (copyEntries source target entries) := by
  induction source, target, entries using copyEntries.induct with
  | case1 source target =>
    rw [copyEntries]
    exact .pure ()
  | case2 source target name content rest ih =>
    rw [copyEntries]
    exact (failsAs_copyAsset ..).bind fun _ => ih
  | case3 source target name entries rest ihe ih =>
    rw [copyEntries]
    exact (failsAs_on ..).bind fun _ => ihe.bind fun _ => ih

theorem failsAs_copyDirectory (source target : String) :
    FailsAs DeployError.IsFault (copyDirectory source target) := by
  refine (failsAs_on ..).bind fun _ => (failsAs_on ..).bind ?_
  intro found
  split
  next => exact failsAs_copyEntries ..
  next => exact .throw ⟨source, .notDirectory, rfl⟩

theorem AssetSet.failsAs_copy (assets : AssetSet) (root target : String) :
    FailsAs DeployError.IsFault (assets.copy root target) := by
  refine .forM ?_ _
  intro path
  refine FailsAs.get.bind ?_
  intro s
  split
  next => exact failsAs_copyDirectory ..
  next => exact failsAs_copyAsset ..

theorem failsAs_writePlan (out : String) (plan : Option String) :
    FailsAs DeployError.IsFault (writePlan out plan) := by
  cases plan with
  | some text => exact failsAs_on ..
  | none =>
    refine FailsAs.get.bind ?_
    intro s
    split
    next => exact failsAs_on ..
    next => exact .pure ()

theorem failsAs_writeChecked (texts : Artifacts) (assets : AssetSet) (out root : String) :
    FailsAs DeployError.IsFault (writeChecked texts assets out root) :=
  (failsAs_on ..).bind fun _ => (failsAs_writePlan ..).bind fun _ => (failsAs_on ..).bind fun _ =>
    (failsAs_on ..).bind fun _ => (failsAs_on ..).bind fun _ => assets.failsAs_copy ..

theorem failsAs_createParent (path : String) :
    FailsAs (fun e => e.isEarly = false) (createParent path) := by
  unfold createParent
  split
  next => exact .explain fun _ => rfl
  next => exact .pure ()

/-- From the first write on, a run meets other errors than before. -/
theorem PreparedSite.failsAs_write (p : PreparedSite) (o : SiteOptions) :
    FailsAs (fun e => e.isEarly = false) (p.write o) := by
  have page (static : String) (page : CompiledFile) :
      FailsAs (fun e => e.isEarly = false) (publishPage static page) :=
    (failsAs_createParent _).bind fun _ => .explain fun _ => rfl
  have other (static : String) (file : SiteFile) :
      FailsAs (fun e => e.isEarly = false) (publishFile o.site static file) :=
    (failsAs_createParent _).bind fun _ => .explain fun _ => rfl
  refine FailsAs.bind ⟨?_⟩ fun _ => (FailsAs.forM (page _) _).bind fun _ =>
    (FailsAs.forM (other _) _).bind fun _ => .pure _
  intro s e s' h
  obtain ⟨_, hw, rfl⟩ := runOn_explain_eq_error.mp h
  obtain ⟨path, fault, rfl⟩ := (failsAs_writeChecked ..).error _ _ _ hw
  rfl

end Errors

theorem AssetSet.answer_check_eq_ok {assets : AssetSet} {root : String} :
    s.answer (assets.check root) = .ok () ↔
      ∀ path, assets.contains path → s.has (joinPath root path) := by
  simp only [← AssetSet.mem_paths]
  unfold check FileStore.answer
  rw [FileAction.runOn_get_bind]
  cases hf : assets.paths.find? fun path => !s.has (joinPath root path) with
  | none =>
    have all : ∀ path ∈ assets.paths, s.has (joinPath root path) := by simpa using hf
    exact iff_of_true rfl all
  | some path =>
    have missing := List.find?_some hf
    have hm := List.mem_of_find?_eq_some hf
    refine iff_of_false (fun h => nomatch h) ?_
    intro all
    simp [all path hm] at missing

theorem AssetSet.isEarly_of_check {assets : AssetSet} {root : String} {e : DeployError}
    (h : s.answer (assets.check root) = .error e) : (SiteError.deploy e).isEarly := by
  unfold check FileStore.answer at h
  rw [FileAction.runOn_get_bind] at h
  split at h <;> cases h
  rfl

theorem of_loadSettings_eq_error {path : Option String}
    (h : s.answer (loadSettings path) = .error e) :
    (∃ p fault, e = .settingsFile p fault) ∨ ∃ p, e = .settings p := by
  cases path with
  | none => cases h
  | some path =>
    unfold loadSettings at h
    rw [FileStore.answer_bind ((FileAction.readOnly_readText _).explain _),
      FileStore.answer_explain] at h
    rcases bind_eq_error.mp h with h | ⟨text, -, h⟩
    · obtain ⟨fault, -, rfl⟩ := mapError_eq_error.mp h
      exact .inl ⟨path, fault, rfl⟩
    · split at h <;> cases h
      exact .inr ⟨path, rfl⟩

theorem FileStore.isEarly_of_prepare (h : s.prepare o = .error e) : e.isEarly := by
  rcases bind_eq_error.mp h with h | ⟨t, -, h⟩
  · rcases of_loadSettings_eq_error h with ⟨path, fault, rfl⟩ | ⟨path, rfl⟩ <;> rfl
  rcases bind_eq_error.mp h with h | ⟨files, -, h⟩
  · obtain ⟨path, -, rfl⟩ := mapError_eq_error.mp h
    rfl
  rcases bind_eq_error.mp h with h | ⟨r, -, h⟩
  · obtain ⟨before, f, after, r, -, -, -, hf⟩ := compileFiles_eq_error.mp h
    cases hf <;> rfl
  rcases bind_eq_error.mp h with h | ⟨checked, -, h⟩
  · obtain ⟨_, hc, rfl⟩ := mapError_eq_error.mp h
    exact AssetSet.isEarly_of_check hc
  · cases h

/-- What keeps a run from writing a site: settings that cannot be loaded, a site whose files cannot
be found, a page that is no text or cannot be compiled after the pages before it, and a file that a
page needs and that is not there. -/
inductive SiteOptions.Obstacle (o : SiteOptions) (s : FileStore) : Prop
  | settings {e : SiteError} (h : s.answer (loadSettings o.settings) = .error e)
  | site {path : String} (h : s.discover o.site = .error path)
  | unread {files : List SiteFile} {f : SiteFile} {fault : FileFault}
    (hd : s.discover o.site = .ok files) (hm : f ∈ files) (hf : f.isPage)
    (h : s.pageText o.site f = .error fault)
  | uncompiled {t : Settings} {before after : List SiteFile} {f : SiteFile} {html : String}
    {e : WidgetError} (ht : s.answer (loadSettings o.settings) = .ok t)
    (hd : s.discover o.site = .ok (before ++ f :: after)) (hf : f.isPage)
    (hr : s.pageText o.site f = .ok html)
    (h : ((SiteBuild.start t).run (s.pageSteps o.site before)).compilePage f.address html = .error e)
  | missing {t : Settings} {files : List SiteFile} {f : SiteFile} {html : String}
    {page : CompiledPage} {path : String} (ht : s.answer (loadSettings o.settings) = .ok t)
    (hd : s.discover o.site = .ok files) (hm : f ∈ files) (hf : f.isPage)
    (hp : s.CompiledAlone o.site t f html page) (ha : page.assets.contains path)
    (h : ¬ s.has (joinPath o.assets path))

namespace FileStore

theorem prepare_eq_ok : s.prepare o = .ok p ↔ s.answer (loadSettings o.settings) = .ok p.settings ∧
    s.discover o.site = .ok p.files ∧
    s.answer (compileFiles o.site (.start p.settings) p.files) = .ok (p.build, p.pages) ∧
    ∀ path, p.build.assets.contains path → s.has (joinPath o.assets path) := by
  simp only [← AssetSet.answer_check_eq_ok]
  constructor
  · intro h
    obtain ⟨t, ht, h⟩ := bind_eq_ok.mp h
    obtain ⟨files, hd, h⟩ := bind_eq_ok.mp h
    obtain ⟨r, hr, h⟩ := bind_eq_ok.mp h
    obtain ⟨⟨⟩, hc, h⟩ := bind_eq_ok.mp h
    cases Except.ok.inj h
    exact ⟨ht, mapError_eq_ok.mp hd, hr, mapError_eq_ok.mp hc⟩
  · rintro ⟨ht, hd, hr, hc⟩
    unfold prepare
    rw [ht, ok_bind, hd, mapError_ok, ok_bind, hr, ok_bind, hc, mapError_ok, ok_bind]
    rfl

/-- A page that became part of a build was read and compiled after those before it. -/
theorem compiled_of_compileFiles {site : String} {b : SiteBuild} {before after : List SiteFile}
    {f : SiteFile} {r : SiteBuild × List CompiledFile} (hf : f.isPage)
    (h : s.answer (compileFiles site b (before ++ f :: after)) = .ok r) :
    ∃ html b₁ text, s.pageText site f = .ok html ∧
      (b.run (s.pageSteps site before)).compilePage f.address html = .ok (b₁, text) := by
  rw [answer_compileFiles_append] at h
  obtain ⟨⟨b₀, pages⟩, hb, h⟩ := bind_eq_ok.mp h
  obtain ⟨⟨b', pages'⟩, h, -⟩ := bind_eq_ok.mp h
  obtain ⟨html, b₁, text, rest, hr, hc, -, -⟩ := of_compileFiles_page hf h
  exact ⟨html, b₁, text, hr, run_of_compileFiles hb ▸ hc⟩

theorem not_obstacle_of_prepare (h : s.prepare o = .ok p) : ¬ o.Obstacle s := by
  obtain ⟨ht, hd, hr, hc⟩ := prepare_eq_ok.mp h
  intro obstacle
  cases obstacle with
  | settings h => cases ht.symm.trans h
  | site h => cases hd.symm.trans h
  | unread hd' hm hf h =>
    cases Except.ok.inj (hd.symm.trans hd')
    obtain ⟨before, after, e⟩ := List.append_of_mem hm
    rw [e] at hr
    obtain ⟨html, b₁, text, hread, -⟩ := compiled_of_compileFiles hf hr
    cases hread.symm.trans h
  | uncompiled ht' hd' hf hr' h =>
    cases Except.ok.inj (ht.symm.trans ht')
    rw [Except.ok.inj (hd.symm.trans hd')] at hr
    obtain ⟨html, b₁, text, hread, hcompiled⟩ := compiled_of_compileFiles hf hr
    cases Except.ok.inj (hread.symm.trans hr')
    cases hcompiled.symm.trans h
  | missing ht' hd' hm hf hp ha h =>
    cases Except.ok.inj (ht.symm.trans ht')
    cases Except.ok.inj (hd.symm.trans hd')
    exact h (hc _ ((contains_assets_of_compileFiles hr _).mpr (.inr ⟨_, hm, hf, _, _, hp, ha⟩)))

theorem obstacle_of_prepare (h : s.prepare o = .error e) : o.Obstacle s := by
  rcases bind_eq_error.mp h with h | ⟨t, ht, h⟩
  · exact .settings h
  rcases bind_eq_error.mp h with h | ⟨files, hd, h⟩
  · obtain ⟨path, hd, -⟩ := mapError_eq_error.mp h
    exact .site hd
  rw [mapError_eq_ok] at hd
  rcases bind_eq_error.mp h with h | ⟨⟨b, pages⟩, hr, h⟩
  · obtain ⟨before, f, after, r, rfl, hf, hb, hfail⟩ := compileFiles_eq_error.mp h
    cases hfail with
    | read hr => exact .unread hd (List.mem_append_right _ List.mem_cons_self) hf hr
    | compile hr hc => exact .uncompiled ht hd hf hr (run_of_compileFiles hb ▸ hc)
  rcases bind_eq_error.mp h with h | ⟨checked, -, h⟩
  · obtain ⟨_, hc, -⟩ := mapError_eq_error.mp h
    have missing : ¬ ∀ path, b.assets.contains path → s.has (joinPath o.assets path) := by
      rw [← AssetSet.answer_check_eq_ok]
      intro ok
      cases hc.symm.trans ok
    simp only [not_forall] at missing
    obtain ⟨path, hm, hpath⟩ := missing
    rcases (contains_assets_of_compileFiles hr path).mp hm with hm | ⟨f, hm, hf, html, page, hp, ha⟩
    · exact absurd hm (AssetSet.not_contains_empty path)
    · exact .missing ht hd hm hf hp ha hpath
  · cases h

end FileStore

/-- A run that meets an obstacle fails before it writes anything, and what it meets before it
writes anything is an obstacle. All files are left as they were. -/
theorem publishSite_of_obstacle (o : SiteOptions) (s : FileStore) :
    (o.Obstacle s → ∃ e, e.isEarly ∧ (publishSite o).runOn s = (.error e, s)) ∧
    ∀ e s', (publishSite o).runOn s = (.error e, s') → e.isEarly → s' = s ∧ o.Obstacle s := by
  rw [publishSite_runOn]
  cases hp : s.prepare o with
  | error e =>
    constructor
    · intro _
      exact ⟨e, FileStore.isEarly_of_prepare hp, rfl⟩
    · intro e' s' h he
      cases h
      exact ⟨rfl, FileStore.obstacle_of_prepare hp⟩
  | ok p =>
    constructor
    · intro h
      exact absurd h (FileStore.not_obstacle_of_prepare hp)
    · intro e s' h he
      have late := (p.failsAs_write o).error s e s' h
      exact absurd (he.symm.trans late) (by decide)

/-- A site of two pages, the second of which has a button without a command, beside the deployment
of an earlier run. -/
def brokenSite : FileStore where
  root := .directory [
    ("site", .directory [("a.html", .file (bytesOf "<p>a</p>")),
      ("b.html", .file (bytesOf "<x-button></x-button>"))]),
    ("out", .directory [("Dockerfile", .file (bytesOf "FROM nginx"))])]
  here := []

theorem discover_brokenSite :
    brokenSite.discover "site" = .ok [⟨["a.html"]⟩, ⟨["b.html"]⟩] := by
  have found : brokenSite.foundSite? "site" = some "site" := by decide +kernel
  have files : ((brokenSite.get? "site").map FileTree.siteFiles).getD [] =
      [⟨["a.html"]⟩, ⟨["b.html"]⟩] := by
    show List.mergeSort [SiteFile.mk ["a.html"], ⟨["b.html"]⟩] SiteFile.notAfter = _
    exact List.mergeSort_of_pairwise (by decide +kernel)
  rw [FileStore.discover, found]
  dsimp only
  rw [files]
  decide +kernel

theorem publishSite_brokenSite : ∃ e, e.isEarly ∧
    (publishSite ⟨"site", "out", "assets", none⟩).runOn brokenSite = (.error e, brokenSite) ∧
    SiteOptions.Obstacle ⟨"site", "out", "assets", none⟩ brokenSite := by
  have read : brokenSite.pageText "site" ⟨["b.html"]⟩ = .ok "<x-button></x-button>" := by
    obtain ⟨text, h, he⟩ := exists_ok (x := brokenSite.pageText "site" ⟨["b.html"]⟩)
      (p := fun text => text == "<x-button></x-button>") (by decide +kernel)
    rw [h, beq_iff_eq.mp he]
  have fails : (((SiteBuild.start .default).run
      (brokenSite.pageSteps "site" [⟨["a.html"]⟩])).compilePage "b.html"
        "<x-button></x-button>").toOption.isNone := by
    decide +kernel
  obtain ⟨e, h⟩ := exists_error fails
  have found : brokenSite.discover "site" = .ok ([⟨["a.html"]⟩] ++ ⟨["b.html"]⟩ :: []) :=
    discover_brokenSite
  have obstacle : SiteOptions.Obstacle ⟨"site", "out", "assets", none⟩ brokenSite :=
    .uncompiled rfl found (by decide +kernel) read h
  obtain ⟨e, he, h⟩ := (publishSite_of_obstacle _ _).1 obstacle
  exact ⟨e, he, h, ((publishSite_of_obstacle _ _).2 e _ h he).2⟩

end LivePages
