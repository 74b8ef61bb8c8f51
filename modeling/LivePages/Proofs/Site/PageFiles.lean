import LivePages.Proofs.Files.Actions
import LivePages.Proofs.Site.AssetSet
import LivePages.Proofs.Site.Run
import LivePages.Site.Publication

namespace LivePages

theorem FileAction.readOnly_readFile (path : String) : (readFile path).ReadsOnly := by
  refine ReadsOnly.get.bind ?_
  intro s
  refine (ReadsOnly.liftM _).bind ?_
  intro place
  split
  next => exact ReadsOnly.pure _
  next => exact ReadsOnly.throw _

theorem FileAction.readOnly_readText (path : String) : (readText path).ReadsOnly := by
  refine (readOnly_readFile path).bind ?_
  intro found
  split
  next => exact ReadsOnly.throw _
  next =>
    split
    next => exact ReadsOnly.pure _
    next => exact ReadsOnly.throw _

theorem readOnly_loadSettings (path : Option String) : (loadSettings path).ReadsOnly := by
  unfold loadSettings
  split
  next => exact .pure _
  next path =>
    refine ((FileAction.readOnly_readText path).explain _).bind ?_
    intro text
    split
    next => exact .pure _
    next => exact .throw _

theorem AssetSet.readOnly_check (assets : AssetSet) (root : String) : (assets.check root).ReadsOnly := by
  refine FileAction.ReadsOnly.get.bind ?_
  intro s
  split
  next => exact .throw _
  next => exact .pure _

namespace FileStore

variable {s : FileStore} {site : String} {b b' : SiteBuild} {f : SiteFile} {files : List SiteFile}
  {pages : List CompiledFile}

/-- The text of a page of a site. -/
def pageText (s : FileStore) (site : String) (f : SiteFile) : Except FileFault String :=
  s.answer (FileAction.readText (joinPath site f.path))

/-- The pages among the files of a site, as a build gets them. -/
def pageSteps (s : FileStore) (site : String) (files : List SiteFile) : List BuildStep :=
  (files.filter SiteFile.isPage).filterMap fun f =>
    (s.pageText site f).toOption.map (.text f.address)

theorem pageSteps_cons_page {html : String} (hf : f.isPage) (hr : s.pageText site f = .ok html) :
    s.pageSteps site (f :: files) = .text f.address html :: s.pageSteps site files := by
  rw [pageSteps, List.filter_cons_of_pos hf, List.filterMap_cons_some, pageSteps]
  rw [hr]
  rfl

theorem pageSteps_cons_other (hf : ¬ f.isPage) :
    s.pageSteps site (f :: files) = s.pageSteps site files := by
  rw [pageSteps, List.filter_cons_of_neg hf, pageSteps]

end FileStore

theorem readOnly_compileFiles (site : String) (b : SiteBuild) (files : List SiteFile) :
    (compileFiles site b files).ReadsOnly := by
  induction files generalizing b with
  | nil => exact .pure _
  | cons f files ih =>
    unfold compileFiles
    split
    next =>
      refine ((FileAction.readOnly_readText _).explain _).bind ?_
      intro html
      split
      next => exact .throw _
      next b' text _ =>
        refine (ih b').bind ?_
        intro r
        exact .pure _
    next => exact ih b

namespace FileStore

variable {s : FileStore} {site : String} {b b' : SiteBuild} {f : SiteFile} {files : List SiteFile}
  {pages : List CompiledFile}

/-- A page is read and compiled before the files behind it. -/
theorem answer_compileFiles_page (hf : f.isPage) : s.answer (compileFiles site b (f :: files)) =
    ((s.pageText site f).mapError (.read (joinPath site f.path)) >>= fun html =>
      (b.compilePage f.address html).mapError (.compile f.path) >>= fun r =>
        s.answer (compileFiles site r.1 files) >>= fun r' => .ok (r'.1, ⟨f, r.2⟩ :: r'.2)) := by
  rw [compileFiles, if_pos hf, answer_bind ((FileAction.readOnly_readText _).explain _), answer_explain]
  refine bind_congr ?_
  intro html
  generalize b.compilePage f.address html = compiled
  cases compiled with
  | error e => rfl
  | ok r =>
    obtain ⟨b', text⟩ := r
    exact answer_bind (readOnly_compileFiles site b' files) _ s

theorem answer_compileFiles_other (hf : ¬ f.isPage) :
    s.answer (compileFiles site b (f :: files)) = s.answer (compileFiles site b files) := by
  rw [compileFiles, if_neg hf]

/-- Files are compiled one part after another. -/
theorem answer_compileFiles_append (b : SiteBuild) (files files' : List SiteFile) :
    s.answer (compileFiles site b (files ++ files')) =
      (s.answer (compileFiles site b files) >>= fun r =>
        s.answer (compileFiles site r.1 files') >>= fun r' => .ok (r'.1, r.2 ++ r'.2)) := by
  induction files generalizing b with
  | nil =>
    have none : s.answer (compileFiles site b []) = .ok (b, []) := by
      rw [compileFiles]
      rfl
    rw [none, ok_bind, List.nil_append]
    cases s.answer (compileFiles site b files') <;> rfl
  | cons f files ih =>
    by_cases hf : f.isPage
    · rw [List.cons_append, answer_compileFiles_page hf, answer_compileFiles_page hf]
      simp only [ih, bind_assoc, ok_bind, List.cons_append]
    · rw [List.cons_append, answer_compileFiles_other hf, answer_compileFiles_other hf, ih]

/-- A page that is compiled first has been read, and is part of the build that the others get. -/
theorem of_compileFiles_page (hf : f.isPage)
    (h : s.answer (compileFiles site b (f :: files)) = .ok (b', pages)) :
    ∃ html b₁ text rest, s.pageText site f = .ok html ∧
      b.compilePage f.address html = .ok (b₁, text) ∧
      s.answer (compileFiles site b₁ files) = .ok (b', rest) ∧ pages = ⟨f, text⟩ :: rest := by
  rw [answer_compileFiles_page hf] at h
  obtain ⟨html, hr, h⟩ := bind_eq_ok.mp h
  obtain ⟨⟨b₁, text⟩, hc, h⟩ := bind_eq_ok.mp h
  obtain ⟨⟨b₂, rest⟩, hfiles, h⟩ := bind_eq_ok.mp h
  cases Except.ok.inj h
  exact ⟨html, b₁, text, rest, mapError_eq_ok.mp hr, mapError_eq_ok.mp hc, hfiles, rfl⟩

/-- What has been compiled is the run of a build over the pages. -/
theorem run_of_compileFiles (h : s.answer (compileFiles site b files) = .ok (b', pages)) :
    b' = b.run (s.pageSteps site files) := by
  induction files generalizing b pages with
  | nil =>
    rw [compileFiles] at h
    cases Except.ok.inj h
    rfl
  | cons f files ih =>
    by_cases hf : f.isPage
    · obtain ⟨html, b₁, text, rest, hr, hc, hfiles, -⟩ := of_compileFiles_page hf h
      have first : b.step (.text f.address html) = b₁ := by
        rw [SiteBuild.step, hc]
      rw [pageSteps_cons_page hf hr, SiteBuild.run, List.foldl_cons, first]
      exact ih hfiles
    · rw [answer_compileFiles_other hf] at h
      rw [pageSteps_cons_other hf]
      exact ih h

/-- Why a page does not become part of a build. -/
inductive PageFails (s : FileStore) (site : String) (b : SiteBuild) (f : SiteFile) : SiteError → Prop
  | read {fault : FileFault} (h : s.pageText site f = .error fault) :
    PageFails s site b f (.read (joinPath site f.path) fault)
  | compile {html : String} {e : WidgetError} (h : s.pageText site f = .ok html)
    (hc : b.compilePage f.address html = .error e) : PageFails s site b f (.compile f.path e)

/-- The first page that fails ends the work on the files. -/
theorem compileFiles_eq_error {e : SiteError} :
    s.answer (compileFiles site b files) = .error e ↔
      ∃ before f after r, files = before ++ f :: after ∧ f.isPage ∧
        s.answer (compileFiles site b before) = .ok r ∧ s.PageFails site r.1 f e := by
  constructor
  · intro h
    induction files generalizing b with
    | nil =>
      rw [compileFiles] at h
      cases h
    | cons f files ih =>
      have start : s.answer (compileFiles site b []) = .ok (b, []) := by
        rw [compileFiles]
        rfl
      by_cases hf : f.isPage
      · rw [answer_compileFiles_page hf] at h
        rcases bind_eq_error.mp h with h | ⟨html, hr, h⟩
        · obtain ⟨fault, hr, rfl⟩ := mapError_eq_error.mp h
          exact ⟨[], f, files, _, rfl, hf, start, .read hr⟩
        rw [mapError_eq_ok] at hr
        rcases bind_eq_error.mp h with h | ⟨⟨b₁, text⟩, hc, h⟩
        · obtain ⟨e, hc, rfl⟩ := mapError_eq_error.mp h
          exact ⟨[], f, files, _, rfl, hf, start, .compile hr hc⟩
        rw [mapError_eq_ok] at hc
        rcases bind_eq_error.mp h with h | ⟨r, -, h⟩
        · obtain ⟨before, g, after, r, rfl, hg, hb, hfail⟩ := ih h
          refine ⟨f :: before, g, after, (r.1, ⟨f, text⟩ :: r.2), rfl, hg, ?_, hfail⟩
          rw [answer_compileFiles_page hf, hr, mapError_ok, ok_bind, hc, mapError_ok, ok_bind, hb,
            ok_bind]
        · cases h
      · rw [answer_compileFiles_other hf] at h
        obtain ⟨before, g, after, r, rfl, hg, hb, hfail⟩ := ih h
        exact ⟨f :: before, g, after, r, rfl, hg, (answer_compileFiles_other hf).trans hb, hfail⟩
  · rintro ⟨before, f, after, r, rfl, hf, hb, hfail⟩
    rw [answer_compileFiles_append, hb, ok_bind, answer_compileFiles_page hf]
    cases hfail with
    | read h => rw [h, mapError_error, error_bind, error_bind]
    | compile h hc =>
      rw [h, mapError_ok, ok_bind, hc, mapError_error, error_bind, error_bind]

end FileStore

namespace SiteBuild

variable {b b' : SiteBuild} {url html text : String}

/-- What a page is compiled to does not depend on the pages before it. -/
theorem compilePage_start (h : b.compilePage url html = .ok (b', text)) :
    ∃ b₁, (start b.settings).compilePage url html = .ok (b₁, text) := by
  obtain ⟨⟨b₂, page⟩, hd, h⟩ := bind_eq_ok.mp h
  cases Except.ok.inj h
  obtain ⟨hp, ha⟩ := compileDocument_eq_ok.mp hd
  have names := exists_adds_iff.mp ⟨_, ha⟩
  obtain ⟨b₁, ha⟩ : ∃ b₁, (start b.settings).Adds page b₁ := by
    rw [exists_adds_iff]
    exact (List.nodup_append.mp names).2.1
  have hd := (compileDocument_eq_ok (b := start b.settings)).mpr ⟨hp, ha⟩
  refine ⟨b₁, ?_⟩
  simp only [compilePage, hd, ok_bind]
  rfl

theorem settings_compilePage (h : b.compilePage url html = .ok (b', text)) :
    b'.settings = b.settings := by
  obtain ⟨⟨b₂, page⟩, hd, h⟩ := bind_eq_ok.mp h
  cases Except.ok.inj h
  exact (compileDocument_eq_ok.mp hd).2.settings

end SiteBuild

namespace FileStore

variable {s : FileStore} {site : String} {b b' : SiteBuild} {files : List SiteFile}
  {pages : List CompiledFile}

/-- What a page of a site is compiled to. -/
structure Compiled (s : FileStore) (site : String) (t : Settings) (f : SiteFile) (html text : String) :
    Prop where
  read : s.pageText site f = .ok html
  compiled : ∃ b, (SiteBuild.start t).compilePage f.address html = .ok (b, text)

/-- A page is compiled to one text. -/
theorem Compiled.unique {t : Settings} {f : SiteFile} {html html' text text' : String}
    (h : s.Compiled site t f html text) (h' : s.Compiled site t f html' text') :
    html' = html ∧ text' = text := by
  cases Except.ok.inj (h.read.symm.trans h'.read)
  obtain ⟨b, hb⟩ := h.compiled
  obtain ⟨b', hb'⟩ := h'.compiled
  cases Except.ok.inj (hb.symm.trans hb')
  exact ⟨rfl, rfl⟩

/-- The pages among the files are compiled, in their order. -/
theorem pages_of_compileFiles (h : s.answer (compileFiles site b files) = .ok (b', pages)) :
    List.Forall₂ (fun f page => page.file = f ∧ ∃ html, s.Compiled site b.settings f html page.html)
      (files.filter SiteFile.isPage) pages := by
  induction files generalizing b pages with
  | nil =>
    rw [compileFiles] at h
    cases Except.ok.inj h
    exact .nil
  | cons f files ih =>
    by_cases hf : f.isPage
    · obtain ⟨html, b₁, text, rest, hr, hc, hfiles, rfl⟩ := of_compileFiles_page hf h
      rw [List.filter_cons_of_pos hf]
      have ih := ih hfiles
      rw [SiteBuild.settings_compilePage hc] at ih
      exact .cons ⟨rfl, html, hr, SiteBuild.compilePage_start hc⟩ ih
    · rw [answer_compileFiles_other hf] at h
      rw [List.filter_cons_of_neg hf]
      exact ih h

/-- A page of a site, before it becomes part of a build. -/
structure CompiledAlone (s : FileStore) (site : String) (t : Settings) (f : SiteFile) (html : String)
    (page : CompiledPage) : Prop where
  read : s.pageText site f = .ok html
  compiled : (BuildStep.text f.address html).document.compile (.ofText f.address) t = .ok page

/-- A build needs what its pages need. -/
theorem contains_assets_of_compileFiles (h : s.answer (compileFiles site b files) = .ok (b', pages))
    (path : String) : b'.assets.contains path ↔ b.assets.contains path ∨
      ∃ f ∈ files, f.isPage ∧ ∃ html page, s.CompiledAlone site b.settings f html page ∧
        page.assets.contains path := by
  induction files generalizing b pages with
  | nil =>
    rw [compileFiles] at h
    cases Except.ok.inj h
    simp
  | cons f files ih =>
    rw [List.exists_mem_cons_iff]
    by_cases hf : f.isPage
    · obtain ⟨html, b₁, text, rest, hr, hc, hfiles, -⟩ := of_compileFiles_page hf h
      have settings := SiteBuild.settings_compilePage hc
      obtain ⟨⟨b₂, page⟩, hd, hc⟩ := bind_eq_ok.mp hc
      cases Except.ok.inj hc
      obtain ⟨hp, ha⟩ := SiteBuild.compileDocument_eq_ok.mp hd
      have own : (∃ html page, s.CompiledAlone site b.settings f html page ∧
          page.assets.contains path) ↔ page.assets.contains path := by
        constructor
        · rintro ⟨html', page', ⟨hr', hp'⟩, hm⟩
          cases Except.ok.inj (hr.symm.trans hr')
          cases Except.ok.inj (hp.symm.trans hp')
          exact hm
        · intro hm
          exact ⟨html, page, ⟨hr, hp⟩, hm⟩
      rw [ih hfiles, settings, ha.assets, AssetSet.contains_union, own, and_iff_right hf, or_assoc]
    · rw [answer_compileFiles_other hf] at h
      rw [ih h, or_iff_right fun hm : _ ∧ _ => hf hm.1]

end FileStore

end LivePages
