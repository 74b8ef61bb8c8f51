import LivePages.Proofs.Site.PageRooms
import LivePages.Proofs.Site.StaticFiles

namespace LivePages

open FileAction FileStore

/-- The output of a run is apart from the site, which has a path, and from the assets. -/
structure SiteOptions.Separate (o : SiteOptions) (s : FileStore) : Prop where
  site_ne : o.site ≠ ""
  site : Apart (s.placeOf o.site) (s.placeOf o.out)
  assets : Apart (s.placeOf o.assets) (s.placeOf o.out)

/-- What a run leaves behind. -/
structure Published (o : SiteOptions) (p : PreparedSite) (s s' : FileStore) : Prop where
  /-- The files of a site are all files below its directory, if the site is found. -/
  found : IsFindable o.site → ∀ f : SiteFile, f ∈ p.files ↔
    f.IsNamed ∧ ∃ c, s.node? (joinPath o.site f.path) = some (.file c)
  lost : ¬ IsFindable o.site → p.files = []
  compiled : ∀ f ∈ p.files, f.isPage → ∃ html text, s.Compiled o.site p.settings f html text
  static : ∀ f c, p.Publishes o s f c → s'.node? (joinPath o.static f.path) = some (.file c)
  text : ∀ a ∈ p.texts.files, s'.node? (joinPath o.out a.1) = a.2.map fun text => .file (bytesOf text)
  plan : p.texts.plan.isSome ↔ ∃ f ∈ p.files, f.isPage ∧
    ∃ html page, s.CompiledAlone o.site p.settings f html page ∧ page.isInteractive
  other : ∀ q, (∀ a ∈ p.texts.files, q ≠ s.placeOf o.out ++ [a.1]) →
    (∀ f c, p.Publishes o s f c → q ≠ s.placeOf o.static ++ f.names) →
    ∀ c, s'.root.node? q = some (.file c) ↔ s.root.node? q = some (.file c)
  /-- In the site and among the assets at most directories are made on the way to the output. -/
  source : ∀ q, s.placeOf o.site <+: q ∨ s.placeOf o.assets <+: q →
    s'.root.node? q = s.root.node? q ∨
      s.root.node? q = none ∧ s'.root.node? q = some .directory ∧ s.OnWay o.out q
  untouched : ".." ∉ splitText '/' o.out → ∀ q, s.placeOf o.site <+: q ∨ s.placeOf o.assets <+: q →
    s'.root.node? q = s.root.node? q

variable {s s' : FileStore} {o : SiteOptions}

namespace PreparedSite

variable {p : PreparedSite}

/-- There is a plan exactly if a page has widgets. -/
theorem isSome_plan_iff (hs : s.root.Named) (hp : s.prepare o = .ok p) : p.texts.plan.isSome ↔
    ∃ f ∈ p.files, f.isPage ∧ ∃ html page, s.CompiledAlone o.site p.settings f html page ∧
      page.isInteractive := by
  obtain ⟨pages, hpages, keys, -⟩ := rooms_of_compileFiles (compiled_of_prepare hp)
    (pairwise_address_discover hs (discover_of_prepare hp)) fun f _ => rfl
  have rooms : p.texts.plan.isSome ↔ ∃ page ∈ pages, page.isInteractive := by
    have plan : p.texts.plan.isSome ↔ ∃ url, url ∈ p.build.plan.rooms.keys := by
      show (if p.build.plan.hasRooms then _ else _ : Option String).isSome ↔ _
      rw [← not_forall_not, ← TextMap.isEmpty_iff]
      unfold ExecutionPlan.hasRooms
      cases p.build.plan.rooms.isEmpty <;> simp
    have none : (SiteBuild.start p.settings).plan.rooms.keys = [] := rfl
    rw [none, List.nil_append] at keys
    simp only [plan, keys.mem_iff, List.mem_map, List.mem_filter]
    constructor
    · rintro ⟨url, page, hpage, -⟩
      exact ⟨page, hpage⟩
    · rintro ⟨page, hpage⟩
      exact ⟨_, page, hpage, rfl⟩
  rw [rooms]
  constructor
  · rintro ⟨page, hm, hi⟩
    obtain ⟨f, hf, html, hc⟩ := exists_of_forall₂ hpages hm
    obtain ⟨hf, hpage⟩ := List.mem_filter.mp hf
    exact ⟨f, hf, hpage, html, page, hc, hi⟩
  · rintro ⟨f, hf, hpage, html, page, hc, hi⟩
    obtain ⟨page', hm, html', hc'⟩ := exists_of_forall₂ hpages.flip (List.mem_filter.mpr ⟨hf, hpage⟩)
    cases Except.ok.inj (hc.read.symm.trans hc'.read)
    cases Except.ok.inj (hc.compiled.symm.trans hc'.compiled)
    exact ⟨page, hm, hi⟩

/-- A run writes the texts of the deployment first, and then below the directory that visitors see. -/
theorem write_ok {summary : SiteSummary} (hs : s.root.Named) (ho : o.Separate s)
    (hp : s.prepare o = .ok p) (h : (p.write o).runOn s = (.ok summary, s')) :
    ∃ s₁, TextsWritten p.texts o.out s s₁ ∧
      Fills (s.placeOf o.static <+: ·) (Below (s.placeOf o.static) (p.Publishes o s)) s₁ s' := by
  obtain ⟨⟨⟩, s₂, h₂, h⟩ := runOn_bind_eq_ok.mp h
  obtain ⟨⟨⟩, s₃, h₃, h⟩ := runOn_bind_eq_ok.mp h
  obtain ⟨⟨⟩, s₄, h₄, h⟩ := runOn_bind_eq_ok.mp h
  obtain ⟨s₁, texts, h₂⟩ := writeChecked_ok (runOn_explain_eq_ok.mp h₂)
  cases h
  exact ⟨s₁, texts, static_ok hs ho.site_ne hp ho.site ho.assets texts h₂ h₃ h₄⟩

section Result

variable {s₁ : FileStore} {q : List String} (texts : TextsWritten p.texts o.out s s₁)
  (static : Fills (s.placeOf o.static <+: ·) (Below (s.placeOf o.static) (p.Publishes o s)) s₁ s')
include texts static

theorem placeOf_written (path : String) : s'.placeOf path = s.placeOf path :=
  placeOf_of_here (static.here.trans texts.here) path

theorem static_written (hs : s.root.Named) (hne : o.site ≠ "") (hp : s.prepare o = .ok p)
    {f : SiteFile} {c : List UInt8}
    (h : p.Publishes o s f c) : s'.node? (joinPath o.static f.path) = some (.file c) := by
  have named := isNamed_of_publishes hs hne hp h
  have place : s.placeOf o.static = s.placeOf o.out ++ splitText '/' staticDirectory :=
    placeOf_plain (IsFileName.isPlainPath (by decide))
  rw [node?_joinPath_joinPath (IsFileName.isPlainPath (by decide)) named.isPlainPath
    (static.reaches texts.reaches), placeOf_written texts static, ← place, named.splitText]
  apply static.file ⟨f, rfl, h⟩
  intro c' hc'
  exact h.unique (below_iff.mp hc')

theorem text_written {a : String × Option String} (ha : a ∈ p.texts.files) :
    s'.node? (joinPath o.out a.1) = a.2.map fun text => .file (bytesOf text) := by
  have hn := Artifacts.isFileName_of_mem ha
  have names : ∀ name ∈ [ExecutionPlan.fileName, proxyFileName, imageFileName, composeFileName],
      staticDirectory ≠ name := by
    decide
  have beside : ¬ s.placeOf o.static <+: s.placeOf o.out ++ [a.1] := by
    rw [placeOf_name (by decide), List.prefix_append_right_inj]
    intro hpre
    exact names a.1 (List.mem_map_of_mem ha) (List.cons_prefix_cons.mp hpre).1
  have kept : s'.root.node? (s.placeOf o.out ++ [a.1]) = s₁.root.node? (s.placeOf o.out ++ [a.1]) := by
    apply static.node?_eq ?_ beside
    rintro c ⟨f, he, -⟩
    exact beside (he ▸ List.prefix_append _ _)
  rw [node?_joinPath hn.isPlainPath (static.reaches texts.reaches), placeOf_written texts static,
    splitText_of_not_mem hn.slash, kept]
  exact texts.text a ha

theorem other_written (ha : ∀ a ∈ p.texts.files, q ≠ s.placeOf o.out ++ [a.1])
    (hq : ∀ f c, p.Publishes o s f c → q ≠ s.placeOf o.static ++ f.names)
    (c : List UInt8) : s'.root.node? q = some (.file c) ↔ s.root.node? q = some (.file c) := by
  rw [static.file_iff]
  · rcases texts.other q ha with kept | ⟨none, made, -⟩
    · rw [kept]
    · rw [none, made]
      simp
  · rintro c ⟨f, rfl, h⟩
    exact hq f c h rfl

theorem source_written {place : List String} (ha : Apart place (s.placeOf o.out)) (hq : place <+: q) :
    s'.root.node? q = s.root.node? q ∨
      s.root.node? q = none ∧ s'.root.node? q = some .directory ∧ s.OnWay o.out q := by
  have outside : ¬ s.placeOf o.static <+: q := by
    intro h
    rw [placeOf_name (by decide)] at h
    exact ha.not_prefix hq ((List.prefix_append _ _).trans h)
  have kept : s'.root.node? q = s₁.root.node? q := by
    apply static.node?_eq ?_ outside
    rintro c ⟨f, rfl, -⟩
    exact outside (List.prefix_append _ _)
  rw [kept]
  apply texts.other
  rintro a - rfl
  exact ha.not_prefix hq (List.prefix_append _ _)

end Result

end PreparedSite

/-- A run that ends well publishes every file of the site, every page as it is compiled, and every
asset; a file of the site takes the place of an asset. It writes the texts of the deployment, takes away
an earlier plan if no page has widgets, and leaves all other files as they were. -/
theorem published_publishSite {summary : SiteSummary} (hs : s.root.Named) (ho : o.Separate s)
    (h : (publishSite o).runOn s = (.ok summary, s')) :
    ∃ p, s.prepare o = .ok p ∧ Published o p s s' := by
  rw [publishSite_runOn] at h
  cases hp : s.prepare o with
  | error e =>
    rw [hp] at h
    cases h
  | ok p =>
    rw [hp] at h
    obtain ⟨s₁, texts, static⟩ := PreparedSite.write_ok hs ho hp h
    have discovered := PreparedSite.discover_of_prepare hp
    have source (q) (hq : s.placeOf o.site <+: q ∨ s.placeOf o.assets <+: q) :
        ∃ place, Apart place (s.placeOf o.out) ∧ place <+: q := by
      rcases hq with hq | hq
      · exact ⟨_, ho.site, hq⟩
      · exact ⟨_, ho.assets, hq⟩
    refine ⟨p, rfl, ?_⟩
    constructor
    case found =>
      intro findable f
      exact mem_discover hs discovered findable
    case lost => exact discover_not_findable ho.site_ne discovered
    case compiled =>
      intro f hf hpage
      obtain ⟨page, -, -, html, hc⟩ := PreparedSite.exists_compiled hp hf hpage
      exact ⟨html, page.html, hc⟩
    case static =>
      intro f c
      exact PreparedSite.static_written texts static hs ho.site_ne hp
    case text =>
      intro a
      exact PreparedSite.text_written texts static
    case plan => exact PreparedSite.isSome_plan_iff hs hp
    case other =>
      intro q
      exact PreparedSite.other_written texts static
    case source =>
      intro q hq
      obtain ⟨place, ha, hq⟩ := source q hq
      exact PreparedSite.source_written texts static ha hq
    case untouched =>
      intro hout q hq
      obtain ⟨place, ha, hq⟩ := source q hq
      rcases PreparedSite.source_written texts static ha hq with kept | ⟨-, -, way⟩
      · exact kept
      · exact absurd (hq.trans (way.prefix_placeOf hout)) ha.left

theorem published_smallSite : smallSite.root.Named ∧
    SiteOptions.Separate ⟨"site", "out", "assets", none⟩ smallSite ∧ ∃ summary s',
      (publishSite ⟨"site", "out", "assets", none⟩).runOn smallSite = (.ok summary, s') ∧
        s'.node? "out/static/style.css" = some (.file [0]) := by
  have separate : SiteOptions.Separate ⟨"site", "out", "assets", none⟩ smallSite :=
    ⟨by decide, ⟨by decide +kernel, by decide +kernel⟩, ⟨by decide +kernel, by decide +kernel⟩⟩
  obtain ⟨summary, s', run, -⟩ := publishSite_smallSite
  obtain ⟨p, hp, published⟩ := published_publishSite named_smallSite separate run
  have files := (prepare_eq_ok.mp hp).2.1
  rw [discover_smallSite] at files
  have style : p.Publishes ⟨"site", "out", "assets", none⟩ smallSite ⟨["style.css"]⟩ [0] := by
    refine .other ⟨?_, by decide +kernel, by decide +kernel⟩
    rw [← Except.ok.inj files]
    decide
  exact ⟨named_smallSite, separate, summary, s', run, published.static _ _ style⟩

end LivePages
