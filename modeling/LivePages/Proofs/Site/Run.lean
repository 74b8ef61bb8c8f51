import LivePages.Proofs.Page.Discovery
import LivePages.Proofs.Page.Url
import LivePages.Proofs.Site.Rooms

namespace LivePages

/-- A page that is handed to a build, as text or as a tree. -/
inductive BuildStep where
  | text (url html : String)
  | tree (url : String) (d : Document)

namespace BuildStep

def url : BuildStep → PageUrl
  | text url _ => .ofText url
  | tree url _ => .ofText url

/-- The document that is compiled for a page. -/
def document : BuildStep → Document
  | text url html => .ofHtml (PageUrl.ofText url).text html
  | tree _ d => d

end BuildStep

namespace SiteBuild

variable {b b' : SiteBuild} {url : PageUrl} {d : Document} {page : CompiledPage}

/-- The build after one more page; a page that fails leaves no trace. -/
def step (b : SiteBuild) : BuildStep → SiteBuild
  | .text url html =>
    match b.compilePage url html with
    | .ok (b', _) => b'
    | .error _ => b
  | .tree url d =>
    match b.compileDocument (.ofText url) d with
    | .ok (b', _) => b'
    | .error _ => b

def run (b : SiteBuild) (steps : List BuildStep) : SiteBuild :=
  steps.foldl step b

/-- What one more page changes in a build. -/
structure Adds (b : SiteBuild) (page : CompiledPage) (b' : SiteBuild) : Prop where
  settings : b'.settings = b.settings
  plan : b.plan.addPage page b.settings = .ok b'.plan
  assets : b'.assets = b.assets.union page.assets
  pagesCompiled : b'.pagesCompiled = b.pagesCompiled + 1
  interactivePages : b'.interactivePages =
    b.interactivePages + if page.isInteractive then 1 else 0

/-- A build takes a page whose widgets' names are distinct and new to the room of the page. -/
theorem exists_adds_iff : (∃ b', b.Adds page b') ↔
    ((b.plan.executorsAt page.url.text).keys ++ page.widgets.map WidgetDescriptor.name).Nodup := by
  rw [← ExecutionPlan.exists_addPage_iff (s := b.settings)]
  constructor
  · rintro ⟨b', h⟩
    exact ⟨b'.plan, h.plan⟩
  · rintro ⟨plan, h⟩
    exact ⟨⟨_, plan, _, _, _⟩, rfl, h, rfl, rfl, rfl⟩

theorem compileDocument_eq_ok : b.compileDocument url d = .ok (b', page) ↔
    d.compile url b.settings = .ok page ∧ b.Adds page b' := by
  constructor
  · intro h
    obtain ⟨page', hp, h⟩ := bind_eq_ok.mp h
    obtain ⟨plan, hplan, h⟩ := bind_eq_ok.mp h
    cases Except.ok.inj h
    exact ⟨hp, rfl, hplan, rfl, rfl, rfl⟩
  · rintro ⟨hp, hs, hplan, ha, hc, hi⟩
    refine bind_eq_ok.mpr ⟨page, hp, bind_eq_ok.mpr ⟨b'.plan, hplan, ?_⟩⟩
    rw [← hs, ← ha, ← hc, ← hi]
    rfl

theorem of_compileDocument (h : b.compileDocument url d = .ok (b', page)) :
    d.compile url b.settings = .ok page ∧ b.plan.addPage page b.settings = .ok b'.plan ∧
      b'.settings = b.settings := by
  obtain ⟨hp, ha⟩ := compileDocument_eq_ok.mp h
  exact ⟨hp, ha.plan, ha.settings⟩

/-- Every page is compiled as a tree, in the end. -/
theorem step_eq (b : SiteBuild) (x : BuildStep) : b.step x =
    match b.compileDocument x.url x.document with
    | .ok (b', _) => b'
    | .error _ => b := by
  cases x with
  | text url html =>
    rw [step, compilePage, BuildStep.url, BuildStep.document]
    cases b.compileDocument (.ofText url) (.ofHtml (PageUrl.ofText url).text html) with
    | error e => rfl
    | ok r => rfl
  | tree url d => rfl

theorem step_cases (b : SiteBuild) (x : BuildStep) : b.step x = b ∨
    ∃ page, b.compileDocument x.url x.document = .ok (b.step x, page) := by
  rw [step_eq]
  cases b.compileDocument x.url x.document with
  | error e => exact .inl rfl
  | ok r => exact .inr ⟨r.2, rfl⟩

theorem settings_run (b : SiteBuild) (steps : List BuildStep) :
    (b.run steps).settings = b.settings := by
  induction steps generalizing b with
  | nil => rfl
  | cons x steps ih =>
    refine (ih (b.step x)).trans ?_
    rcases b.step_cases x with e | ⟨page, h⟩
    · rw [e]
    · exact (compileDocument_eq_ok.mp h).2.settings

end SiteBuild

theorem Document.url_compile {d : Document} {url : PageUrl} {s : Settings} {page : CompiledPage}
    (h : d.compile url s = .ok page) : page.url = url := by
  by_cases hw : page.widgets = []
  · rw [eq_of_compile_nil h hw]
  · rw [(of_compile h hw).2.2]

namespace SiteBuild

variable {b : SiteBuild} {steps : List BuildStep}

/-- Pages leave the rooms of other pages as they are. -/
theorem room?_step {x : BuildStep} {url : String} (hx : x.url ≠ .ofText url) :
    (b.step x).plan.room? (PageUrl.ofText url).text = b.plan.room? (PageUrl.ofText url).text := by
  rcases b.step_cases x with e | ⟨page, h⟩
  · rw [e]
  · obtain ⟨hd, hp, -⟩ := of_compileDocument h
    refine ExecutionPlan.room?_addPage hp fun e => hx ?_
    rw [Document.url_compile hd] at e
    cases x with
    | text url' html => exact (PageUrl.eq_of_text_eq e).symm
    | tree url' d => exact (PageUrl.eq_of_text_eq e).symm

theorem room?_run {url : String} (h : ∀ x ∈ steps, x.url ≠ .ofText url) :
    (b.run steps).plan.room? (PageUrl.ofText url).text = b.plan.room? (PageUrl.ofText url).text := by
  induction steps generalizing b with
  | nil => rfl
  | cons x steps ih =>
    rw [List.forall_mem_cons] at h
    exact (ih h.2).trans (room?_step h.1)

end SiteBuild

end LivePages
