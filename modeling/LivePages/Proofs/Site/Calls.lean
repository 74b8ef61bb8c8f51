import LivePages.Proofs.Site.Run

namespace LivePages

/-- A call that changes a build as it goes. What it did before it failed stays done. -/
abbrev BuildAction : Type → Type :=
  ExceptT WidgetError (StateM SiteBuild)

namespace BuildAction

variable {α β : Type}

/-- What a call gives back, and the build that it leaves behind. -/
def on (action : BuildAction α) (b : SiteBuild) : Except WidgetError α × SiteBuild :=
  action.run.run b

/-- The room of a page is put in the plan when all its widgets are in the room. -/
def addPage (page : CompiledPage) : BuildAction Unit := do
  let b ← get
  if page.widgets.isEmpty then return ()
  let present := ((b.plan.room? page.url.text).map Room.executors).getD .empty
  let executors ← ofExcept (addExecutors b.settings present page.widgets)
  let room := Room.withExecutors b.settings executors
  modify fun b =>
    { b with plan := { b.plan with rooms := b.plan.rooms.insert page.url.text room } }

def compileDocument (url : PageUrl) (d : Document) : BuildAction CompiledPage := do
  let b ← get
  let page ← ofExcept (d.compile url b.settings)
  addPage page
  modify fun b => { b with assets := b.assets.union page.assets }
  modify fun b => { b with pagesCompiled := b.pagesCompiled + 1 }
  if page.isInteractive then
    modify fun b => { b with interactivePages := b.interactivePages + 1 }
  return page

def compilePage (url html : String) : BuildAction String := do
  let url := PageUrl.ofText url
  let page ← compileDocument url (.ofHtml url.text html)
  return if page.isInteractive then page.html else html

theorem on_bind (action : BuildAction α) (f : α → BuildAction β) (b : SiteBuild) :
    (action >>= f).on b = match action.on b with
      | (.ok a, b') => (f a).on b'
      | (.error e, b') => (.error e, b') := by
  change (ExceptT.bindCont f (action.on b).1).run (action.on b).2 = _
  rcases action.on b with ⟨e | a, b'⟩ <;> rfl

theorem addPage_on (page : CompiledPage) (b : SiteBuild) : (addPage page).on b =
    match b.plan.addPage page b.settings with
    | .ok plan => (.ok (), { b with plan })
    | .error e => (.error e, b) := by
  rw [ExecutionPlan.addPage, addPage, on_bind]
  -- What is read first is the build itself.
  change BuildAction.on _ b = _
  cases page.widgets.isEmpty with
  | true => rfl
  | false =>
    rw [if_neg Bool.false_ne_true, if_neg Bool.false_ne_true]
    dsimp only
    cases addExecutors b.settings (((b.plan.room? page.url.text).map Room.executors).getD .empty)
      page.widgets with
    | error e => rfl
    | ok executors => rfl

theorem compileDocument_on (url : PageUrl) (d : Document) (b : SiteBuild) :
    (compileDocument url d).on b = match b.compileDocument url d with
      | .ok (b', page) => (.ok page, b')
      | .error e => (.error e, b) := by
  rw [SiteBuild.compileDocument, compileDocument, on_bind]
  change BuildAction.on _ b = _
  cases d.compile url b.settings with
  | error e => rfl
  | ok page =>
    change BuildAction.on (addPage page >>= _) b = _
    rw [on_bind, addPage_on, ok_bind]
    cases b.plan.addPage page b.settings with
    | error e => rfl
    | ok plan =>
      cases page.isInteractive with
      | true => rfl
      | false => rfl

theorem compilePage_on (url html : String) (b : SiteBuild) :
    (compilePage url html).on b = match b.compilePage url html with
      | .ok (b', text) => (.ok text, b')
      | .error e => (.error e, b) := by
  rw [SiteBuild.compilePage, compilePage, on_bind, compileDocument_on]
  cases b.compileDocument (.ofText url) (.ofHtml (PageUrl.ofText url).text html) with
  | error e => rfl
  | ok r => rfl

end BuildAction

/-- What a call gives back: the markup of a page that came as text, or the page itself. -/
inductive BuildAnswer where
  | text (html : String)
  | tree (page : CompiledPage)

namespace BuildStep

def call : BuildStep → BuildAction BuildAnswer
  | text url html => .text <$> BuildAction.compilePage url html
  | tree url d => .tree <$> BuildAction.compileDocument (.ofText url) d

def answer : BuildStep → CompiledPage → BuildAnswer
  | text _ html, page => .text (if page.isInteractive then page.html else html)
  | tree _ _, page => .tree page

theorem call_on (x : BuildStep) (b : SiteBuild) :
    x.call.on b = match b.compileDocument x.url x.document with
      | .ok (b', page) => (.ok (x.answer page), b')
      | .error e => (.error e, b) := by
  cases x with
  | text url html =>
    change ((.text <$> BuildAction.compilePage url html : BuildAction BuildAnswer)).on b = _
    rw [← bind_pure_comp, BuildAction.on_bind, BuildAction.compilePage_on, SiteBuild.compilePage,
      BuildStep.url, document]
    cases b.compileDocument (.ofText url) (.ofHtml (PageUrl.ofText url).text html) with
    | error e => rfl
    | ok r => rfl
  | tree url d =>
    change ((.tree <$> BuildAction.compileDocument (.ofText url) d : BuildAction BuildAnswer)).on b = _
    rw [← bind_pure_comp, BuildAction.on_bind, BuildAction.compileDocument_on, BuildStep.url,
      document]
    cases b.compileDocument (.ofText url) d with
    | error e => rfl
    | ok r => rfl

/-- A call fails and leaves the build as it is, or it gives an answer and adds a page. -/
theorem call_cases (x : BuildStep) (b : SiteBuild) : (∃ e, x.call.on b = (.error e, b)) ∨
    ∃ page b', x.document.compile x.url b.settings = .ok page ∧ b.Adds page b' ∧
      x.call.on b = (.ok (x.answer page), b') := by
  rw [call_on]
  cases h : b.compileDocument x.url x.document with
  | error e => exact .inl ⟨e, rfl⟩
  | ok r =>
    obtain ⟨hp, ha⟩ := SiteBuild.compileDocument_eq_ok.mp h
    exact .inr ⟨r.2, r.1, hp, ha, rfl⟩

theorem call_of_adds {x : BuildStep} {b b' : SiteBuild} {page : CompiledPage}
    (hp : x.document.compile x.url b.settings = .ok page) (ha : b.Adds page b') :
    x.call.on b = (.ok (x.answer page), b') := by
  rw [call_on, SiteBuild.compileDocument_eq_ok.mpr ⟨hp, ha⟩]

theorem call_on_snd (x : BuildStep) (b : SiteBuild) : (x.call.on b).2 = b.step x := by
  rw [call_on, SiteBuild.step_eq]
  cases b.compileDocument x.url x.document with
  | error e => rfl
  | ok r => rfl

end BuildStep

namespace SiteBuild

/-- What calls give back, each of them made on the build that those before it left behind. -/
def answers (b : SiteBuild) : List BuildStep → List (Except WidgetError BuildAnswer)
  | [] => []
  | x :: calls => (x.call.on b).1 :: (x.call.on b).2.answers calls

/-- The build that calls leave behind. -/
def after (b : SiteBuild) (calls : List BuildStep) : SiteBuild :=
  calls.foldl (fun b x => (x.call.on b).2) b

/-- The calls that do not fail. -/
def accepted (b : SiteBuild) : List BuildStep → List BuildStep
  | [] => []
  | x :: calls =>
    match x.call.on b with
    | (.ok _, b') => x :: b'.accepted calls
    | (.error _, b') => b'.accepted calls

variable {b b' : SiteBuild} {x : BuildStep} {calls : List BuildStep}

theorem after_cons (b : SiteBuild) (x : BuildStep) (calls : List BuildStep) :
    b.after (x :: calls) = (x.call.on b).2.after calls :=
  rfl

theorem accepted_of_error {e : WidgetError} (h : x.call.on b = (.error e, b')) :
    b.accepted (x :: calls) = b'.accepted calls := by
  rw [accepted, h]

theorem accepted_of_ok {answer : BuildAnswer} (h : x.call.on b = (.ok answer, b')) :
    b.accepted (x :: calls) = x :: b'.accepted calls := by
  rw [accepted, h]

/-- Calls that fail might as well not have been made. -/
theorem after_accepted (b : SiteBuild) (calls : List BuildStep) :
    b.after (b.accepted calls) = b.after calls ∧
      b.accepted (b.accepted calls) = b.accepted calls := by
  induction calls generalizing b with
  | nil => exact ⟨rfl, rfl⟩
  | cons x calls ih =>
    rw [after_cons]
    rcases x.call_cases b with ⟨e, h⟩ | ⟨page, b', -, -, h⟩
    · rw [accepted_of_error h, h]
      exact ih b
    · rw [accepted_of_ok h, after_cons, accepted_of_ok h, h]
      exact ⟨(ih b').1, congrArg (x :: ·) (ih b').2⟩

theorem after_eq_run (b : SiteBuild) (calls : List BuildStep) : b.after calls = b.run calls := by
  rw [after, run]
  congr
  funext b x
  exact x.call_on_snd b

end SiteBuild

end LivePages
