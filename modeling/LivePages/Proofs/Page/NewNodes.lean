import LivePages.Proofs.Page.HeadSection

namespace LivePages

variable {Q : NodeData → Prop}

/-- The nodes made from a template have data of a class. -/
structure Template.Makes (Q : NodeData → Prop) (a : Template) : Prop where
  element : Q (.element ⟨a.tag, a.attributes⟩)
  text : ∀ text ∈ a.text, Q (.text text)

namespace Tree

variable {t t' : Tree} {start : Nat} {a : Template}

/-- The nodes from a number on have data of a class. -/
def Adds (t : Tree) (start : Nat) (Q : NodeData → Prop) : Prop :=
  ∀ id data, start ≤ id → t.data? id = some data → Q data

theorem adds_start (t : Tree) : t.Adds t.size Q := by
  intro id data hid hd
  rw [data?_eq_none hid] at hd
  cases hd

theorem Adds.congr (h : t.Adds start Q) (hd : t'.data? = t.data?) : t'.Adds start Q :=
  fun id data hid he => h id data hid (hd ▸ he)

theorem Adds.createElement (h : t.Adds start Q) {tag : String} (ht : Q (.element ⟨tag, []⟩)) :
    (t.createElement tag).1.Adds start Q := by
  intro id data hid hd
  rw [Tree.createElement, data?_create] at hd
  split at hd
  next => exact Option.some.inj hd ▸ ht
  next => exact h id data hid hd

theorem Adds.instantiate (h : t.Adds start Q) (hn : (a.attributes.map Prod.fst).Nodup)
    (ha : a.Makes Q) : (t.instantiate a).1.Adds start Q := by
  intro id data hid hd
  rw [data?_instantiate hn] at hd
  split at hd
  next => exact Option.some.inj hd ▸ ha.element
  next =>
    split at hd
    next =>
      obtain ⟨text, ht, rfl⟩ := Option.map_eq_some_iff.mp hd
      exact ha.text text ht
    next => exact h id data hid hd

theorem Adds.existingOrNew (h : t.Adds start Q) (parent : NodeId)
    (hn : (a.attributes.map Prod.fst).Nodup) (ha : a.Makes Q) :
    (t.existingOrNew parent a).1.Adds start Q := by
  rw [Tree.existingOrNew]
  split
  next => exact h
  next => exact h.instantiate hn ha

theorem Adds.replaceMarkup (h : t.Adds start Q) {w : WidgetDescriptor}
    (ha : ∀ a ∈ w.templates, a.Makes Q) : (t.replaceMarkup w).Adds start Q := by
  have hi := h.instantiate w.distinct_instantiation (ha _ (WidgetDescriptor.mem_templates.mpr (.inr rfl)))
  cases hc : w.container? with
  | none =>
    rw [replaceMarkup_of_none hc]
    exact hi.congr (by simp)
  | some template =>
    have hi := hi.instantiate (WidgetDescriptor.distinct_container hc)
      (ha _ (WidgetDescriptor.mem_templates.mpr (.inl hc)))
    rw [replaceMarkup_of_some hc]
    exact hi.congr (by simp)

end Tree

namespace HeadCursor

variable {c : HeadCursor} {start : Nat}

theorem adds_add {a : Template} (h : c.tree.Adds start Q) (ha : a.IsHead) (hm : a.Makes Q) :
    (c.add a).tree.Adds start Q := by
  have hi := h.instantiate ha.distinct hm
  rw [add]
  split
  next => exact h
  next =>
    cases c.last with
    | none => exact hi.congr (Tree.data?_appendChild _ _ _)
    | some last => exact hi.congr (Tree.data?_insertAfter _ _ _)

theorem adds_addAll {templates : List Template} (h : c.tree.Adds start Q)
    (ha : ∀ a ∈ templates, a.IsHead) (hm : ∀ a ∈ templates, a.Makes Q) :
    (c.addAll templates).tree.Adds start Q := by
  induction templates generalizing c with
  | nil => exact h
  | cons a templates ih =>
    rw [List.forall_mem_cons] at ha hm
    exact ih (adds_add h ha.1 hm.1) ha.2 hm.2

theorem adds_placeAll {ws : List WidgetDescriptor} (h : c.tree.Adds start Q)
    (hh : ∀ w ∈ ws, ∀ a ∈ w.headTemplates, a.Makes Q)
    (hm : ∀ w ∈ ws, ∀ a ∈ w.templates, a.Makes Q) : (ws.foldl place c).tree.Adds start Q := by
  induction ws generalizing c with
  | nil => exact h
  | cons w ws ih =>
    rw [List.forall_mem_cons] at hh hm
    have hp : (c.place w).tree.Adds start Q :=
      adds_addAll (h.replaceMarkup hm.1) (fun a ha => WidgetDescriptor.isHead_of_mem_headTemplates ha) hh.1
    exact ih hp hh.2 hm.2

end HeadCursor

namespace CompiledPage

/-- Everything that can be added to a page. -/
def additions (page : CompiledPage) : List Template :=
  page.headTemplates ++ [connectionScript, readyScript] ++ page.widgets.flatMap WidgetDescriptor.templates

end CompiledPage

namespace Document

variable {d : Document} {url : PageUrl} {s : Settings} {page : CompiledPage} {start : Nat}

section Structure

variable (hq : ∀ tag ∈ Tree.sectionTags, Q (.element ⟨tag, []⟩))
include hq

theorem adds_ensureHtml (h : d.tree.Adds start Q) : d.ensureHtml.1.tree.Adds start Q := by
  rw [ensureHtml]
  split
  next => exact h
  next => exact (h.createElement (hq "html" (by decide))).congr (Tree.data?_appendChild _ _ _)

theorem adds_ensureHead (h : d.tree.Adds start Q) (html : NodeId) :
    (d.ensureHead html).1.tree.Adds start Q := by
  rw [ensureHead]
  split
  next => exact h
  next => exact (h.createElement (hq "head" (by decide))).congr (Tree.data?_prependChild _ _ _)

theorem adds_ensureBody (h : d.tree.Adds start Q) (html : NodeId) :
    (d.ensureBody html).1.tree.Adds start Q := by
  rw [ensureBody]
  split
  next => exact h
  next => exact (h.createElement (hq "body" (by decide))).congr (Tree.data?_appendChild _ _ _)

theorem adds_full : d.full.Adds d.tree.size Q :=
  adds_ensureBody hq (adds_ensureHead hq (adds_ensureHtml hq d.tree.adds_start) _) _

/-- What the compiler adds to a document are sections and what the page's templates make. -/
theorem adds_compile (h : d.compile url s = .ok page) (hm : ∀ a ∈ page.additions, a.Makes Q) :
    page.document.tree.Adds d.tree.size Q := by
  rcases compile_cases h with ⟨-, rfl⟩ | ⟨-, -, -, hp⟩
  · exact d.tree.adds_start
  have hu : page.url = url := congrArg CompiledPage.url hp
  have ht := congrArg (fun p : CompiledPage => p.document.tree) hp
  simp only [CompiledPage.additions, CompiledPage.headTemplates, hu, List.forall_mem_append,
    List.forall_mem_flatMap] at hm
  obtain ⟨⟨⟨session, head⟩, scripts⟩, widgets⟩ := hm
  have connection := scripts connectionScript (by simp)
  have ready := scripts readyScript (by simp)
  dsimp only at ht
  rw [ht, Tree.placeWidgets_eq]
  have h := HeadCursor.adds_addAll
    (c := ⟨d.full, d.fullHead, d.full.findComment? d.fullHead isMarkerComment⟩) (adds_full hq)
    (fun a ha => isHead_of_mem_sessionScripts ha) session
  generalize HeadCursor.addAll _ _ = c at h ⊢
  dsimp only
  have h := h.existingOrNew d.fullBody (a := connectionScript) .nil connection
  generalize c.tree.existingOrNew d.fullBody connectionScript = first at h ⊢
  have hf : (HeadCursor.mk (first.1.prependChild d.fullBody first.2) c.head c.last).tree.Adds
      d.tree.size Q := h.congr (Tree.data?_prependChild first.1 d.fullBody first.2)
  have h := HeadCursor.adds_placeAll hf head widgets
  generalize page.widgets.foldl HeadCursor.place _ = c' at h ⊢
  have h := h.existingOrNew d.fullBody (a := readyScript) .nil ready
  generalize c'.tree.existingOrNew d.fullBody readyScript = last at h ⊢
  exact h.congr (Tree.data?_appendChild last.1 d.fullBody last.2)

end Structure

end Document

end LivePages
