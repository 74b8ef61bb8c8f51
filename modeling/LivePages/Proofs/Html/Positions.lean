import LivePages.Html.TableContent
import LivePages.Proofs.Html.ElementNames
import LivePages.Proofs.Html.Progress
import LivePages.Proofs.Html.Flow
import Mathlib.Data.List.Find

namespace LivePages

/-- The modes in which foreign elements are read. -/
def foreignModes : List InsertionMode :=
  [.inBody, .inCaption, .inCell]

/-- The modes in which a part of a page is read. -/
def Region.modes : Region → List InsertionMode
  | head => [.inHead]
  | flow => [.inBody, .inCaption, .inCell, .inTemplate]
  | choices => [.inSelect, .inSelectInTable]
  | table => [.inTable]
  | columns => [.inColumnGroup]
  | rows => [.inTableBody]
  | cells => [.inRow]
  | foreign _ => foreignModes
  | label => foreignModes

def Region.isHtml : Region → Bool
  | foreign _ => false
  | label => false
  | _ => true

theorem Region.isHtml_of_mem_headContent {region : Region} {name : String} (h : name ∈ region.headContent) : region.isHtml := by
  cases region with
  | foreign => cases h
  | label => cases h
  | _ => rfl

/-- What is open in a part of a page: HTML, or a foreign element in something else. -/
def Region.Among (es : List OpenElement) : Region → Prop
  | foreign v => ∃ e rest, es = e :: rest ∧ rest ≠ [] ∧ e.vocabulary = v ∧ v ≠ .html ∧
    isLabel e.name v = false ∧ e.name ≠ "annotation-xml" ∧ e.holdsHtml = false
  | label => ∃ e rest, es = e :: rest ∧ rest ≠ [] ∧ isLabel e.name e.vocabulary
  | _ => ∀ e ∈ es, e.vocabulary = .html

theorem Region.isLabel_eq (e : OpenElement) : isLabel e.name e.vocabulary = (e.isMathmlText || e.isSvgHtml) := by
  rw [OpenElement.isMathmlText, OpenElement.isSvgHtml]
  cases e.vocabulary with
  | html => rfl
  | svg => rfl
  | mathml => exact (Bool.or_false _).symm

/-- The parts of a table stand in elements of their own. -/
def Region.isIn (around : List String) : Region → Bool
  | table => around.head?.any ["table"].contains
  | columns => around.head?.any ["colgroup"].contains
  | rows => around.head?.any ["tbody", "tfoot", "thead"].contains
  | cells => around.head?.any ["tr"].contains
  | _ => true

/-- A tag or a comment. -/
def Token.isPiece : Token → Bool
  | startTag _ => true
  | endTag _ => true
  | comment _ => true
  | _ => false

namespace Builder

variable {b b₁ b₂ : Builder} {region part : Region} {around : List String} {name : String} {tag : Tag}

/-- The open elements up to the innermost boundary. -/
def openWithin (b : Builder) : List OpenElement :=
  b.openElements.takeWhile fun e => !e.isHtmlIn boundaryTags

/-- The reader is in a part of a page, inside open elements with the given names. Every formatting
element that would be opened again is open. -/
structure At (b : Builder) (region : Region) (around : List String) : Prop extends b.Sound where
  content : b.content = .markup
  names : b.openElements.map OpenElement.name = around
  inside : b.openElements ≠ []
  among : region.Among b.openElements
  parent : region.isIn around
  mode : b.mode ∈ region.modes
  template : b.mode = .inTemplate → around.head? = some "template"
  /-- The open elements call for the mode. -/
  resets : region ≠ .choices → ∀ b' : Builder, b'.templateModes = b.templateModes →
    b'.modeFor b.openElements = b.mode
  formatting : ∀ f ∈ b.sinceMark, f.element ∈ b.openWithin ∧ f.tag.name = f.element.name
  entries : ∀ f, some f ∈ b.formatting → f.element.node < b.tree.size
  form : "form" ∉ around → b.form = none

namespace At

theorem steady (h : b.At region around) (hr : region.isHtml) : b.Steady := by
  refine ⟨h.toSound, ?_⟩
  have among := h.among
  cases region with
  | foreign => cases hr
  | label => cases hr
  | _ => exact among

theorem region_eq (h : b.At region around) (hm : b.mode = .inTemplate) : region = .flow := by
  have mode := h.mode
  rw [hm] at mode
  cases region <;> simp [Region.modes, foreignModes] at mode ⊢

theorem of_eq (h : b.At region around) (hf : b₁.frame = b.frame) (ht : b₁.tree.WellFormed)
    (hs : b.tree.size ≤ b₁.tree.size) : b₁.At region around := by
  have opened : b₁.openElements = b.openElements := congrArg Frame.openElements hf
  have mode : b₁.mode = b.mode := congrArg Frame.mode hf
  have modes : b₁.templateModes = b.templateModes := congrArg Frame.templateModes hf
  have formatting : b₁.formatting = b.formatting := congrArg Frame.formatting hf
  refine ⟨h.toSound.of_leads (.of_eq hf) ht hs, (congrArg Frame.content hf).trans h.content, opened ▸ h.names,
    opened ▸ h.inside, opened ▸ h.among, h.parent, mode ▸ h.mode, mode ▸ h.template, ?_, ?_, fun f hm => ?_, fun hn =>
      (congrArg Frame.form hf).trans (h.form hn)⟩
  · rw [modes, opened, mode]
    exact h.resets
  · rw [sinceMark, formatting, openWithin, opened]
    exact h.formatting
  · exact Nat.lt_of_lt_of_le (h.entries f (formatting ▸ hm)) hs

/-- A template that holds what stands in the flow of a page. -/
theorem of_entered (h : b.At region around) (hm : b.mode = .inTemplate) (hf : b₁.frame = b.frame.entered)
    (ht : b₁.tree.WellFormed) (hs : b.tree.size ≤ b₁.tree.size) : b₁.At region around := by
  have entered := hf.trans (Frame.entered_template hm)
  have mode : b₁.mode = .inBody := congrArg Frame.mode entered
  have modes : b₁.templateModes = .inBody :: b.templateModes.tail := congrArg Frame.templateModes entered
  have leads : b.frame.Leads b₁.frame := .inr hf
  have opened : b₁.openElements = b.openElements := openElements_eq leads
  have formatting : b₁.formatting = b.formatting := leads.formatting
  cases h.region_eq hm
  refine ⟨h.toSound.of_leads leads ht hs, leads.content.trans h.content, opened ▸ h.names,
    opened ▸ h.inside, opened ▸ h.among, rfl, by rw [mode]; decide, fun e => ?_, fun _ b' hb => ?_, ?_, fun f hm => ?_, fun hn =>
      leads.form.trans (h.form hn)⟩
  · rw [mode] at e
    cases e
  · have head := h.template hm
    have html := h.among
    rw [← h.names] at head
    rw [opened, mode]
    cases ho : b.openElements with
    | nil =>
      rw [ho] at head
      cases head
    | cons e es =>
      rw [ho, List.map_cons, List.head?_cons] at head
      rw [modeFor, html e (ho ▸ List.mem_cons_self), Option.some.inj head, hb, modes]
      rfl
  · rw [sinceMark, formatting, openWithin, opened]
    exact h.formatting
  · exact Nat.lt_of_lt_of_le (h.entries f (formatting ▸ hm)) hs

theorem of_leads (h : b.At region around) (hf : b.frame.Leads b₁.frame) (ht : b₁.tree.WellFormed)
    (hs : b.tree.size ≤ b₁.tree.size) : b₁.At region around := by
  by_cases hm : b.mode = .inTemplate
  · rcases hf with hf | hf
    · exact h.of_eq hf ht hs
    · exact h.of_entered hm hf ht hs
  · exact h.of_eq (hf.eq hm) ht hs

theorem prepared (h : b.At region around) (token : Token) : (b.prepared token).At region around :=
  h.of_eq (frame_prepared b token) (tree_prepared b token ▸ h.tree) (tree_prepared b token ▸ Nat.le_refl _)

theorem mem_names (h : b.At region around) {e : OpenElement} (he : e ∈ b.openElements) : e.name ∈ around :=
  h.names ▸ List.mem_map_of_mem he

end At

namespace Steady

theorem isHtml_iff (h : b.Steady) {e : OpenElement} (he : e ∈ b.openElements) :
    e.isHtml name ↔ e.name = name := by
  rw [OpenElement.isHtml, h.html e he]
  simp

theorem isHtmlIn_eq (h : b.Steady) {e : OpenElement} (he : e ∈ b.openElements) (names : List String) :
    e.isHtmlIn names = names.contains e.name := by
  rw [OpenElement.isHtmlIn, h.html e he]
  rfl

theorem map_openWithin (h : b.Steady) :
    b.openWithin.map OpenElement.name = within (b.openElements.map OpenElement.name) := by
  have html := h.html
  rw [openWithin]
  generalize b.openElements = es at html
  induction es with
  | nil => rfl
  | cons e es ih =>
    rw [List.forall_mem_cons] at html
    have same : e.isHtmlIn boundaryTags = boundaryTags.contains e.name := by
      rw [OpenElement.isHtmlIn, html.1]
      rfl
    rw [List.takeWhile_cons, same, List.map_cons, within, List.takeWhile_cons]
    split
    · exact congrArg (e.name :: ·) (ih html.2)
    · rfl

end Steady

/-- Searches that end at every boundary. -/
def EndsAtBoundaries (boundary : OpenElement → Bool) : Prop :=
  ∀ e : OpenElement, e.isHtmlIn boundaryTags → boundary e

theorem endsAtBoundaries_endsScope : EndsAtBoundaries OpenElement.endsScope := by
  intro e he
  have listed : ∀ n ∈ boundaryTags, defaultScopeTags.contains n := by decide
  rw [OpenElement.isHtmlIn, Bool.and_eq_true, List.contains_iff_mem] at he
  rw [OpenElement.endsScope, OpenElement.isHtmlIn, he.1, listed _ he.2]
  rfl

theorem endsAtBoundaries_endsButtonScope : EndsAtBoundaries OpenElement.endsButtonScope := by
  intro e he
  rw [OpenElement.endsButtonScope, endsAtBoundaries_endsScope e he]
  rfl

namespace At

variable (h : b.At region around) (hr : region.isHtml)
include h hr

theorem names_openWithin : b.openWithin.map OpenElement.name = within around := by
  rw [(h.steady hr).map_openWithin, h.names]

/-- What is not open up to the innermost boundary is in no scope. -/
theorem not_inScope {boundary : OpenElement → Bool} (hb : EndsAtBoundaries boundary)
    (hn : name ∉ within around) (hd : name ∉ boundaryTags) : b.inScope boundary (·.isHtml name) = false := by
  have html := (h.steady hr).html
  rw [← h.names] at hn
  rw [inScope]
  generalize b.openElements = es at html hn
  induction es with
  | nil => rfl
  | cons e es ih =>
    rw [List.forall_mem_cons] at html
    have boundary' : e.isHtmlIn boundaryTags = boundaryTags.contains e.name := by
      rw [OpenElement.isHtmlIn, html.1]
      rfl
    have test (hne : e.name ≠ name) : e.isHtml name = false := by
      rw [OpenElement.isHtml, beq_eq_false_iff_ne.mpr hne, Bool.and_false]
    rw [List.map_cons, within, List.takeWhile_cons] at hn
    split at hn
    next =>
      rw [List.mem_cons, not_or] at hn
      have test := test (Ne.symm hn.1)
      rw [List.find?_cons, test]
      cases boundary e with
      | true => exact test
      | false => exact ih html.2 hn.2
    next hc =>
      rw [Bool.not_eq_true', Bool.not_eq_false] at hc
      have test : e.isHtml name = false := test fun e' => hd (List.contains_iff_mem.mp (e' ▸ hc))
      rw [List.find?_cons_of_pos (by rw [hb e (boundary'.trans hc), Bool.or_true])]
      exact test

theorem closeParagraphInScope_eq (hn : "p" ∉ within around) : b.closeParagraphInScope = b := by
  rw [closeParagraphInScope, h.not_inScope hr endsAtBoundaries_endsButtonScope hn (by decide)]
  rfl

theorem inDefaultScope_eq (hn : name ∉ within around) (hd : name ∉ boundaryTags) :
    b.inDefaultScope name = false :=
  h.not_inScope hr endsAtBoundaries_endsScope hn hd

theorem hasOpen_template (hn : "template" ∉ around) : b.hasOpen "template" = false := by
  rw [hasOpen, List.any_eq_false]
  intro e he
  rw [(h.steady hr).isHtml_iff he]
  exact fun e' => hn (e' ▸ h.mem_names he)

omit hr in
/-- No formatting element has to be opened again. -/
theorem reconstruct_eq : b.reconstruct = b := by
  have none : b.sinceMark.takeWhile (fun f => !b.isOpen f.element.node) = [] := by
    cases hs : b.sinceMark with
    | nil => rfl
    | cons f fs =>
      obtain ⟨ho, -⟩ := h.formatting f (hs ▸ List.mem_cons_self)
      have opened : b.isOpen f.element.node :=
        List.any_eq_true.mpr ⟨f.element, (List.takeWhile_sublist _).mem ho, beq_self_eq_true _⟩
      rw [List.takeWhile_cons_of_neg]
      rw [opened]
      exact Bool.false_ne_true
  rw [reconstruct, none]
  rfl

/-- A formatting element that has been opened since the mark is open up to the innermost boundary. -/
theorem name_mem_within {f : FormattingElement} (hf : f ∈ b.sinceMark) : f.element.name ∈ within around :=
  h.names_openWithin hr ▸ List.mem_map_of_mem (h.formatting f hf).1

theorem forgetThird_eq (hn : tag.name ∉ within around) : b.forgetThird tag = b := by
  have none : b.sinceMark.filter (·.tag.isLike tag) = [] := by
    rw [List.filter_eq_nil_iff]
    intro f hf hl
    rw [Tag.isLike, Bool.and_eq_true, beq_iff_eq] at hl
    exact hn (hl.1 ▸ (h.formatting f hf).2 ▸ h.name_mem_within hr hf)
  rw [forgetThird, none]

theorem endOpenLink_eq (hn : "a" ∉ within around) : b.endOpenLink = b := by
  have none : b.sinceMark.find? (·.element.isHtml "a") = none := by
    rw [List.find?_eq_none]
    intro f hf
    rw [OpenElement.isHtml, Bool.and_eq_true, beq_iff_eq, beq_iff_eq]
    exact fun e => hn (e.2 ▸ h.name_mem_within hr hf)
  rw [endOpenLink, none]

theorem closeItem_eq {names : List String} (hi : endsItem names around = false) : b.closeItem names = b := by
  have steady := h.steady hr
  -- The search for an item among the open elements is the one among their names.
  have same (e : OpenElement) (he : e ∈ b.openElements) : (e.isHtmlIn names ||
      (e.isSpecial && !(["address", "div", "p"].contains e.name))) = (names.contains e.name ||
        (specialTags.contains e.name && !(["address", "div", "p"].contains e.name))) := by
    rw [OpenElement.isSpecial, steady.isHtmlIn_eq he, steady.isHtmlIn_eq he]
  rw [endsItem, ← h.names, List.find?_map, Option.any_map] at hi
  rw [closeItem, List.find?_congr same]
  split
  next e he =>
    rw [Function.comp_def, he, Option.any_some] at hi
    rw [steady.isHtmlIn_eq (List.mem_of_find?_eq_some he), hi, if_neg Bool.false_ne_true]
  next => rfl

theorem currentIsHtmlIn_eq (names : List String) :
    b.currentIsHtmlIn names = around.head?.any names.contains := by
  rw [currentIsHtmlIn, currentIs, ← h.names]
  split
  next ho => rw [ho]; rfl
  next e es ho => rw [(h.steady hr).isHtmlIn_eq (ho ▸ List.mem_cons_self), ho]; rfl

theorem popCurrent_eq (hn : around.head? ≠ some name) : b.popCurrent name = b := by
  have other : b.currentIsHtml name = false := by
    rw [currentIsHtml, currentIs]
    split
    next => rfl
    next e es ho =>
      rw [← h.names, ho, List.map_cons, List.head?_cons] at hn
      rw [← Bool.not_eq_true, (h.steady hr).isHtml_iff (ho ▸ List.mem_cons_self)]
      exact fun e' => hn (congrArg some e')
  rw [popCurrent, other, if_neg Bool.false_ne_true]

omit hr in
/-- The mode is set anew to the one that the open elements call for. -/
theorem resetMode_eq (hn : region ≠ .choices) {s : Builder} (ho : s.openElements = b.openElements)
    (hm : s.templateModes = b.templateModes) : s.resetMode = { s with mode := b.mode } := by
  have mode : s.modeFor s.openElements = b.mode := (congrArg s.modeFor ho).trans (h.resets hn s hm)
  rw [resetMode, mode]
  rfl

theorem clearTo_eq {names : List String} (hn : around.head?.any names.contains) : b.clearTo names = b := by
  have current := (h.currentIsHtmlIn_eq hr names).trans hn
  rw [currentIsHtmlIn, currentIs] at current
  split at current
  next => cases current
  next e es ho =>
    rw [clearTo, popWhile, ho, List.dropWhile_cons_of_neg (by rw [current]; exact Bool.false_ne_true), ← ho]

end At

/-! The current element. -/

section Current

variable {e : OpenElement} {es : List OpenElement} (ho : b.openElements = e :: es)
include ho

theorem inScope_current {boundary test : OpenElement → Bool} (ht : test e) : b.inScope boundary test := by
  rw [inScope, ho, List.find?_cons_of_pos (by rw [ht]; rfl)]
  exact ht

theorem popThrough_current {test : OpenElement → Bool} (ht : test e) :
    b.popThrough test = { b with openElements := es } := by
  rw [popThrough, ho, List.dropWhile_cons_of_neg (by rw [ht]; exact Bool.false_ne_true), List.tail_cons]

theorem popWhile_current {test : OpenElement → Bool} (ht : test e = false) : b.popWhile test = b := by
  rw [popWhile, ho, List.dropWhile_cons_of_neg (by rw [ht]; exact Bool.false_ne_true), ← ho]

variable (hv : e.vocabulary = .html) (hn : e.name = name)
include hn

theorem closeImpliedExcept_eq : b.closeImpliedExcept name = b :=
  popWhile_current ho (by simp [hn])

include hv

omit ho in
theorem isHtml_current : e.isHtml name := by
  rw [OpenElement.isHtml, hv, hn]
  simp

omit ho in
theorem isHtmlIn_current (names : List String) : e.isHtmlIn names = names.contains name := by
  rw [OpenElement.isHtmlIn, hv, hn]
  rfl

theorem closeImplied_eq (hi : name ∉ impliedEndTags) : b.closeImplied = b :=
  popWhile_current ho (by rw [isHtmlIn_current hv hn]; simpa using hi)

theorem popThroughHtml_current : b.popThroughHtml name = { b with openElements := es } :=
  popThrough_current ho (isHtml_current hv hn)

theorem currentIsHtml_current : b.currentIsHtml name := by
  rw [currentIsHtml, currentIs, ho]
  exact isHtml_current hv hn

theorem clearTo_current {names : List String} (hc : names.contains name) : b.clearTo names = b :=
  popWhile_current ho (by rw [isHtmlIn_current hv hn, hc]; rfl)

end Current

/-! Text that waits in a table. -/

/-- Modes in which spaces wait for what follows them. -/
def tableModes : List InsertionMode :=
  [.inTable, .inTableBody, .inRow]

def waiting (b : Builder) (run : String) : Builder :=
  { b with returnMode := b.mode, mode := .inTableText, tableText := [.space run] }

/-- The builder when what waits has been put into the table. -/
def waited (b : Builder) (run : String) : Builder :=
  { b with returnMode := b.mode, tableText := [], tree := b.tree.plant b.here (.text run) }

/-- A builder goes on as another one does wherever no more text comes. -/
inductive Stands : Builder → Builder → Prop
  | itself (b : Builder) : Stands b b
  | waiting {b : Builder} {run : String} (h : b.Steady) (hm : b.mode ∈ tableModes) (hl : b.NoTextLast) :
      Stands (b.waiting run) (b.waited run)

namespace Stands

variable {s s' : Builder} {token : Token}

theorem content (h : b.Stands s) : b.content = s.content := by
  cases h <;> rfl

theorem eq_of_mode (h : b.Stands s) (hm : s.mode ∉ tableModes) : b = s := by
  cases h with
  | itself => rfl
  | waiting _ mode => exact absurd mode hm

theorem eq_of_noTextLast (h : b.Stands s) (hl : s.NoTextLast) : b = s := by
  cases h with
  | itself => rfl
  | @waiting c run hc =>
    have planted := hc.tree.planted hc.here_lt (.text run)
    have last := hl c.tree.size planted.lastChild?
    have text : (c.waited run).tree.text? c.tree.size = some run := by
      rw [Tree.text?, waited, planted.data?, if_pos rfl]
      rfl
    cases text.symm.trans last

/-- What waits is put into the table before a tag or a comment is read. -/
theorem read_eq (h : b.Stands s) (hs : s.Steady) (ht : token.isPiece)
    (hm : (s.prepared token).inMode token = s'.done) : b.read token = s' := by
  have kept : dropLineFeed token = some token := by
    cases token <;> first | rfl | cases ht
  cases h with
  | itself => exact hs.read_eq (fun _ => kept) hm
  | @waiting c run hc mode hl =>
    have ready : ((c.waiting run).prepared token).placeTableText = (c.waited run).prepared token := by
      let settled : Builder := { (c.waiting run).prepared token with tableText := [], mode := c.mode }
      have opened : settled.openElements = c.openElements := by cases token <;> rfl
      have tree : settled.tree = c.tree := by cases token <;> rfl
      have here : settled.here = c.here := here_eq opened
      have fostering : settled.fostering = c.fostering := by cases token <;> rfl
      have sound : settled.Sound :=
        ⟨tree ▸ hc.tree, tree ▸ hc.root, fostering.trans hc.fostering, by rw [opened, tree]; exact hc.nodes⟩
      have last : settled.NoTextLast := by rw [NoTextLast, tree, here]; exact hl
      have placed : ((c.waiting run).prepared token).placeTableText = settled.insertText run := by
        cases token <;> rfl
      rw [placed, sound.insertText_new last, here, tree]
      cases token <;> rfl
    have again : ((c.waiting run).prepared token).inMode token = ((c.waited run).prepared token, .again) := by
      rw [← ready]
      cases token <;> first | rfl | cases ht
    have steady : (c.waiting run).Steady := ⟨⟨hc.tree, hc.root, hc.fostering, hc.nodes⟩, hc.html⟩
    exact steady.read_eq_again (fun _ => kept) again (hs.prepared token) hm

end Stands

theorem At.mode_mem_tableModes (h : b.At region around) (hr : region.isTable) : b.mode ∈ tableModes := by
  have listed : ∀ m ∈ region.modes, m ∈ tableModes := by
    cases region with
    | table => decide
    | rows => decide
    | cells => decide
    | _ => cases hr
  exact listed _ h.mode

/-- Nothing waits outside tables. -/
theorem At.eq_of_stands {s : Builder} (h : s.At region around) (hb : b.Stands s) (hr : region.isTable = false) :
    b = s := by
  have others : ∀ m ∈ region.modes, m ∉ tableModes := by
    have foreign : ∀ m ∈ foreignModes, m ∉ tableModes := by decide
    cases region with
    | table => cases hr
    | rows => cases hr
    | cells => cases hr
    | foreign => exact foreign
    | label => exact foreign
    | _ => decide
  exact hb.eq_of_mode (others _ h.mode)

/-! Elements that have been opened. -/

/-- The names that decide which mode a reader goes back to. -/
def modeTags : List String :=
  ["select", "td", "th", "tr", "tbody", "thead", "tfoot", "caption", "colgroup", "table", "template",
    "head", "body", "frameset", "html"]

theorem modeFor_other {e : OpenElement} (he : e.vocabulary ≠ .html ∨ e.name ∉ modeTags) (b : Builder)
    (es : List OpenElement) : b.modeFor (e :: es) = b.modeFor es := by
  rw [modeFor]
  by_cases hv : e.vocabulary = .html
  · have hn := he.resolve_left (not_not_intro hv)
    rw [hv, if_neg (by decide)]
    dsimp only
    split
    all_goals first
      | next e' => exact absurd (by rw [e']; decide) hn
      | rfl
  · rw [if_pos (bne_iff_ne.mpr hv)]

/-- The element that a start tag opens. -/
def opening (b : Builder) (v : Vocabulary) (tag : Tag) : OpenElement :=
  ⟨b.tree.size, v, tag.name, false⟩

/-- An element has been opened in one of the ways in which elements are opened. -/
structure Opened (b : Builder) (v : Vocabulary) (tag : Tag) (b₁ : Builder) : Prop where
  tree : b₁.tree = b.tree.plant b.here (.element ⟨tag.name, tag.attributes⟩)
  openElements : b₁.openElements = b.opening v tag :: b.openElements
  content : b₁.content = b.content
  fostering : b₁.fostering = b.fostering
  form : b₁.form = b.form ∨ tag.name = "form"
  formatting : b₁.formatting = none :: b.formatting ∨ (b.opening v tag).isHtmlIn boundaryTags = false ∧
    (b₁.formatting = b.formatting ∨ b₁.formatting = some ⟨b.opening v tag, tag⟩ :: b.formatting)

namespace Opened

variable {v : Vocabulary}

theorem here (ho : b.Opened v tag b₁) : b₁.here = b.tree.size := by
  rw [Builder.here, ho.openElements]
  rfl

theorem planted (ho : b.Opened v tag b₁) (h : b.Sound) :
    b.tree.Planted b.here (.element ⟨tag.name, tag.attributes⟩) b₁.tree :=
  ho.tree ▸ h.tree.planted h.here_lt _

theorem sound (ho : b.Opened v tag b₁) (h : b.Sound) : b₁.Sound :=
  h.opening ho.fostering ho.tree ho.openElements rfl

theorem formatted (ho : b.Opened v tag b₁) (h : b.At region around) :
    ∀ f ∈ b₁.sinceMark, f.element ∈ b₁.openWithin ∧ f.tag.name = f.element.name := by
  rcases ho.formatting with e | ⟨hb, e⟩
  · rw [sinceMark, e]
    exact fun f hf => absurd hf List.not_mem_nil
  · have opened : b₁.openWithin = b.opening v tag :: b.openWithin := by
      rw [openWithin, ho.openElements, List.takeWhile_cons_of_pos (by rw [hb]; rfl), openWithin]
    have old (f : FormattingElement) (hf : f ∈ b.sinceMark) :
        f.element ∈ b₁.openWithin ∧ f.tag.name = f.element.name :=
      ⟨opened ▸ List.mem_cons_of_mem _ (h.formatting f hf).1, (h.formatting f hf).2⟩
    rcases e with e | e
    · rw [sinceMark, e]
      exact old
    · have since : b₁.sinceMark = ⟨b.opening v tag, tag⟩ :: b.sinceMark := by
        rw [sinceMark, e]
        rfl
      rw [since, List.forall_mem_cons]
      exact ⟨⟨opened ▸ List.mem_cons_self, rfl⟩, old⟩

/-- The reader is in the element that has been opened. -/
theorem reader (ho : b.Opened v tag b₁) (h : b.At region around) (hm : b₁.mode ∈ part.modes)
    (ha : part.Among b₁.openElements) (hp : part.isIn (tag.name :: around))
    (ht : b₁.mode = .inTemplate → tag.name = "template")
    (hr : part ≠ .choices → ∀ b' : Builder, b'.templateModes = b₁.templateModes →
      b'.modeFor b₁.openElements = b₁.mode) :
    b₁.At part (tag.name :: around) where
  toSound := ho.sound h.toSound
  content := ho.content.trans h.content
  names := by
    rw [ho.openElements, List.map_cons, h.names]
    rfl
  inside := ho.openElements ▸ List.cons_ne_nil _ _
  among := ha
  parent := hp
  mode := hm
  template hm := congrArg some (ht hm)
  resets := hr
  formatting := ho.formatted h
  entries f hf := by
    have old (hf : some f ∈ b.formatting) : f.element.node < b₁.tree.size := by
      rw [(ho.planted h.toSound).size]
      exact Nat.lt_succ_of_lt (h.entries f hf)
    rcases ho.formatting with e | ⟨-, e | e⟩
    · rw [e, List.mem_cons] at hf
      exact old (hf.resolve_left nofun)
    · exact old (e ▸ hf)
    · rw [e, List.mem_cons] at hf
      rcases hf with hf | hf
      · cases hf
        rw [(ho.planted h.toSound).size]
        exact Nat.lt_succ_self _
      · exact old hf
  form hn := by
    rw [List.mem_cons, not_or] at hn
    rw [ho.form.resolve_right (Ne.symm hn.1), h.form hn.2]

end Opened

/-- The builder as it is when all that has been opened since is closed. -/
def closedTo (b₂ b : Builder) : Builder :=
  { b₂ with
    mode := b.mode
    openElements := b.openElements
    formatting := b.formatting
    form := b.form
    templateModes := b.templateModes }

/-- An element has been opened, and its end tag brings the reader back to where it was. -/
structure Holds (b : Builder) (around : List String) (e : Element) (part : Region) (b₁ : Builder) :
    Prop where
  tree : b₁.tree = b.tree.plant b.here (.element e)
  reader : b₁.At part (e.tag :: around)
  here : b₁.here = b.tree.size
  settled : b₁.skipLineFeed → flowKind? e.tag = some .preformatted
  shut : ∀ b₂ s₂ : Builder, b₂.Stands s₂ → b₁.frame.Leads s₂.frame → s₂.At part (e.tag :: around) →
    b.frame.Leads (b₂.read (.endTag ⟨readName e.tag, [], false⟩)).frame ∧
      (b₂.read (.endTag ⟨readName e.tag, [], false⟩)).tree = s₂.tree ∧
      (b₂.read (.endTag ⟨readName e.tag, [], false⟩)).skipLineFeed = false

theorem Opened.frame_closedTo {v : Vocabulary} (ho : b.Opened v tag b₁) (hf : b₁.frame.Leads b₂.frame) :
    (b₂.closedTo b).frame = b.frame := by
  have content : b₂.content = b.content := hf.content.trans ho.content
  have fostering : b₂.fostering = b.fostering := hf.fostering.trans ho.fostering
  rw [frame, frame, closedTo, content, fostering]

section Holds

variable {e : Element} {v : Vocabulary}

/-- An element is closed by its end tag, whatever has been put into it. -/
theorem Opened.holds (ho : b.Opened v ⟨e.tag, e.attributes, false⟩ b₁) (hb : b₁.At part (e.tag :: around))
    (hs : b₁.skipLineFeed → flowKind? e.tag = some .preformatted)
    (hend : ∀ b₂ s₂ : Builder, b₂.Stands s₂ → b₁.frame.Leads s₂.frame → s₂.At part (e.tag :: around) →
      b₂.read (.endTag ⟨readName e.tag, [], false⟩) =
        (s₂.prepared (.endTag ⟨readName e.tag, [], false⟩)).closedTo b) :
    b.Holds around e part b₁ where
  tree := ho.tree
  reader := hb
  here := ho.here
  settled := hs
  shut b₂ s₂ stands leads reader := by
    rw [hend b₂ s₂ stands leads reader]
    refine ⟨.of_eq (ho.frame_closedTo ?_), rfl, rfl⟩
    rwa [frame_prepared]

/-- The end tag of an element of HTML is read in the mode that its content is read in. -/
theorem Opened.holds_html (ho : b.Opened v ⟨e.tag, e.attributes, false⟩ b₁)
    (hb : b₁.At part (e.tag :: around)) (hp : part.isHtml) (hn : readName e.tag = e.tag)
    (hs : b₁.skipLineFeed → flowKind? e.tag = some .preformatted)
    (hend : ∀ s₂ : Builder, b₁.frame.Leads s₂.frame → s₂.At part (e.tag :: around) →
      s₂.inMode (.endTag ⟨e.tag, [], false⟩) = (s₂.closedTo b).done) : b.Holds around e part b₁ := by
  refine ho.holds hb hs fun b₂ s₂ stands leads reader => ?_
  rw [hn]
  refine stands.read_eq (reader.steady hp) rfl (hend _ ?_ (reader.prepared _))
  rwa [frame_prepared]

/-- What holds for a builder in which an element of the flow is read holds for the one before. -/
theorem Holds.of_leads {b' : Builder} (hb : b'.Holds around e part b₁) (hf : b.frame.Leads b'.frame)
    (ht : b'.tree = b.tree) : b.Holds around e part b₁ where
  tree := by rw [hb.tree, ht, here_eq (openElements_eq hf)]
  reader := hb.reader
  here := by rw [hb.here, ht]
  settled := hb.settled
  shut b₂ s₂ stands leads reader := by
    obtain ⟨frame, rest⟩ := hb.shut b₂ s₂ stands leads reader
    exact ⟨hf.trans frame, rest⟩

end Holds

end Builder

end LivePages
