import LivePages.Html.PageContent
import LivePages.Proofs.Html.Positions

namespace LivePages

namespace FlowKind

variable {kind : FlowKind} {name : String}

/-- Elements that change nothing but what is open. -/
def isPlain : FlowKind → Bool
  | formatting => false
  | form => false
  | embedded => false
  | _ => true

theorem Names.mem (h : kind.Names name) (hk : kind ≠ .other) : kind ∈ ruled ∧ name ∈ kind.tags :=
  h.resolve_right fun ho => hk ho.1

theorem Names.other (h : FlowKind.other.Names name) : name ∉ ruledTags := by
  rcases h with ⟨-, hn⟩ | ⟨-, hn⟩
  · cases hn
  · exact hn

theorem Names.item_cases {names : List String} (h : (item names).Names name) :
    names = ["li"] ∧ name = "li" ∨ names = ["dd", "dt"] ∧ (name = "dd" ∨ name = "dt") := by
  have listed := h.mem (by simp)
  simp only [ruled, tags, List.mem_cons, item.injEq, reduceCtorEq, List.not_mem_nil, or_false,
    false_or] at listed
  rcases listed with ⟨rfl | rfl, hm⟩
  · exact .inl ⟨rfl, List.mem_singleton.mp hm⟩
  · exact .inr ⟨rfl, List.mem_pair.mp hm⟩

theorem Names.annotation_cases {names : List String} {kept : String}
    (h : (FlowKind.annotation names kept).Names name) :
    kept = "" ∧ (name = "rb" ∨ name = "rtc") ∨ kept = "rtc" ∧ (name = "rp" ∨ name = "rt") := by
  have listed := h.mem (by simp)
  simp only [ruled, tags, List.mem_cons, FlowKind.annotation.injEq, reduceCtorEq, List.not_mem_nil,
    or_false, false_or] at listed
  rcases listed with ⟨⟨rfl, rfl⟩ | ⟨rfl, rfl⟩, hm⟩
  · exact .inl ⟨rfl, List.mem_pair.mp hm⟩
  · exact .inr ⟨rfl, List.mem_pair.mp hm⟩

end FlowKind

/-- Elements that hold the parts of pages and tables do not stand in the flow. -/
theorem not_mem_of_flowKind? {name : String} {kind : FlowKind} (h : flowKind? name = some kind)
    {names : List String} (hn : ∀ n ∈ names, flowKind? n = none) : name ∉ names := by
  intro hm
  rw [hn name hm] at h
  cases h

namespace Builder

variable {b b' : Builder} {around : List String} {name : String} {tag : Tag}

/-! End tags. -/

section EndTags

variable {e : OpenElement} {es : List OpenElement} (ho : b.openElements = e :: es)
  (hv : e.vocabulary = .html) (hn : e.name = name)
include ho hn hv

theorem closeScoped_current (hi : name ∉ impliedEndTags) :
    b.closeScoped name = { b with openElements := es } := by
  have he := isHtml_current hv hn
  rw [closeScoped, inDefaultScope, if_pos (inScope_current ho he), closeImplied_eq ho hv hn hi,
    popThroughHtml, popThrough_current ho he]

theorem closeOther_current : b.closeOther name = { b with openElements := es } := by
  have he := isHtml_current hv hn
  have popped : b.popThrough (·.node == e.node) = { b with openElements := es } :=
    popThrough_current ho (beq_self_eq_true e.node)
  rw [closeOther, ho, List.find?_cons_of_pos (by rw [he]; rfl)]
  dsimp only
  rw [if_pos he, closeImpliedExcept_eq ho hn, popped]

theorem endHeading_current (hh : headingTags.contains name) (hi : name ∉ impliedEndTags) :
    b.endHeading = { b with openElements := es } := by
  have he : e.isHtmlIn headingTags := (isHtmlIn_current hv hn headingTags).trans hh
  rw [endHeading, if_pos (inScope_current ho he), closeImplied_eq ho hv hn hi, popThrough_current ho he]

theorem endItem_current (boundary : OpenElement → Bool) :
    b.endItem name boundary = { b with openElements := es } := by
  have he := isHtml_current hv hn
  rw [endItem, if_pos (inScope_current ho he), closeImpliedExcept_eq ho hn, popThroughHtml,
    popThrough_current ho he]

theorem endParagraph_current (hp : name = "p") : b.endParagraph = { b with openElements := es } := by
  subst hp
  have he := isHtml_current hv hn
  rw [endParagraph, if_pos (inScope_current ho he), closeParagraph, closeImpliedExcept_eq ho hn,
    popThroughHtml, popThrough_current ho he]

/-- The end of a form that is the current element. -/
theorem endForm_current (hi : name ∉ impliedEndTags) (ht : b.hasOpen "template" = false)
    (hf : b.form = some e.node) (hd : ∀ e' ∈ es, e'.node ≠ e.node) :
    b.endForm = { b with openElements := es, form := none } := by
  have rest : (e :: es).filter (·.node != e.node) = es := by
    rw [List.filter_cons_of_neg (by simp), List.filter_eq_self]
    exact fun e' he' => bne_iff_ne.mpr (hd e' he')
  have ho' : ({ b with form := none } : Builder).openElements = e :: es := ho
  have reached : ({ b with form := none } : Builder).inScope OpenElement.endsScope (·.node == e.node) :=
    inScope_current ho' (beq_self_eq_true e.node)
  rw [endForm, ht, if_neg Bool.false_ne_true, hf]
  dsimp only
  rw [if_pos reached, closeImplied_eq ho' hv hn hi, removeOpen, ho', rest]

omit hv hn in
/-- The end of a formatting element that is the current element. -/
theorem endFormatting_current {tag : Tag} {fs : List (Option FormattingElement)} (ht : tag.name = name)
    (hf : b.formatting = some ⟨e, tag⟩ :: fs) (hd : ∀ f, some f ∈ fs → f.element.node ≠ e.node) :
    b.endFormatting name = { b with openElements := es, formatting := fs } := by
  have listed : b.isFormatting e.node := by
    rw [isFormatting, hf, List.any_cons, isEntryOf, beq_self_eq_true, Bool.true_or]
  have found : b.sinceMark.find? (·.tag.name == name) = some ⟨e, tag⟩ := by
    rw [sinceMark, hf, List.takeWhile_cons_of_pos rfl]
    exact List.find?_cons_of_pos (beq_iff_eq.mpr ht)
  have opened : b.isOpen e.node := by
    rw [isOpen, ho, List.any_cons, beq_self_eq_true, Bool.true_or]
  have inside : b.openElements.takeWhile (·.node != e.node) = [] := by
    rw [ho, List.takeWhile_cons_of_neg (by simp)]
  have reached : b.inScope OpenElement.endsScope (·.node == e.node) :=
    inScope_current ho (beq_self_eq_true e.node)
  have popped : b.popThrough (·.node == e.node) = { b with openElements := es } :=
    popThrough_current ho (beq_self_eq_true e.node)
  have left : (some ⟨e, tag⟩ :: fs).filter (fun f => !isEntryOf e.node f) = fs := by
    rw [List.filter_cons_of_neg (by simp [isEntryOf]), List.filter_eq_self]
    rintro (_ | f) hm
    · rfl
    · simpa [isEntryOf] using hd f hm
  rw [endFormatting, ho]
  dsimp only
  rw [listed, Bool.not_true, Bool.and_false, if_neg Bool.false_ne_true, endFormattingUpTo, found]
  dsimp only
  rw [opened, reached, inside]
  simp only [Bool.not_true, Bool.false_eq_true, if_false, List.reverse_nil, List.find?_nil]
  rw [popped, dropFormatting, hf, left]

end EndTags

/-! Start tags. -/

section StartTags

theorem startInBody_block (hn : tag.name ∈ blockTags) :
    b.startInBody tag = b.closeParagraphInScope.insertElement tag := by
  have head : ∀ n ∈ blockTags, headContentTags.contains n = false := by decide
  simp only [startInBody, head _ hn, List.contains_iff_mem.mpr hn, if_true, Bool.false_eq_true, if_false]

theorem startInBody_heading (hn : tag.name ∈ headingTags) : b.startInBody tag = b.startHeading tag := by
  have others : ∀ n ∈ headingTags, headContentTags.contains n = false ∧ blockTags.contains n = false := by
    decide
  simp only [startInBody, others _ hn, List.contains_iff_mem.mpr hn, if_true, Bool.false_eq_true, if_false]

theorem startInBody_formatting (hn : tag.name ∈ formattingTags) :
    b.startInBody tag = b.reconstruct.insertFormatting tag := by
  have others : ∀ n ∈ formattingTags, headContentTags.contains n = false ∧ blockTags.contains n = false ∧
      headingTags.contains n = false := by
    decide
  simp only [startInBody, others _ hn, List.contains_iff_mem.mpr hn, if_true, Bool.false_eq_true, if_false]

theorem not_contains_of_other (hn : name ∉ ruledTags) {l : List String} (hl : ∀ n ∈ l, n ∈ ruledTags) :
    l.contains name = false := by
  rw [List.contains_eq_mem, decide_eq_false_iff_not]
  exact fun hm => hn (hl name hm)

theorem startInBody_other (hn : tag.name ∉ ruledTags) :
    b.startInBody tag = b.reconstruct.insertElement tag := by
  have no {l : List String} (hl : ∀ n ∈ l, n ∈ ruledTags) : l.contains tag.name = false :=
    not_contains_of_other hn hl
  have head := no (l := headContentTags) (by decide)
  have block := no (l := blockTags) (by decide)
  have heading := no (l := headingTags) (by decide)
  have formatting := no (l := formattingTags) (by decide)
  simp only [startInBody, head, block, heading, formatting, Bool.false_eq_true, if_false]
  split
  all_goals first
    | next e => exact absurd (by rw [e]; decide) hn
    | rw [if_neg]
      rw [no (by decide)]
      exact Bool.false_ne_true

/-! The kinds that no set of tags selects: each of their names has a rule of its own. -/

theorem startInBody_item {names : List String} (hk : (FlowKind.item names).Names tag.name) :
    b.startInBody tag = b.startItem tag names := by
  obtain ⟨name, attributes, selfClosing⟩ := tag
  have named : (FlowKind.item names).Names name := hk
  rcases named.item_cases with ⟨rfl, rfl⟩ | ⟨rfl, rfl | rfl⟩ <;> rfl

theorem startInBody_preformatted (hk : FlowKind.preformatted.Names tag.name) :
    b.startInBody tag = b.startPreformatted tag := by
  obtain ⟨name, attributes, selfClosing⟩ := tag
  have named : name = "listing" ∨ name = "pre" := List.mem_pair.mp (hk.mem (by decide)).2
  rcases named with rfl | rfl <;> rfl

theorem startInBody_button (hk : FlowKind.button.Names tag.name) : b.startInBody tag =
    ((b.closeScoped "button").reconstruct.insertElement tag).forbidFrameset := by
  obtain ⟨name, attributes, selfClosing⟩ := tag
  have named : name = "button" := List.mem_singleton.mp (hk.mem (by decide)).2
  subst named
  rfl

theorem startInBody_ruby {names : List String} {kept : String}
    (hk : (FlowKind.annotation names kept).Names tag.name) :
    b.startInBody tag = b.startRuby tag kept := by
  obtain ⟨name, attributes, selfClosing⟩ := tag
  have named : (FlowKind.annotation names kept).Names name := hk
  rcases named.annotation_cases with ⟨rfl, rfl | rfl⟩ | ⟨rfl, rfl | rfl⟩ <;> rfl

theorem startInBody_choice (hk : FlowKind.choice.Names tag.name) :
    b.startInBody tag = b.startOption tag := by
  obtain ⟨name, attributes, selfClosing⟩ := tag
  have named : name = "optgroup" ∨ name = "option" := List.mem_pair.mp (hk.mem (by decide)).2
  rcases named with rfl | rfl <;> rfl

end StartTags

theorem endInBody_block (hn : tag.name ∈ blockEndTags) : b.endInBody tag = b.closeScoped tag.name := by
  simp only [endInBody, List.contains_iff_mem.mpr hn, if_true]

theorem endInBody_heading (hn : tag.name ∈ headingTags) : b.endInBody tag = b.endHeading := by
  have others : ∀ n ∈ headingTags, blockEndTags.contains n = false := by decide
  simp only [endInBody, others _ hn, List.contains_iff_mem.mpr hn, if_true, Bool.false_eq_true, if_false]

theorem endInBody_formatting (hn : tag.name ∈ formattingTags) :
    b.endInBody tag = b.endFormatting tag.name := by
  have others : ∀ n ∈ formattingTags, blockEndTags.contains n = false ∧ headingTags.contains n = false := by
    decide
  simp only [endInBody, others _ hn, List.contains_iff_mem.mpr hn, if_true, Bool.false_eq_true, if_false]

theorem endInBody_other (hn : tag.name ∉ ruledTags) : b.endInBody tag = b.closeOther tag.name := by
  have no {l : List String} (hl : ∀ n ∈ l, n ∈ ruledTags) : l.contains tag.name = false :=
    not_contains_of_other hn hl
  have block := no (l := blockEndTags) (by decide)
  have heading := no (l := headingTags) (by decide)
  have formatting := no (l := formattingTags) (by decide)
  simp only [endInBody, block, heading, formatting, Bool.false_eq_true, if_false]
  split
  all_goals first
    | next e => exact absurd (by rw [e]; decide) hn
    | rfl

/-! Elements by their kinds. -/

theorem Sound.insertElement_with (h : b.Sound) (hs : b.skipLineFeed = false) (tag : Tag) :
    b.insertElement tag =
      { b.insertElement tag with framesetAllowed := b.framesetAllowed, skipLineFeed := false } := by
  rw [h.insertElement_eq, ← hs]

namespace At

variable (h : b.At .flow around)
include h

/-- A part of an annotation ends none that it stands in. -/
theorem startRuby_eq {names : List String} {kept : String}
    (hf : (FlowKind.annotation names kept).fits tag.name around) :
    b.startRuby tag kept = b.insertElement tag := by
  rw [FlowKind.fits, Bool.or_eq_true, Bool.not_eq_true', List.contains_eq_mem, decide_eq_false_iff_not] at hf
  rw [startRuby]
  split
  next scope =>
    rcases hf with hf | hf
    · rw [h.inDefaultScope_eq rfl hf (by decide)] at scope
      cases scope
    · rw [← h.names] at hf
      cases ho : b.openElements with
      | nil =>
        have empty : b.closeImpliedExcept kept = b := by
          rw [closeImpliedExcept, popWhile, ho, List.dropWhile_nil, ← ho]
        rw [empty]
      | cons e es =>
        rw [ho, List.map_cons, List.head?_cons, Option.all_some] at hf
        have stays : (e.isHtmlIn impliedEndTags && e.name != kept) = false := by
          rw [(h.steady rfl).isHtmlIn_eq (ho ▸ List.mem_cons_self)]
          rcases Bool.or_eq_true_iff.mp hf with e' | e'
          · rw [bne, e', Bool.not_true, Bool.and_false]
          · rw [Bool.not_eq_true'] at e'
            rw [e', Bool.false_and]
        rw [closeImpliedExcept, popWhile_current ho stays]
  next => rfl

theorem startOption_eq (hf : FlowKind.choice.fits tag.name around) : b.startOption tag = b.insertElement tag := by
  rw [FlowKind.fits, bne_iff_ne] at hf
  rw [startOption, h.popCurrent_eq rfl hf, h.reconstruct_eq]

theorem closeScoped_button (hn : "button" ∉ within around) : b.closeScoped "button" = b := by
  rw [closeScoped, h.inDefaultScope_eq rfl hn (by decide)]
  rfl

theorem startItem_eq {names : List String} (hf : (FlowKind.item names).fits tag.name around) :
    b.startItem tag names = (b.insertElement tag).forbidFrameset := by
  rw [FlowKind.fits, Bool.and_eq_true, Bool.not_eq_true', Bool.not_eq_true'] at hf
  have hn : "p" ∉ within around := by simpa using hf.1
  have h' : b.forbidFrameset.At .flow around := h.of_eq rfl h.tree (Nat.le_refl _)
  rw [startItem, h'.closeItem_eq rfl hf.2, h'.closeParagraphInScope_eq rfl hn, h'.insertElement_eq,
    h.insertElement_eq]
  rfl

theorem startInBody_plain (tag : Tag) (hs : b.skipLineFeed = false) {kind : FlowKind}
    (hk : kind.Names tag.name) (hf : kind.fits tag.name around) (hp : kind.isPlain) :
    ∃ allowed, b.startInBody tag = { b.insertElement tag with
      framesetAllowed := allowed, skipLineFeed := decide (kind = .preformatted) } := by
  have keep := h.insertElement_with hs tag
  cases kind with
  | paragraph =>
    have hn : "p" ∉ within around := by simpa [FlowKind.fits] using hf
    have listed : tag.name ∈ blockTags := by
      rw [List.mem_singleton.mp (hk.mem (by decide)).2]
      decide
    rw [startInBody_block listed, h.closeParagraphInScope_eq rfl hn]
    exact ⟨_, keep⟩
  | block =>
    have hn : "p" ∉ within around := by simpa [FlowKind.fits] using hf
    have listed : tag.name ∈ blockTags.erase "p" := (hk.mem (by decide)).2
    rw [startInBody_block (List.mem_of_mem_erase listed), h.closeParagraphInScope_eq rfl hn]
    exact ⟨_, keep⟩
  | heading =>
    rw [FlowKind.fits, Bool.and_eq_true, Bool.not_eq_true', Bool.not_eq_true'] at hf
    have hn : "p" ∉ within around := by simpa using hf.1
    have hc := (h.currentIsHtmlIn_eq rfl headingTags).trans hf.2
    rw [startInBody_heading (hk.mem (by decide)).2, startHeading, h.closeParagraphInScope_eq rfl hn, hc]
    exact ⟨_, keep⟩
  | item names =>
    rw [startInBody_item hk, h.startItem_eq hf, keep]
    exact ⟨_, rfl⟩
  | preformatted =>
    have hn : "p" ∉ within around := by simpa [FlowKind.fits] using hf
    rw [startInBody_preformatted hk, startPreformatted, h.closeParagraphInScope_eq rfl hn]
    exact ⟨_, rfl⟩
  | button =>
    have hn : "button" ∉ within around := by simpa [FlowKind.fits] using hf
    rw [startInBody_button hk, h.closeScoped_button hn, h.reconstruct_eq, keep]
    exact ⟨_, rfl⟩
  | annotation names kept =>
    rw [startInBody_ruby hk, h.startRuby_eq hf]
    exact ⟨_, keep⟩
  | choice =>
    rw [startInBody_choice hk, h.startOption_eq hf]
    exact ⟨_, keep⟩
  | other =>
    rw [startInBody_other hk.other, h.reconstruct_eq]
    exact ⟨_, keep⟩
  | _ => cases hp

end At

theorem endInBody_plain {e : OpenElement} {es : List OpenElement} (ho : b.openElements = e :: es)
    (hv : e.vocabulary = .html) (hn : e.name = name) {kind : FlowKind} (hk : kind.Names name)
    (hp : kind.isPlain) : b.endInBody ⟨name, [], false⟩ = { b with openElements := es } := by
  cases kind with
  | paragraph =>
    cases List.mem_singleton.mp (hk.mem (by decide)).2
    exact endParagraph_current ho hv hn rfl
  | block =>
    have closed : ∀ n ∈ blockTags.erase "p", n ∈ blockEndTags ∧ n ∉ impliedEndTags := by decide
    obtain ⟨hb, hi⟩ := closed _ (hk.mem (by decide)).2
    rw [endInBody_block hb]
    exact closeScoped_current ho hv hn hi
  | heading =>
    have closed : ∀ n ∈ headingTags, n ∉ impliedEndTags := by decide
    have hk : name ∈ headingTags := (hk.mem (by decide)).2
    have listed : (⟨name, [], false⟩ : Tag).name ∈ headingTags := hk
    rw [endInBody_heading listed]
    exact endHeading_current ho hv hn (List.contains_iff_mem.mpr hk) (closed _ hk)
  | item names =>
    rcases hk.item_cases with ⟨-, rfl⟩ | ⟨-, rfl | rfl⟩ <;> exact endItem_current ho hv hn _
  | preformatted =>
    have closed : ∀ n ∈ ["listing", "pre"], n ∈ blockEndTags ∧ n ∉ impliedEndTags := by decide
    obtain ⟨hb, hi⟩ := closed name (hk.mem (by decide)).2
    rw [endInBody_block hb]
    exact closeScoped_current ho hv hn hi
  | button =>
    cases List.mem_singleton.mp (hk.mem (by decide)).2
    rw [endInBody_block (by decide)]
    exact closeScoped_current ho hv hn (by decide)
  | annotation names kept =>
    rcases hk.annotation_cases with ⟨-, rfl | rfl⟩ | ⟨-, rfl | rfl⟩ <;> exact closeOther_current ho hv hn
  | choice =>
    rcases List.mem_pair.mp (hk.mem (by decide)).2 with hk | hk <;> cases hk <;>
      exact closeOther_current ho hv hn
  | other =>
    have other : (⟨name, [], false⟩ : Tag).name ∉ ruledTags := hk.other
    rw [endInBody_other other]
    exact closeOther_current ho hv hn
  | _ => cases hp

/-! The modes of the flow. -/

/-- The builder in which an element of the flow is read: a template turns out to hold the flow. -/
def entered (b : Builder) : Builder :=
  if b.mode = .inTemplate then
    { b with mode := .inBody, templateModes := .inBody :: b.templateModes.tail }
  else b

theorem frame_entered (b : Builder) : b.entered.frame = b.frame.entered := by
  by_cases hm : b.mode = .inTemplate
  · rw [entered, if_pos hm, Frame.entered_template hm]
    rfl
  · rw [entered, if_neg hm, Frame.entered_eq hm]

theorem tree_entered (b : Builder) : b.entered.tree = b.tree := by
  rw [entered]
  split <;> rfl

theorem mode_entered (b : Builder) (token : Token) : (b.entered.prepared token).mode ≠ .inTemplate := by
  have mode : (b.entered.prepared token).mode = b.frame.entered.mode :=
    congrArg Frame.mode ((frame_prepared b.entered token).trans (frame_entered b))
  rw [mode]
  exact Frame.entered_mode _

theorem Holds.of_entered (token : Token) {part : Region} {e : Element}
    (h : (b.entered.prepared token).Holds around e part b') : b.Holds around e part b' :=
  h.of_leads (.inr ((frame_prepared b.entered token).trans (frame_entered b)))
    ((tree_prepared b.entered token).trans (tree_entered b))

/-- The tags that a cell or a caption does not leave to what it holds. -/
def sectionTags : List String :=
  ["body", "html", "table"] ++ tablePartTags

namespace At

theorem entered (h : b.At .flow around) : b.entered.At .flow around :=
  h.of_leads (.inr (frame_entered b)) (tree_entered b ▸ h.tree) (tree_entered b ▸ Nat.le_refl _)

theorem mode_cases (h : b.At .flow around) (hm : b.mode ≠ .inTemplate) :
    b.mode = .inBody ∨ b.mode = .inCaption ∨ b.mode = .inCell := by
  have mode := h.mode
  simp only [Region.modes, List.mem_cons, List.not_mem_nil, or_false] at mode
  rcases mode with e | e | e | e
  · exact .inl e
  · exact .inr (.inl e)
  · exact .inr (.inr e)
  · exact absurd e hm

theorem inMode_startTag (h : b.At .flow around) (hm : b.mode ≠ .inTemplate)
    (hn : tag.name ∉ tablePartTags) : b.inMode (.startTag tag) = (b.startInBody tag).done := by
  have other : tablePartTags.contains tag.name = false := by simpa using hn
  rcases h.mode_cases hm with e | e | e <;> rw [inMode, e]
  · rfl
  · simp only [inCaption, other, Bool.false_eq_true, if_false]
    rfl
  · simp only [inCell, other, Bool.false_eq_true, if_false]
    rfl

theorem inMode_endTag (h : b.At .flow around) (hm : b.mode ≠ .inTemplate)
    (hn : tag.name ∉ sectionTags) : b.inMode (.endTag tag) = (b.endInBody tag).done := by
  have other {n : String} (hs : n ∈ sectionTags) : tag.name ≠ n := fun e => hn (e ▸ hs)
  have body := other (n := "body") (by decide)
  have html := other (n := "html") (by decide)
  have others {l : List String} (hl : ∀ n ∈ l, n ∈ sectionTags) : l.contains tag.name = false := by
    rw [List.contains_eq_mem, decide_eq_false_iff_not]
    exact fun hm => hn (hl _ hm)
  have inBody : b.inBody (.endTag tag) = (b.endInBody tag).done := by
    rw [Builder.inBody]
    split
    next e => exact absurd e body
    next e => exact absurd e html
    next => rfl
  rcases h.mode_cases hm with e | e | e <;> rw [inMode, e]
  · exact inBody
  · simp only [inCaption, others (l := ["body", "col", "colgroup", "html", "tbody", "td", "tfoot", "th",
      "thead", "tr"]) (by decide), other (n := "caption") (by decide), other (n := "table") (by decide),
      Bool.false_eq_true, if_false]
    exact inBody
  · simp only [inCell, others (l := ["body", "caption", "col", "colgroup", "html"]) (by decide),
      others (l := ["table", "tbody", "tfoot", "thead", "tr"]) (by decide), other (n := "td") (by decide),
      other (n := "th") (by decide), decide_false, Bool.or_false, Bool.false_eq_true, if_false]
    exact inBody

/-- An element of the flow is read in a mode of its own where a template is the first to hold it. -/
theorem read_startTag (h : b.At .flow around) (hn : tag.name ∉ tablePartTags)
    (hh : tag.name ∉ headContentTags) :
    b.read (.startTag tag) = (b.entered.prepared (.startTag tag)).startInBody tag := by
  by_cases hm : b.mode = .inTemplate
  · have head : headContentTags.contains tag.name = false := by simpa using hh
    have other {n : String} (hs : n ∈ tablePartTags) : tag.name ≠ n := fun e => hn (e ▸ hs)
    have mode : (b.prepared (.startTag tag)).mode = .inTemplate := hm
    have again : (b.prepared (.startTag tag)).inMode (.startTag tag) =
        (b.entered.prepared (.startTag tag), .again) := by
      rw [inMode, mode, Builder.entered, if_pos hm]
      simp only [inTemplate, head, Bool.false_eq_true, if_false]
      split
      all_goals first
        | next e => exact absurd e (other (by decide))
        | rfl
    have ready := h.entered.prepared (.startTag tag)
    refine (h.steady rfl).read_eq_again (fun _ => rfl) again (ready.steady rfl) (ready.inMode_startTag ?_ hn)
    have mode : (b.entered.prepared (.startTag tag)).mode = .inBody := by
      rw [Builder.entered, if_pos hm]
      rfl
    rw [mode]
    nofun
  · rw [Builder.entered, if_neg hm]
    exact (h.steady rfl).read_eq (fun _ => rfl) ((h.prepared _).inMode_startTag hm hn)

end At

namespace At

variable {e : Element} {kind : FlowKind}

theorem fresh (h : b.At region around) {e : OpenElement} (he : e ∈ b.openElements) :
    e.node ≠ b.tree.size :=
  Nat.ne_of_lt (h.nodes e he)

/-- An element of the flow is closed by what its end tag does in the body of a page. -/
theorem holds_inBody (h : b.At .flow around) (hm : b.mode ≠ .inTemplate) (he : readName e.tag = e.tag)
    (hk : flowKind? e.tag = some kind) {b₁ : Builder} (ho : b.Opened .html ⟨e.tag, e.attributes, false⟩ b₁)
    (hmode : b₁.mode = b.mode) (hmodes : b₁.templateModes = b.templateModes)
    (hs : b₁.skipLineFeed → flowKind? e.tag = some .preformatted)
    (hend : ∀ s : Builder, s.frame = b₁.frame → s.At .flow (e.tag :: around) →
      s.endInBody ⟨e.tag, [], false⟩ =
        { s with openElements := b.openElements, formatting := b.formatting, form := b.form }) :
    b.Holds around e .flow b₁ := by
  have outside : b₁.mode ≠ .inTemplate := by
    rw [hmode]
    exact hm
  have html : ∀ o ∈ b₁.openElements, o.vocabulary = .html := by
    rw [ho.openElements]
    exact List.forall_mem_cons.mpr ⟨rfl, h.among⟩
  have resets (b' : Builder) (hb : b'.templateModes = b₁.templateModes) :
      b'.modeFor b₁.openElements = b₁.mode := by
    have other : (b.opening .html ⟨e.tag, e.attributes, false⟩).name ∉ modeTags :=
      not_mem_of_flowKind? hk (by decide)
    rw [ho.openElements, modeFor_other (.inr other), hmode]
    exact h.resets (by decide) b' (hb.trans hmodes)
  refine ho.holds_html (ho.reader h (hmode ▸ h.mode) html rfl (fun e' => absurd e' outside) fun _ => resets) rfl he
    hs fun s leads reader => ?_
  have frame := leads.eq outside
  have mode : s.mode = b.mode := (congrArg Frame.mode frame).trans hmode
  have modes : s.templateModes = b.templateModes := (congrArg Frame.templateModes frame).trans hmodes
  rw [reader.inMode_endTag (mode ▸ hm) (not_mem_of_flowKind? hk (by decide)), hend s frame reader, closedTo,
    ← mode, ← modes]

theorem opening_not_boundary {v : Vocabulary} (hn : tag.name ∉ boundaryTags) :
    (b.opening v tag).isHtmlIn boundaryTags = false := by
  rw [OpenElement.isHtmlIn, opening, List.contains_eq_mem, decide_eq_false hn, Bool.and_false]

theorem holds_plain (h : b.At .flow around) (hm : b.mode ≠ .inTemplate) (hs : b.skipLineFeed = false)
    (he : readName e.tag = e.tag) (hk : flowKind? e.tag = some kind) (hf : kind.fits e.tag around)
    (hp : kind.isPlain) : b.Holds around e .flow (b.startInBody ⟨e.tag, e.attributes, false⟩) := by
  have hn := names_of_flowKind? hk
  obtain ⟨allowed, started⟩ := h.startInBody_plain ⟨e.tag, e.attributes, false⟩ hs hn hf hp
  have boundary : e.tag ∉ boundaryTags := by
    intro hb
    have placed : ∀ n ∈ boundaryTags, flowKind? n = none ∨ flowKind? n = some .embedded := by decide
    rcases placed _ hb with e' | e' <;> rw [hk] at e'
    · cases e'
    · cases e'
      cases hp
  rw [h.insertElement_eq] at started
  rw [started]
  refine h.holds_inBody hm he hk
    ⟨rfl, rfl, rfl, rfl, .inl rfl, .inr ⟨opening_not_boundary boundary, .inl rfl⟩⟩ rfl rfl (fun hb => ?_)
    fun s frame _ => ?_
  · rw [hk, of_decide_eq_true hb]
  · have opened : s.openElements = b.opening .html ⟨e.tag, e.attributes, false⟩ :: b.openElements :=
      congrArg Frame.openElements frame
    have formatting : s.formatting = b.formatting := congrArg Frame.formatting frame
    have form : s.form = b.form := congrArg Frame.form frame
    rw [← formatting, ← form]
    exact endInBody_plain opened rfl rfl hn hp

theorem startInBody_formatted (h : b.At .flow around) (tag : Tag) (hk : FlowKind.formatting.Names tag.name)
    (hf : FlowKind.formatting.fits tag.name around) : b.startInBody tag =
      { b.insertElement tag with formatting := some ⟨b.opening .html tag, tag⟩ :: b.formatting } := by
  have hn : tag.name ∉ within around := by simpa [FlowKind.fits] using hf
  have inserted : b.insertFormatting tag =
      { b.insertElement tag with formatting := some ⟨b.opening .html tag, tag⟩ :: b.formatting } := by
    rw [insertFormatting, h.forgetThird_eq rfl hn, h.insertElement_eq]
    rfl
  obtain ⟨name, attributes, selfClosing⟩ := tag
  have listed : name = "a" ∨ name = "nobr" ∨ name ∈ formattingTags := by
    simpa [FlowKind.tags] using (hk.mem (by decide)).2
  rcases listed with rfl | rfl | hk
  · have started : b.startInBody ⟨"a", attributes, selfClosing⟩ =
        b.endOpenLink.reconstruct.insertFormatting ⟨"a", attributes, selfClosing⟩ := rfl
    rw [started, h.endOpenLink_eq rfl hn, h.reconstruct_eq, inserted]
  · have started : b.startInBody ⟨"nobr", attributes, selfClosing⟩ =
        b.startNobr ⟨"nobr", attributes, selfClosing⟩ := rfl
    have scope : b.inDefaultScope "nobr" = false := h.inDefaultScope_eq rfl hn (by decide)
    rw [started, startNobr, h.reconstruct_eq, scope, ← inserted]
    rfl
  · rw [startInBody_formatting hk, h.reconstruct_eq, inserted]

theorem endInBody_formatted {name : String} (hk : FlowKind.formatting.Names name) :
    b.endInBody ⟨name, [], false⟩ = b.endFormatting name := by
  have listed : name = "a" ∨ name = "nobr" ∨ name ∈ formattingTags := by
    simpa [FlowKind.tags] using (hk.mem (by decide)).2
  rcases listed with rfl | rfl | hk
  · rfl
  · rfl
  · exact endInBody_formatting hk

theorem holds_formatting (h : b.At .flow around) (hm : b.mode ≠ .inTemplate) (hs : b.skipLineFeed = false)
    (he : readName e.tag = e.tag) (hk : flowKind? e.tag = some .formatting)
    (hf : FlowKind.formatting.fits e.tag around) :
    b.Holds around e .flow (b.startInBody ⟨e.tag, e.attributes, false⟩) := by
  have hn := names_of_flowKind? hk
  have started := h.startInBody_formatted ⟨e.tag, e.attributes, false⟩ hn hf
  have boundary : e.tag ∉ boundaryTags := by
    have listed : ∀ n ∈ boundaryTags, n ∉ FlowKind.formatting.tags := by decide
    exact fun hb => listed _ hb (hn.mem (by decide)).2
  rw [h.insertElement_eq] at started
  rw [started]
  refine h.holds_inBody hm he hk
    ⟨rfl, rfl, rfl, rfl, .inl rfl, .inr ⟨opening_not_boundary boundary, .inr rfl⟩⟩ rfl rfl
    (fun hb => absurd (hs.symm.trans hb) Bool.false_ne_true) fun s frame _ => ?_
  have opened : s.openElements = b.opening .html ⟨e.tag, e.attributes, false⟩ :: b.openElements :=
    congrArg Frame.openElements frame
  have formatting : s.formatting = _ := congrArg Frame.formatting frame
  have form : s.form = b.form := congrArg Frame.form frame
  have older (f : FormattingElement) (hf : some f ∈ b.formatting) : f.element.node ≠ b.tree.size :=
    Nat.ne_of_lt (h.entries f hf)
  rw [endInBody_formatted hn, endFormatting_current opened rfl formatting older, ← form]

theorem startInBody_form (h : b.At .flow around) (tag : Tag) (hk : tag.name = "form")
    (hf : FlowKind.form.fits tag.name around) : b.startInBody tag =
      { b.insertElement tag with form := some b.tree.size } := by
  simp only [FlowKind.fits, Bool.and_eq_true, Bool.not_eq_true', List.contains_eq_mem,
    decide_eq_false_iff_not] at hf
  obtain ⟨⟨hp, hn⟩, ht⟩ := hf
  have none : b.form = none := h.form hn
  have hasOpen : (b.insertElement tag).hasOpen "template" = false := by
    have outside := h.hasOpen_template rfl ht
    have here : (b.opening .html tag).isHtml "template" = false := by
      rw [OpenElement.isHtml, opening, hk]
      rfl
    rw [h.insertElement_eq, hasOpen, List.any_cons, Bool.or_eq_false_iff]
    exact ⟨here, outside⟩
  have started : b.startInBody tag = b.startForm tag := by
    obtain ⟨name, attributes, selfClosing⟩ := tag
    cases hk
    rfl
  rw [started, startForm, none, h.closeParagraphInScope_eq rfl hp]
  simp only [Option.isSome_none, Bool.false_and, Bool.false_eq_true, if_false, hasOpen]
  rw [h.insertElement_eq]
  rfl

theorem holds_form (h : b.At .flow around) (hm : b.mode ≠ .inTemplate) (hs : b.skipLineFeed = false)
    (he : readName e.tag = e.tag) (hk : flowKind? e.tag = some .form)
    (hf : FlowKind.form.fits e.tag around) :
    b.Holds around e .flow (b.startInBody ⟨e.tag, e.attributes, false⟩) := by
  have hn : e.tag = "form" := List.mem_singleton.mp ((names_of_flowKind? hk).mem (by decide)).2
  have started := h.startInBody_form ⟨e.tag, e.attributes, false⟩ hn hf
  simp only [FlowKind.fits, Bool.and_eq_true, Bool.not_eq_true', List.contains_eq_mem,
    decide_eq_false_iff_not] at hf
  obtain ⟨⟨-, outside⟩, template⟩ := hf
  have tags : e.tag ∉ boundaryTags ∧ e.tag ∉ impliedEndTags ∧ e.tag ≠ "template" := by
    rw [hn]
    decide
  obtain ⟨boundary, implied, other⟩ := tags
  rw [h.insertElement_eq] at started
  rw [started]
  refine h.holds_inBody hm he hk
    ⟨rfl, rfl, rfl, rfl, .inr hn, .inr ⟨opening_not_boundary boundary, .inl rfl⟩⟩ rfl rfl
    (fun hb => absurd (hs.symm.trans hb) Bool.false_ne_true) fun s frame reader => ?_
  have opened : s.openElements = b.opening .html ⟨e.tag, e.attributes, false⟩ :: b.openElements :=
    congrArg Frame.openElements frame
  have formatting : s.formatting = b.formatting := congrArg Frame.formatting frame
  have form : s.form = some b.tree.size := congrArg Frame.form frame
  have none : b.form = none := h.form outside
  have inside : "template" ∉ e.tag :: around := by
    rw [List.mem_cons, not_or]
    exact ⟨other.symm, template⟩
  have ended : s.endInBody ⟨e.tag, [], false⟩ = s.endForm := by
    rw [hn]
    rfl
  rw [ended, endForm_current opened rfl rfl implied (reader.hasOpen_template rfl inside) form fun e' he' =>
    h.fresh he', none, ← formatting]

/-- The end of an element that shuts out the formatting elements around it. -/
theorem endInBody_embedded {o : OpenElement} {es : List OpenElement} (ho : b.openElements = o :: es)
    (hv : o.vocabulary = .html) (hn : o.name = name) (hk : name ∈ FlowKind.embedded.tags)
    {fs : List (Option FormattingElement)} (hf : b.formatting = none :: fs) :
    b.endInBody ⟨name, [], false⟩ = { b with openElements := es, formatting := fs } := by
  have implied : ∀ n ∈ FlowKind.embedded.tags, n ∉ impliedEndTags := by decide
  have scope : b.inDefaultScope name := inScope_current ho (isHtml_current hv hn)
  have ended : b.endInBody ⟨name, [], false⟩ =
      if b.inDefaultScope name then (b.closeScoped name).clearFormatting else b := by
    simp only [FlowKind.tags, List.mem_cons, List.not_mem_nil, or_false] at hk
    rcases hk with rfl | rfl | rfl <;> rfl
  rw [ended, if_pos scope, closeScoped_current ho hv hn (implied _ hk), clearFormatting]
  dsimp only
  rw [hf]
  rfl

theorem holds_embedded (h : b.At .flow around) (hm : b.mode ≠ .inTemplate) (hs : b.skipLineFeed = false)
    (he : readName e.tag = e.tag) (hk : flowKind? e.tag = some .embedded) :
    b.Holds around e .flow (b.startInBody ⟨e.tag, e.attributes, false⟩) := by
  have listed := ((names_of_flowKind? hk).mem (by decide)).2
  have started : b.startInBody ⟨e.tag, e.attributes, false⟩ =
      (b.reconstruct.insertElement ⟨e.tag, e.attributes, false⟩).markFormatting.forbidFrameset := by
    simp only [FlowKind.tags, List.mem_cons, List.not_mem_nil, or_false] at listed
    rcases listed with e' | e' | e' <;> rw [e'] <;> rfl
  rw [started, h.reconstruct_eq, h.insertElement_eq]
  refine h.holds_inBody hm he hk ⟨rfl, rfl, rfl, rfl, .inl rfl, .inl rfl⟩ rfl rfl
    (fun hb => absurd (hs.symm.trans hb) Bool.false_ne_true) fun s frame _ => ?_
  have opened : s.openElements = b.opening .html ⟨e.tag, e.attributes, false⟩ :: b.openElements :=
    congrArg Frame.openElements frame
  have formatting : s.formatting = none :: b.formatting := congrArg Frame.formatting frame
  have form : s.form = b.form := congrArg Frame.form frame
  rw [← form]
  exact endInBody_embedded opened rfl rfl listed formatting

/-- The start tag of an element of the flow opens it. -/
theorem holds_flow (h : b.At .flow around) (he : readName e.tag = e.tag) (hk : flowKind? e.tag = some kind)
    (hf : kind.fits e.tag around) :
    b.Holds around e .flow (b.read (.startTag ⟨e.tag, e.attributes, false⟩)) := by
  have ready := h.entered.prepared (.startTag ⟨e.tag, e.attributes, false⟩)
  have mode := b.mode_entered (.startTag ⟨e.tag, e.attributes, false⟩)
  have hs := skipLineFeed_prepared b.entered (.startTag ⟨e.tag, e.attributes, false⟩)
  rw [h.read_startTag (not_mem_of_flowKind? hk (by decide)) (not_mem_of_flowKind? hk (by decide))]
  refine Holds.of_entered (.startTag ⟨e.tag, e.attributes, false⟩) ?_
  by_cases plain : kind.isPlain
  · exact ready.holds_plain mode hs he hk hf plain
  · cases kind with
    | formatting => exact ready.holds_formatting mode hs he hk hf
    | form => exact ready.holds_form mode hs he hk hf
    | embedded => exact ready.holds_embedded mode hs he hk
    | _ => exact absurd rfl plain

end At

end Builder

end LivePages
