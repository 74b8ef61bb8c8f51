import LivePages.Proofs.Html.FlowTags

namespace LivePages

namespace Builder

variable {b b₀ b₁ : Builder} {region part : Region} {around : List String} {e : Element} {token : Token}

/-- An element has been opened whose content is read in a mode of its own. -/
def openedIn (b : Builder) (tag : Tag) (mode : InsertionMode) (formatting : List (Option FormattingElement))
    (allowed : Bool) : Builder :=
  { b.insertElement tag with mode, formatting, framesetAllowed := allowed }

theorem Sound.withMode_insertElement (h : b.Sound) (tag : Tag) (mode : InsertionMode) :
    (b.insertElement tag).withMode mode = b.openedIn tag mode b.formatting b.framesetAllowed := by
  rw [openedIn, h.insertElement_eq]
  rfl

namespace At

variable (h : b.At region around) (hr : region.isHtml)
include h hr

/-- An element whose content is read in a mode of its own is closed by its end tag. -/
theorem holds_opened (hs : b.skipLineFeed = false) (he : readName e.tag = e.tag) {mode : InsertionMode}
    {fs : List (Option FormattingElement)} (hf : fs = none :: b.formatting ∨
      e.tag ∉ boundaryTags ∧ fs = b.formatting) (allowed : Bool)
    (hp : part.isHtml) (hm : mode ∈ part.modes) (hn : mode ≠ .inTemplate) (hi : part.isIn (e.tag :: around))
    (hc : part ≠ .choices → ∀ b' : Builder, b'.templateModes = b.templateModes →
      b'.modeFor (⟨b.tree.size, .html, e.tag, false⟩ :: b.openElements) = mode)
    (hend : ∀ s : Builder, s.openElements = ⟨b.tree.size, .html, e.tag, false⟩ :: b.openElements →
      s.mode = mode → s.formatting = fs → s.templateModes = b.templateModes →
      s.inMode (.endTag ⟨e.tag, [], false⟩) = ({ s with
        mode := b.mode, openElements := b.openElements, formatting := b.formatting } : Builder).done) :
    b.Holds around e part (b.openedIn ⟨e.tag, e.attributes, false⟩ mode fs allowed) := by
  have opens : b.Opened .html ⟨e.tag, e.attributes, false⟩
      (b.openedIn ⟨e.tag, e.attributes, false⟩ mode fs allowed) := by
    rw [openedIn, h.insertElement_eq]
    refine ⟨rfl, rfl, rfl, rfl, .inl rfl, hf.imp id fun hf => ⟨?_, .inl hf.2⟩⟩
    rw [isHtmlIn_current rfl rfl]
    simpa [opening] using hf.1
  have reader : (b.openedIn ⟨e.tag, e.attributes, false⟩ mode fs allowed).At part (e.tag :: around) := by
    refine opens.reader h hm ?_ hi (fun e => absurd e hn) fun hne b' hb => ?_
    · have html : ∀ o ∈ b.opening .html ⟨e.tag, e.attributes, false⟩ :: b.openElements, o.vocabulary = .html :=
        List.forall_mem_cons.mpr ⟨rfl, (h.steady hr).html⟩
      rw [opens.openElements]
      cases part with
      | foreign => cases hp
      | label => cases hp
      | _ => exact html
    · rw [opens.openElements]
      refine hc hne b' (hb.trans ?_)
      rw [openedIn, h.insertElement_eq]
  have skip : (b.openedIn ⟨e.tag, e.attributes, false⟩ mode fs allowed).skipLineFeed = false := by
    rw [openedIn, h.insertElement_eq]
    exact hs
  refine opens.holds_html reader hp he (fun hb => ?_) fun s leads _ => ?_
  · rw [skip] at hb
    cases hb
  · have frame := leads.eq hn
    rw [openedIn, h.insertElement_eq] at frame
    have form : s.form = b.form := congrArg Frame.form frame
    have modes : s.templateModes = b.templateModes := congrArg Frame.templateModes frame
    rw [hend s (congrArg Frame.openElements frame) (congrArg Frame.mode frame) (congrArg Frame.formatting frame)
      modes, closedTo, ← form, ← modes]

/-- An element that the builder before a tag holds is held by what stands for it. -/
theorem holds_of_inMode (hb : b₀.Stands b) (ht : token.isPiece)
    (hm : ∃ b₁, (b.prepared token).inMode token = b₁.done ∧ (b.prepared token).Holds around e part b₁) :
    b.Holds around e part (b₀.read token) := by
  obtain ⟨b₁, inMode, holds⟩ := hm
  rw [hb.read_eq (h.steady hr) ht inMode]
  exact holds.of_leads (.of_eq (frame_prepared b token)) (tree_prepared b token)

end At

/-! Tables. -/

namespace At

theorem holds_table (h : b.At .flow around) (hs : b.skipLineFeed = false) (he : readName e.tag = e.tag)
    (ht : e.tag = "table") (hp : "p" ∉ within around) :
    b.Holds around e .table (b.startInBody ⟨e.tag, e.attributes, false⟩) := by
  have started : b.startInBody ⟨e.tag, e.attributes, false⟩ =
      b.openedIn ⟨e.tag, e.attributes, false⟩ .inTable b.formatting false := by
    have table : b.startInBody ⟨e.tag, e.attributes, false⟩ = b.startTable ⟨e.tag, e.attributes, false⟩ := by
      rw [ht]
      rfl
    rw [table, startTable, h.closeParagraphInScope_eq rfl hp, ite_self, openedIn, h.insertElement_eq]
    rfl
  have boundary : e.tag ∉ boundaryTags := by
    rw [ht]
    decide
  rw [started]
  refine h.holds_opened rfl hs he (.inr ⟨boundary, rfl⟩) false rfl (List.mem_singleton_self _) (by decide)
    (by rw [ht]; rfl) (fun _ _ _ => by rw [ht]; rfl) fun s opens mode formatting modes => ?_
  have scope : s.inTableScope "table" := inScope_current opens (isHtml_current rfl ht)
  have closed : s.endTable = { s with mode := b.mode, openElements := b.openElements } := by
    rw [endTable, popThroughHtml_current opens rfl ht]
    exact h.resetMode_eq (by decide) rfl modes
  rw [inMode, mode, ← formatting]
  simp only [inTable, ht, scope, closed, if_true]

theorem head_any_mono {around names more : List String} (h : around.head?.any names.contains)
    (hm : ∀ n ∈ names, n ∈ more) : around.head?.any more.contains := by
  cases ho : around.head? with
  | none =>
    rw [ho] at h
    cases h
  | some n =>
    rw [ho] at h
    exact List.contains_iff_mem.mpr (hm n (List.contains_iff_mem.mp h))

theorem holds_caption (h : b.At .table around) (hs : b.skipLineFeed = false) (he : readName e.tag = e.tag)
    (ht : e.tag = "caption") : ∃ b₁, b.inMode (.startTag ⟨e.tag, e.attributes, false⟩) = b₁.done ∧
      b.Holds around e .flow b₁ := by
  have mode : b.mode = .inTable := List.mem_singleton.mp h.mode
  have cleared : b.clearToTable = b := h.clearTo_eq rfl (head_any_mono h.parent (by decide))
  have marked : b.markFormatting.Sound := ⟨h.tree, h.root, h.fostering, h.nodes⟩
  refine ⟨b.openedIn ⟨e.tag, e.attributes, false⟩ .inCaption (none :: b.formatting) b.framesetAllowed, ?_, ?_⟩
  · rw [inMode, mode, openedIn, h.insertElement_eq]
    simp only [inTable, ht, cleared, marked.insertElement_eq]
    rfl
  refine h.holds_opened rfl hs he (.inl rfl) _ rfl (by decide) (by decide) rfl (fun _ _ _ => by rw [ht]; rfl)
    fun s opens mode' formatting modes => ?_
  have scope : s.inTableScope "caption" := inScope_current opens (isHtml_current rfl ht)
  have closed : s.endCaption =
      { s with mode := b.mode, openElements := b.openElements, formatting := b.formatting } := by
    rw [endCaption, closeImplied_eq opens rfl ht (by decide), popThroughHtml_current opens rfl ht,
      clearFormatting]
    dsimp only
    rw [formatting, mode]
    rfl
  rw [inMode, mode']
  simp only [inCaption, ht, scope, closed, if_true]

theorem holds_columns (h : b.At .table around) (hs : b.skipLineFeed = false) (he : readName e.tag = e.tag)
    (ht : e.tag = "colgroup") : ∃ b₁, b.inMode (.startTag ⟨e.tag, e.attributes, false⟩) = b₁.done ∧
      b.Holds around e .columns b₁ := by
  have mode : b.mode = .inTable := List.mem_singleton.mp h.mode
  have cleared : b.clearToTable = b := h.clearTo_eq rfl (head_any_mono h.parent (by decide))
  have boundary : e.tag ∉ boundaryTags := by
    rw [ht]
    decide
  refine ⟨b.openedIn ⟨e.tag, e.attributes, false⟩ .inColumnGroup b.formatting b.framesetAllowed, ?_, ?_⟩
  · rw [inMode, mode, ← h.withMode_insertElement]
    simp only [inTable, ht, cleared]
  refine h.holds_opened rfl hs he (.inr ⟨boundary, rfl⟩) _ rfl (List.mem_singleton_self _) (by decide)
    (by rw [ht]; rfl) (fun _ _ _ => by rw [ht]; rfl) fun s opens mode' formatting _ => ?_
  have current : s.currentIsHtml "colgroup" := currentIsHtml_current opens rfl ht
  have closed : s.pop.withMode .inTable = { s with mode := b.mode, openElements := b.openElements } := by
    rw [pop, opens, mode]
    rfl
  rw [inMode, mode', ← formatting]
  simp only [inColumnGroup, ht, current, closed, if_true]

theorem holds_rows (h : b.At .table around) (hs : b.skipLineFeed = false) (he : readName e.tag = e.tag)
    (ht : ["tbody", "tfoot", "thead"].contains e.tag) :
    ∃ b₁, b.inMode (.startTag ⟨e.tag, e.attributes, false⟩) = b₁.done ∧ b.Holds around e .rows b₁ := by
  have mode : b.mode = .inTable := List.mem_singleton.mp h.mode
  have cleared : b.clearToTable = b := h.clearTo_eq rfl (head_any_mono h.parent (by decide))
  have listed := List.contains_iff_mem.mp ht
  have boundary : e.tag ∉ boundaryTags := by
    have others : ∀ n ∈ ["tbody", "tfoot", "thead"], n ∉ boundaryTags := by decide
    exact others _ listed
  refine ⟨b.openedIn ⟨e.tag, e.attributes, false⟩ .inTableBody b.formatting b.framesetAllowed, ?_, ?_⟩
  · rw [inMode, mode, ← h.withMode_insertElement]
    simp only [List.mem_cons, List.not_mem_nil, or_false] at listed
    rcases listed with ht | ht | ht <;> simp only [inTable, ht, cleared]
  have resets (b' : Builder) :
      b'.modeFor (⟨b.tree.size, .html, e.tag, false⟩ :: b.openElements) = .inTableBody := by
    simp only [List.mem_cons, List.not_mem_nil, or_false] at listed
    rcases listed with ht | ht | ht <;> rw [ht] <;> rfl
  refine h.holds_opened rfl hs he (.inr ⟨boundary, rfl⟩) _ rfl (List.mem_singleton_self _) (by decide) ht
    (fun _ b' _ => resets b') fun s opens mode' formatting _ => ?_
  have scope : s.inTableScope e.tag := inScope_current opens (isHtml_current rfl rfl)
  have kept : s.clearToSection = s := by
    have sections : ∀ n ∈ ["tbody", "tfoot", "thead"],
        ["tbody", "tfoot", "thead", "template", "html"].contains n := by decide
    exact clearTo_current opens rfl rfl (sections _ listed)
  have closed : s.pop.withMode .inTable = { s with mode := b.mode, openElements := b.openElements } := by
    rw [pop, opens, mode]
    rfl
  rw [inMode, mode', ← formatting]
  simp only [inTableBody, ht, scope, kept, closed, if_true]

theorem holds_cells (h : b.At .rows around) (hs : b.skipLineFeed = false) (he : readName e.tag = e.tag)
    (ht : e.tag = "tr") :
    ∃ b₁, b.inMode (.startTag ⟨e.tag, e.attributes, false⟩) = b₁.done ∧ b.Holds around e .cells b₁ := by
  have mode : b.mode = .inTableBody := List.mem_singleton.mp h.mode
  have cleared : b.clearToSection = b := h.clearTo_eq rfl (head_any_mono h.parent (by decide))
  have boundary : e.tag ∉ boundaryTags := by
    rw [ht]
    decide
  refine ⟨b.openedIn ⟨e.tag, e.attributes, false⟩ .inRow b.formatting b.framesetAllowed, ?_, ?_⟩
  · rw [inMode, mode, ← h.withMode_insertElement]
    simp only [inTableBody, ht, cleared]
  refine h.holds_opened rfl hs he (.inr ⟨boundary, rfl⟩) _ rfl (List.mem_singleton_self _) (by decide)
    (by rw [ht]; rfl) (fun _ _ _ => by rw [ht]; rfl) fun s opens mode' formatting _ => ?_
  have scope : s.inTableScope "tr" := inScope_current opens (isHtml_current rfl ht)
  have kept : s.clearToRow = s := clearTo_current opens rfl ht (by decide)
  have closed : s.pop.withMode .inTableBody = { s with mode := b.mode, openElements := b.openElements } := by
    rw [pop, opens, mode]
    rfl
  rw [inMode, mode', ← formatting]
  simp only [inRow, ht, scope, kept, closed, if_true]

theorem holds_cell (h : b.At .cells around) (hs : b.skipLineFeed = false) (he : readName e.tag = e.tag)
    (ht : ["td", "th"].contains e.tag) :
    ∃ b₁, b.inMode (.startTag ⟨e.tag, e.attributes, false⟩) = b₁.done ∧ b.Holds around e .flow b₁ := by
  have mode : b.mode = .inRow := List.mem_singleton.mp h.mode
  have cleared : b.clearToRow = b := h.clearTo_eq rfl (head_any_mono h.parent (by decide))
  have listed : e.tag = "td" ∨ e.tag = "th" := List.mem_pair.mp (List.contains_iff_mem.mp ht)
  refine ⟨b.openedIn ⟨e.tag, e.attributes, false⟩ .inCell (none :: b.formatting) b.framesetAllowed, ?_, ?_⟩
  · rw [inMode, mode, openedIn]
    rcases listed with ht | ht <;> simp only [inRow, ht, cleared, h.insertElement_eq] <;> rfl
  have resets (b' : Builder) :
      b'.modeFor (⟨b.tree.size, .html, e.tag, false⟩ :: b.openElements) = .inCell := by
    cases ho : b.openElements with
    | nil =>
      have empty := h.parent
      rw [← h.names, ho] at empty
      cases empty
    | cons o os => rcases listed with ht | ht <;> rw [ht] <;> rfl
  refine h.holds_opened rfl hs he (.inl rfl) _ rfl (by decide) (by decide) rfl
    (fun _ b' _ => resets b') fun s opens mode' formatting _ => ?_
  have scope : s.inTableScope e.tag := inScope_current opens (isHtml_current rfl rfl)
  have implied : e.tag ∉ impliedEndTags := by rcases listed with ht | ht <;> rw [ht] <;> decide
  have closed : (s.closeImplied.popThroughHtml e.tag).clearFormatting.withMode .inRow =
      { s with mode := b.mode, openElements := b.openElements, formatting := b.formatting } := by
    rw [closeImplied_eq opens rfl rfl implied, popThroughHtml_current opens rfl rfl, clearFormatting]
    dsimp only
    rw [formatting, mode]
    rfl
  have named : (decide (e.tag = "td") || decide (e.tag = "th")) = true := by simpa using listed
  rw [inMode, mode']
  simp only [inCell, named, scope, closed, if_true]

end At

/-! Choices. -/

/-- The tags that end a choice in a table. -/
def choiceEndTags : List String :=
  ["caption", "table", "tbody", "tfoot", "thead", "tr", "td", "th"]

section Choices

variable (hm : b.mode ∈ Region.choices.modes) (tag : Tag)
include hm

omit tag in
theorem not_inTemplate_of_choices : b.mode ≠ .inTemplate := by
  intro e
  rw [e] at hm
  exact absurd hm (by decide)

theorem inMode_startTag_choices (hn : tag.name ∉ choiceEndTags) :
    b.inMode (.startTag tag) = b.inSelect (.startTag tag) := by
  have other : choiceEndTags.contains tag.name = false := by simpa using hn
  rcases List.mem_pair.mp hm with e | e <;> rw [inMode, e]
  exact if_neg (ne_true_of_eq_false other)

theorem inMode_endTag_choices (hn : tag.name ∉ choiceEndTags) :
    b.inMode (.endTag tag) = b.inSelect (.endTag tag) := by
  have other : choiceEndTags.contains tag.name = false := by simpa using hn
  rcases List.mem_pair.mp hm with e | e <;> rw [inMode, e]
  exact if_neg (ne_true_of_eq_false other)

end Choices

namespace At

theorem popChoices_eq (h : b.At .choices around) (hn : around.head?.any ["optgroup", "option"].contains = false) :
    (b.popCurrent "option").popCurrent "optgroup" = b := by
  have other {n : String} (hm : n ∈ ["optgroup", "option"]) : around.head? ≠ some n := by
    intro e
    rw [e, Option.any_some, List.contains_iff_mem.mpr hm] at hn
    cases hn
  rw [h.popCurrent_eq rfl (other (by decide)), h.popCurrent_eq rfl (other (by decide))]

theorem holds_select (h : b.At .flow around) (hs : b.skipLineFeed = false) (he : readName e.tag = e.tag)
    (ht : e.tag = "select") :
    b.Holds around e .choices (b.startInBody ⟨e.tag, e.attributes, false⟩) := by
  let mode : InsertionMode :=
    if [.inTable, .inCaption, .inTableBody, .inRow, .inCell].contains b.mode then .inSelectInTable
    else .inSelect
  have chosen : mode = .inSelectInTable ∨ mode = .inSelect := by
    dsimp only [mode]
    split
    · exact .inl rfl
    · exact .inr rfl
  have started : b.startInBody ⟨e.tag, e.attributes, false⟩ =
      b.openedIn ⟨e.tag, e.attributes, false⟩ mode b.formatting false := by
    have select : b.startInBody ⟨e.tag, e.attributes, false⟩ = b.startSelect ⟨e.tag, e.attributes, false⟩ := by
      rw [ht]
      rfl
    rw [select, startSelect, h.reconstruct_eq, openedIn, h.insertElement_eq]
    rfl
  have boundary : e.tag ∉ boundaryTags := by
    rw [ht]
    decide
  have listed : mode ∈ Region.choices.modes := by
    rcases chosen with hm | hm <;> rw [hm] <;> decide
  have other : mode ≠ .inTemplate := by
    rcases chosen with hm | hm <;> rw [hm] <;> nofun
  rw [started]
  refine h.holds_opened rfl hs he (.inr ⟨boundary, rfl⟩) false rfl listed other rfl
    (fun hn => absurd rfl hn) fun s opens mode' formatting modes => ?_
  have scope : s.inSelectScope := inScope_current opens (isHtml_current rfl ht)
  have closed : s.closeSelect = { s with mode := b.mode, openElements := b.openElements } := by
    rw [closeSelect, popThroughHtml_current opens rfl ht]
    exact h.resetMode_eq (by decide) rfl modes
  have ended : s.inSelect (.endTag ⟨e.tag, [], false⟩) = s.closeSelect.done := by
    simp only [inSelect, ht, scope, if_true]
  have inMode : s.inMode (.endTag ⟨e.tag, [], false⟩) = s.inSelect (.endTag ⟨e.tag, [], false⟩) :=
    inMode_endTag_choices (mode' ▸ listed) _ (by rw [ht]; decide)
  rw [inMode, ended, closed, ← formatting]

theorem holds_option (h : b.At .choices around) (hs : b.skipLineFeed = false) (he : readName e.tag = e.tag)
    (ht : e.tag = "option") (hn : around.head? ≠ some "option") :
    ∃ b₁, b.inMode (.startTag ⟨e.tag, e.attributes, false⟩) = b₁.done ∧ b.Holds around e .choices b₁ := by
  have boundary : e.tag ∉ boundaryTags := by
    rw [ht]
    decide
  have notEnd : e.tag ∉ choiceEndTags := by
    rw [ht]
    decide
  refine ⟨b.openedIn ⟨e.tag, e.attributes, false⟩ b.mode b.formatting b.framesetAllowed, ?_, ?_⟩
  · have popped : b.popCurrent "option" = b := h.popCurrent_eq rfl hn
    rw [inMode_startTag_choices h.mode _ notEnd, ← h.withMode_insertElement]
    simp only [inSelect, ht, popped, h.insertElement_eq]
    rfl
  refine h.holds_opened rfl hs he (.inr ⟨boundary, rfl⟩) _ rfl h.mode (not_inTemplate_of_choices h.mode) rfl
    (fun hc => absurd rfl hc) fun s opens mode formatting _ => ?_
  have closed : s.popCurrent "option" = { s with openElements := b.openElements } := by
    rw [popCurrent, currentIsHtml_current opens rfl ht, if_pos rfl, pop, opens]
    rfl
  rw [inMode_endTag_choices (mode ▸ h.mode) _ notEnd, ← mode, ← formatting]
  simp only [inSelect, ht, closed]

theorem holds_optionGroup (h : b.At .choices around) (hs : b.skipLineFeed = false)
    (he : readName e.tag = e.tag) (ht : e.tag = "optgroup")
    (hn : around.head?.any ["optgroup", "option"].contains = false) :
    ∃ b₁, b.inMode (.startTag ⟨e.tag, e.attributes, false⟩) = b₁.done ∧ b.Holds around e .choices b₁ := by
  have boundary : e.tag ∉ boundaryTags := by
    rw [ht]
    decide
  have notEnd : e.tag ∉ choiceEndTags := by
    rw [ht]
    decide
  refine ⟨b.openedIn ⟨e.tag, e.attributes, false⟩ b.mode b.formatting b.framesetAllowed, ?_, ?_⟩
  · rw [inMode_startTag_choices h.mode _ notEnd, ← h.withMode_insertElement]
    simp only [inSelect, ht, h.popChoices_eq hn, h.insertElement_eq]
    rfl
  refine h.holds_opened rfl hs he (.inr ⟨boundary, rfl⟩) _ rfl h.mode (not_inTemplate_of_choices h.mode) rfl
    (fun hc => absurd rfl hc) fun s opens mode formatting _ => ?_
  have closed : s.endOptionGroup = { s with openElements := b.openElements } := by
    have group : s.popCurrent "optgroup" = { s with openElements := b.openElements } := by
      rw [popCurrent, currentIsHtml_current opens rfl ht, if_pos rfl, pop, opens]
      rfl
    have option : (⟨b.tree.size, .html, e.tag, false⟩ : OpenElement).isHtml "option" = false := by
      rw [ht]
      rfl
    rw [endOptionGroup]
    split
    next e' _ _ ho =>
      rw [opens, List.cons.injEq] at ho
      rw [← ho.1, option, Bool.false_and, if_neg Bool.false_ne_true]
      exact group
    next => exact group
  rw [inMode_endTag_choices (mode ▸ h.mode) _ notEnd, ← mode, ← formatting]
  simp only [inSelect, ht, closed]

end At

end Builder

end LivePages
