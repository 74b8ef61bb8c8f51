import LivePages.Proofs.Html.TableTags

namespace LivePages

namespace Builder

variable {b b₁ c s : Builder} {region : Region} {around : List String} {e : Element} {tag : Tag}
  {model : ContentModel} {inner : Markup} {p : NodeId} {cs rest : List Char}

namespace At

theorem inMode_headContent (h : b.At region around) (hn : tag.name ∈ region.headContent) :
    b.inMode (.startTag tag) = (b.insertHeadContent tag).done := by
  have mode := h.mode
  have head : headContentTags.contains tag.name := List.contains_iff_mem.mpr (Region.mem_of_mem_headContent hn)
  have inBody : b.startInBody tag = b.insertHeadContent tag := if_pos head
  cases region with
  | head =>
    have html : tag.name ≠ "html" := by
      rintro e
      rw [e] at head
      exact absurd head (by decide)
    rw [inMode, List.mem_singleton.mp mode]
    simp only [inHead, html, head, if_true, if_false]
  | flow =>
    by_cases hm : b.mode = .inTemplate
    · rw [inMode, hm]
      simp only [inTemplate, head, if_true]
    · have parts : ∀ n ∈ headContentTags, n ∉ tablePartTags := by decide
      rw [h.inMode_startTag hm (parts _ hn), inBody]
  | choices =>
    have script : tag.name = "script" := List.mem_singleton.mp hn
    rw [inMode_startTag_choices mode _ (by rw [script]; decide)]
    simp only [inSelect, script]
  | table =>
    rw [inMode, List.mem_singleton.mp mode]
    simp only [Region.headContent, List.mem_cons, List.not_mem_nil, or_false] at hn
    rcases hn with e | e | e <;> simp only [inTable, e]
  | columns =>
    rw [inMode, List.mem_singleton.mp mode]
    simp only [inColumnGroup, List.mem_singleton.mp hn]
  | rows =>
    rw [inMode, List.mem_singleton.mp mode]
    simp only [Region.headContent, List.mem_cons, List.not_mem_nil, or_false] at hn
    rcases hn with e | e | e <;> simp [inTableBody, inTable, e]
  | cells =>
    rw [inMode, List.mem_singleton.mp mode]
    simp only [Region.headContent, List.mem_cons, List.not_mem_nil, or_false] at hn
    rcases hn with e | e | e <;> simp [inRow, inTable, e]
  | _ => cases hn

/-! Templates. -/

theorem openTemplate_eq (h : b.At region around) (tag : Tag) : b.openTemplate tag =
    { b with
      tree := b.tree.plant b.here (.element ⟨tag.name, tag.attributes⟩)
      mode := .inTemplate
      templateModes := .inTemplate :: b.templateModes
      openElements := b.opening .html tag :: b.openElements
      formatting := none :: b.formatting
      framesetAllowed := false } := by
  have sound : (b.markFormatting.forbidFrameset.withMode .inTemplate).Sound :=
    ⟨h.tree, h.root, h.fostering, h.nodes⟩
  rw [openTemplate, sound.insertElement_eq]
  rfl

/-- The end of a template, which may have turned out to hold what stands in the flow of a page. -/
theorem endTemplate_eq (h : b.At region around) (hr : region ≠ .choices) {o : OpenElement}
    (ho : s.openElements = o :: b.openElements) (hv : o.vocabulary = .html) (hn : o.name = "template")
    (hf : s.formatting = none :: b.formatting) (hm : s.templateModes.tail = b.templateModes) :
    s.endTemplate = { s with
      mode := b.mode
      templateModes := b.templateModes
      openElements := b.openElements
      formatting := b.formatting } := by
  have reached : s.hasOpen "template" := by
    rw [hasOpen, ho, List.any_cons, isHtml_current hv hn]
    rfl
  have kept : s.popWhile (·.isHtmlIn allImpliedEndTags) = s :=
    popWhile_current ho ((isHtmlIn_current hv hn _).trans rfl)
  have cleared : (s.popThroughHtml "template").clearFormatting =
      { s with openElements := b.openElements, formatting := b.formatting } := by
    rw [popThroughHtml_current ho hv hn, clearFormatting]
    dsimp only
    rw [hf]
    rfl
  rw [endTemplate, reached, if_pos rfl, kept, closeTemplate, cleared]
  dsimp only
  rw [hm]
  exact h.resetMode_eq hr rfl rfl

theorem holds_template (h : b.At region around) (hr : region.isHtml) (hc : region ≠ .choices)
    (hs : b.skipLineFeed = false) (he : readName e.tag = e.tag) (ht : e.tag = "template") :
    b.Holds around e .flow (b.openTemplate ⟨e.tag, e.attributes, false⟩) := by
  have opens : b.Opened .html ⟨e.tag, e.attributes, false⟩
      (b.openTemplate ⟨e.tag, e.attributes, false⟩) := by
    rw [h.openTemplate_eq]
    exact ⟨rfl, rfl, rfl, rfl, .inl rfl, .inl rfl⟩
  rw [h.openTemplate_eq] at opens ⊢
  have html : ∀ o ∈ b.opening .html ⟨e.tag, e.attributes, false⟩ :: b.openElements, o.vocabulary = .html :=
    List.forall_mem_cons.mpr ⟨rfl, (h.steady hr).html⟩
  have listed : InsertionMode.inTemplate ∈ Region.flow.modes := by decide
  refine opens.holds_html (opens.reader h listed html rfl (fun _ => ht) fun _ b' hb => ?_) rfl he
    (fun hb => absurd (hs.symm.trans hb) Bool.false_ne_true) fun s leads _ => ?_
  · rw [opens.openElements, modeFor, opening, ht, hb]
    rfl
  · obtain ⟨mode, modes⟩ : (s.mode = .inTemplate ∨ s.mode = .inBody) ∧
        s.templateModes.tail = b.templateModes := by
      rcases leads with frame | frame
      · exact ⟨.inl (congrArg Frame.mode frame), congrArg (List.tail ∘ Frame.templateModes) frame⟩
      · exact ⟨.inr (congrArg Frame.mode frame), congrArg (List.tail ∘ Frame.templateModes) frame⟩
    have form : s.form = b.form := leads.form
    have ended : s.endTemplate = s.closedTo b := by
      rw [h.endTemplate_eq hc (openElements_eq leads) rfl ht leads.formatting modes, closedTo, ← form]
    rw [← ended]
    rcases mode with e' | e' <;> rw [inMode, e']
    · simp only [inTemplate, ht, if_true]
    · simp only [inBody, ht]
      rfl

end At

/-! Elements without content. -/

theorem Adds.of_leads {data : NodeData} (h : c.Adds c.here (.node data inner .nil) b₁)
    (hf : b.frame.Leads c.frame) (ht : c.tree = b.tree) : b.Adds b.here (.node data inner .nil) b₁ where
  frame := hf.trans h.frame
  tree := ht ▸ here_eq (openElements_eq hf) ▸ h.tree
  settled hs := nomatch (h.settled hs).2

theorem Sound.adds_void (h : b.Sound) (hs : b.skipLineFeed = false) (allowed : Bool) :
    b.Adds b.here (.node (.element e) .nil .nil)
      { b.insertVoid ⟨e.tag, e.attributes, false⟩ with framesetAllowed := allowed } := by
  rw [h.insertVoid_eq]
  exact .of_plant h.tree h.here_lt rfl hs rfl

theorem insertHeadContent_void (b : Builder) (attributes : List (String × String)) {name : String}
    (hn : name ∈ ["base", "link", "meta"]) : b.insertHeadContent ⟨name, attributes, false⟩ =
      b.insertVoid ⟨name, attributes, false⟩ := by
  simp only [List.mem_cons, List.not_mem_nil, or_false] at hn
  rcases hn with rfl | rfl | rfl <;> rfl

namespace At

theorem startInBody_void (h : b.At .flow around) (attributes : List (String × String)) {name : String}
    (hv : name ∈ voidTags) (hc : name ≠ "col") (hr : name = "hr" → "p" ∉ within around) :
    ∃ allowed, b.startInBody ⟨name, attributes, false⟩ =
      { b.insertVoid ⟨name, attributes, false⟩ with framesetAllowed := allowed } := by
  have keep : b.insertVoid ⟨name, attributes, false⟩ =
      { b.insertVoid ⟨name, attributes, false⟩ with framesetAllowed := b.framesetAllowed } := by
    rw [h.insertVoid_eq]
  have visible : b.insertVisibleVoid ⟨name, attributes, false⟩ =
      { b.insertVoid ⟨name, attributes, false⟩ with framesetAllowed := false } := by
    rw [insertVisibleVoid, h.reconstruct_eq]
    rfl
  simp only [voidTags, List.mem_cons, List.not_mem_nil, or_false] at hv
  rcases hv with rfl | rfl | rfl | rfl | rfl | rfl | rfl | rfl | rfl | rfl | rfl | rfl | rfl | rfl
  case inr.inr.inr.inl => exact absurd rfl hc
  case inr.inr.inr.inr.inr.inl =>
    have started : b.startInBody ⟨"hr", attributes, false⟩ =
        (b.closeParagraphInScope.insertVoid ⟨"hr", attributes, false⟩).forbidFrameset := rfl
    rw [started, h.closeParagraphInScope_eq rfl (hr rfl)]
    exact ⟨false, rfl⟩
  case inr.inr.inr.inr.inr.inr.inr.inl =>
    have started : b.startInBody ⟨"input", attributes, false⟩ = b.startInput ⟨"input", attributes, false⟩ := rfl
    rw [started, startInput, h.reconstruct_eq]
    split
    · exact ⟨_, keep⟩
    · exact ⟨false, rfl⟩
  all_goals first
    | exact ⟨false, visible⟩
    | exact ⟨_, keep⟩

/-- What the builder before a tag adds is added by what stands for it. -/
theorem adds_of_inMode (h : s.At region around) (hr : region.isHtml) (hb : b.Stands s)
    (hm : (s.prepared (.startTag ⟨e.tag, e.attributes, false⟩)).inMode
        (.startTag ⟨e.tag, e.attributes, false⟩) =
      ((s.prepared (.startTag ⟨e.tag, e.attributes, false⟩)).insertVoid ⟨e.tag, e.attributes, false⟩).done) :
    s.Adds s.here (.node (.element e) .nil .nil) (b.read (.startTag ⟨e.tag, e.attributes, false⟩)) := by
  have ready := (h.prepared (.startTag ⟨e.tag, e.attributes, false⟩)).toSound
  rw [hb.read_eq (h.steady hr) rfl hm]
  exact (ready.adds_void rfl _).of_leads (.refl _) rfl

/-- The modes of a table with an input in it that is not shown. -/
theorem inMode_hidden (h : b.At region around) (hr : region.isTable)
    (ht : tag.name = "input") (hh : isHiddenInput tag) : b.inMode (.startTag tag) = (b.insertVoid tag).done := by
  have mode := h.mode
  cases region with
  | table =>
    rw [inMode, List.mem_singleton.mp mode]
    simp only [inTable, ht, hh, if_true]
  | rows =>
    rw [inMode, List.mem_singleton.mp mode]
    simp [inTableBody, inTable, ht, hh]
  | cells =>
    rw [inMode, List.mem_singleton.mp mode]
    simp [inRow, inTable, ht, hh]
  | _ => cases hr

/-- An element without content is added as it is. -/
theorem adds_void (h : s.At region around) (hb : b.Stands s) (hf : region.Fills around e .nothing) :
    s.Adds s.here (.node (.element e) .nil .nil) (b.read (.startTag ⟨e.tag, e.attributes, false⟩)) := by
  have ready := h.prepared (.startTag ⟨e.tag, e.attributes, false⟩)
  cases hf with
  | headVoid ht =>
    refine h.adds_of_inMode rfl hb ?_
    have head : ∀ n ∈ ["base", "link", "meta"], n ∈ headContentTags := by decide
    rw [ready.inMode_headContent (head _ ht), insertHeadContent_void _ _ ht]
  | flowVoid hv hc hr =>
    by_cases ht : e.tag ∈ ["base", "link", "meta"]
    · refine h.adds_of_inMode rfl hb ?_
      have head : ∀ n ∈ ["base", "link", "meta"], n ∈ headContentTags := by decide
      rw [ready.inMode_headContent (head _ ht), insertHeadContent_void _ _ ht]
    · have others : ∀ n ∈ voidTags, n ∉ ["base", "link", "meta"] → n ≠ "col" →
          n ∉ tablePartTags ∧ n ∉ headContentTags := by decide
      obtain ⟨hp, hh⟩ := others _ hv ht hc
      have entered := h.entered.prepared (.startTag ⟨e.tag, e.attributes, false⟩)
      obtain ⟨allowed, started⟩ := entered.startInBody_void e.attributes hv hc hr
      rw [h.eq_of_stands hb rfl, h.read_startTag hp hh, started]
      exact (entered.toSound.adds_void rfl allowed).of_leads (.inr (frame_entered s)) (tree_entered s)
  | rule ht hn =>
    have notEnd : e.tag ∉ choiceEndTags := by
      rw [ht]
      decide
    have popped := ready.popChoices_eq hn
    refine h.adds_of_inMode rfl hb ?_
    rw [inMode_startTag_choices ready.mode _ notEnd]
    rw [ht] at popped
    simp only [inSelect, ht, popped]
  | column ht =>
    refine h.adds_of_inMode rfl hb ?_
    rw [inMode, List.mem_singleton.mp ready.mode]
    simp only [inColumnGroup, ht]
  | hidden hr ht hh =>
    have html : region.isHtml := by
      cases region with
      | foreign => cases hr
      | label => cases hr
      | _ => rfl
    exact h.adds_of_inMode html hb (ready.inMode_hidden hr ht hh)

end At

/-! Elements that hold nothing but text. -/

/-- An element has been opened whose content is text up to its end tag. -/
structure HoldsText (b : Builder) (e : Element) (model : ContentModel) (b₁ : Builder) : Prop where
  tree : b₁.tree = b.tree.plant b.here (.element e)
  mode : b₁.mode = .text
  content : b₁.content = model
  openElements : b₁.openElements = b.opening .html ⟨e.tag, e.attributes, false⟩ :: b.openElements
  /-- The reader goes back to where it was. -/
  leads : b.frame.Leads { b₁.frame with
    mode := b₁.returnMode, content := b.content, openElements := b.openElements }
  element : b₁.lastStartTag = e.tag
  settled : b₁.skipLineFeed → e.tag = "textarea"

theorem Sound.holdsText (h : b.Sound) (hn : b.lastStartTag = e.tag) {skip : Bool}
    (hs : skip → e.tag = "textarea") (model : ContentModel) :
    b.HoldsText e model
      { b.insertTextElement ⟨e.tag, e.attributes, false⟩ model with skipLineFeed := skip } := by
  rw [insertTextElement, h.insertElement_eq]
  exact ⟨rfl, rfl, rfl, rfl, .refl _, hn, hs⟩

theorem prepared_eq {run : String} {token : Token} (ht : token = .space run ∨ token = .text run)
    (hs : b.skipLineFeed = false) : b.prepared token = b := by
  have same : { b with skipLineFeed := false } = b := by rw [← hs]
  rcases ht with rfl | rfl <;> exact same

theorem noTextLast_of_planted {t : Tree} {data : NodeData} (h : t.WellFormed) (hp : p < t.size)
    (hb : t.Planted p data b₁.tree) (hh : b₁.here = t.size) : b₁.NoTextLast := by
  intro id hid
  rw [hb.wellFormed.consistent.last, hh, hb.children, if_neg (Nat.ne_of_gt hp), h.children_size] at hid
  cases hid

namespace HoldsText

theorem of_leads (hh : c.HoldsText e model b₁) (hf : b.frame.Leads c.frame) (ht : c.tree = b.tree) :
    b.HoldsText e model b₁ where
  tree := by rw [hh.tree, ht, here_eq (openElements_eq hf)]
  mode := hh.mode
  content := hh.content
  openElements := by rw [hh.openElements, opening, opening, ht, openElements_eq hf]
  leads := by
    have content : c.content = b.content := hf.content
    have opened : c.openElements = b.openElements := hf.openElements
    rw [← content, ← opened]
    exact hf.trans hh.leads
  element := hh.element
  settled := hh.settled

theorem planted (hh : b.HoldsText e model b₁) (h : b.Sound) :
    b.tree.Planted b.here (.element e) b₁.tree :=
  hh.tree ▸ h.tree.planted h.here_lt (.element e)

theorem here (hh : b.HoldsText e model b₁) : b₁.here = b.tree.size := by
  rw [Builder.here, hh.openElements]
  rfl

theorem steady (hh : b.HoldsText e model b₁) (h : b.Steady) : b₁.Steady := by
  have fostering : b₁.fostering = b.fostering := hh.leads.fostering
  refine ⟨h.toSound.opening fostering hh.tree hh.openElements rfl, ?_⟩
  rw [hh.openElements, List.forall_mem_cons]
  exact ⟨rfl, h.html⟩

theorem not_inTemplate (hh : b.HoldsText e model b₁) : b₁.frame.mode ≠ .inTemplate := by
  have mode : b₁.frame.mode = .text := hh.mode
  rw [mode]
  nofun

theorem takesText (hh : b.HoldsText e model b₁) (h : b.Steady) : b₁.TakesText := by
  intro b' run token ht hf hw hsize hs
  have steady : b'.Steady := (hh.steady h).of_leads (.of_eq hf) hw hsize
  have mode : b'.mode = .text := (congrArg Frame.mode hf).trans hh.mode
  refine ⟨b'.framesetAllowed, steady.read_eq (fun hb => ?_) ?_⟩
  · exact absurd (hs.symm.trans hb) Bool.false_ne_true
  · have read : b'.inMode token = b'.inText token := by rw [inMode, mode]
    rw [prepared_eq ht hs, read]
    rcases ht with rfl | rfl <;> rfl

/-- The end tag of the element. -/
theorem read_endTag (hh : b.HoldsText e model b₁) (h : b.Steady) (hc : b.content = .markup) {b₂ : Builder}
    (hf : b₂.frame = b₁.frame) (hm : b₂.returnMode = b₁.returnMode) (ht : b₂.tree.WellFormed)
    (hsize : b₁.tree.size ≤ b₂.tree.size) (tag : Tag) :
    b.frame.Leads (b₂.read (.endTag tag)).frame ∧ (b₂.read (.endTag tag)).tree = b₂.tree ∧
      (b₂.read (.endTag tag)).skipLineFeed = false := by
  have steady : b₂.Steady := (hh.steady h).of_leads (.of_eq hf) ht hsize
  have mode : b₂.mode = .text := (congrArg Frame.mode hf).trans hh.mode
  have opened : b₂.openElements = _ := (congrArg Frame.openElements hf).trans hh.openElements
  have read : b₂.read (.endTag tag) = { b₂ with
      skipLineFeed := false
      openElements := b.openElements
      content := .markup
      mode := b₁.returnMode } := by
    refine steady.read_eq (fun _ => rfl) ?_
    have mode' : (b₂.prepared (.endTag tag)).mode = .text := mode
    have popped : (b₂.prepared (.endTag tag)).pop =
        { b₂ with skipLineFeed := false, openElements := b.openElements } := by
      rw [pop]
      exact congrArg (fun es : List OpenElement => { b₂ with skipLineFeed := false, openElements := es.tail }) opened
    rw [inMode, mode', ← hm]
    simp only [inText, popped]
    rfl
  rw [read]
  refine ⟨?_, rfl, rfl⟩
  have leads := hh.leads
  rw [← hf, hc] at leads
  exact leads

end HoldsText

end Builder

namespace Markup

theorem chars_ofText (text : String) (raw : Bool) :
    (ofText text).chars raw = if raw then text.toList else (escapeText text).toList := by
  by_cases h : text = ""
  · subst h
    cases raw <;> rfl
  · rw [ofText, if_neg h, chars, chars, List.append_nil]
    rfl

end Markup

theorem textModel?_cases {name : String} {model : ContentModel} (h : textModel? name = some model) :
    (model = .script ∧ name = "script") ∨
      (model = .escapable ∧ rawTextTags.contains name = false) ∨ model = .raw := by
  rw [textModel?] at h
  split at h
  next hn =>
    cases h
    exact .inl ⟨rfl, hn⟩
  split at h
  next hn =>
    cases h
    have plain : ∀ n ∈ ["title", "textarea"], rawTextTags.contains n = false := by decide
    exact .inr (.inl ⟨rfl, plain _ (List.contains_iff_mem.mp hn)⟩)
  split at h
  next =>
    cases h
    exact .inr (.inr rfl)
  next => cases h

theorem IsContent.ne_nil {name text : String} {model : ContentModel} {cs : List Char}
    (h : IsContent model name cs text) (hne : text ≠ "") : cs ≠ [] := by
  have full : text.toList ≠ [] := fun hn => hne (String.toList_eq_nil_iff.mp hn)
  cases h with
  | raw => exact full
  | script => exact full
  | escapable => exact escapeText_ne_nil hne

/-- The written content of an element that holds nothing but text. -/
theorem Markup.IsTextOf.isContent {name : String} {model : ContentModel} {m : Markup}
    (hm : textModel? name = some model) (h : m.IsTextOf name model) :
    IsContent model name (m.chars (rawTextTags.contains name)) m.text := by
  obtain ⟨ht, -, hv⟩ := h
  have chars : m.chars (rawTextTags.contains name) = _ :=
    (congrArg (Markup.chars _) ht).trans (chars_ofText m.text (rawTextTags.contains name))
  rw [chars]
  rcases textModel?_cases hm with ⟨rfl, rfl⟩ | ⟨rfl, hr⟩ | rfl
  · rw [isVerbatim, Bool.and_eq_true, Bool.not_eq_true', Bool.not_eq_true', decide_eq_false_iff_not] at hv
    exact .script hv.1 hv.2
  · rw [hr]
    exact .escapable name m.text
  · rw [isVerbatim, Bool.and_eq_true, Bool.not_eq_true', Bool.or_eq_true, beq_iff_eq] at hv
    have same : (if rawTextTags.contains name then m.text.toList else (escapeText m.text).toList) =
        m.text.toList := by
      split
      next => rfl
      next hr => rw [hv.2.resolve_left hr]
    rw [same]
    exact .raw hv.1

/-- What begins with a line feed has none in front of it where a text area begins. -/
theorem Markup.IsTextOf.textarea {model : ContentModel} {m : Markup}
    (hm : textModel? "textarea" = some model) (h : m.IsTextOf "textarea" model) :
    m.text.toList.head? ≠ some '\n' := by
  obtain ⟨-, -, hv⟩ := h
  cases hm
  simpa [isVerbatim] using hv

namespace Builder

variable {b b₁ s : Builder} {region : Region} {around : List String} {e : Element}
  {model : ContentModel} {inner : Markup}

/-- The content of an element that holds nothing but text is read up to its end tag. -/
theorem HoldsText.reads (hh : b.HoldsText e model b₁) (h : b.Steady) (hc : b.content = .markup)
    (he : e.ReadableAs .html) (hm : textModel? e.tag = some model) (hi : inner.IsTextOf e.tag model)
    (rest : List Char) :
    ∃ b', b₁.Reads (inner.chars (rawTextTags.contains e.tag) ++
        (("</" ++ e.tag ++ ">").toList ++ rest)) b' rest ∧
      b.Adds b.here (.node (.element e) inner .nil) b' := by
  have content := hi.isContent hm
  have bracket : '<' ∉ e.tag.toList := by
    have none : ∀ n ∈ ["script", "title", "textarea", "style", "iframe", "noembed", "noframes", "noscript"],
        '<' ∉ n.toList := by decide
    exact none _ (mem_of_textModel? hm)
  have shape : ("</" ++ e.tag ++ ">").toList ++ rest = '<' :: '/' :: (e.tag.toList ++ '>' :: rest) := by simp
  have planted := hh.planted h.toSound
  -- The end tag is read in the same way after some text and after none.
  have finish (b₂ : Builder) (ha : b₁.Adds b.tree.size inner b₂) (hr : b₂.returnMode = b₁.returnMode)
      (hl : b₂.lastStartTag = b₁.lastStartTag) :
      b₂.Reads (("</" ++ e.tag ++ ">").toList ++ rest) (b₂.read (.endTag ⟨e.tag, [], false⟩)) rest ∧
        b.Adds b.here (.node (.element e) inner .nil) (b₂.read (.endTag ⟨e.tag, [], false⟩)) := by
    have frame := ha.frame.eq hh.not_inTemplate
    constructor
    · refine .single ?_ (by simp only [shape, List.length_cons, List.length_append]; omega)
      have model : b₂.content = model := (congrArg Frame.content frame).trans hh.content
      rw [model, hl, hh.element, shape]
      exact lexTokens_contentEnd content he.letter he.isReadName bracket _ rest
    · obtain ⟨leads, tree, skip⟩ := hh.read_endTag h hc frame hr ha.tree.wellFormed ha.tree.size_le
        ⟨e.tag, [], false⟩
      refine ⟨leads, ?_, fun hs => by rw [skip] at hs; cases hs⟩
      rw [tree]
      exact planted.sown h.tree h.here_lt ha.tree
  by_cases empty : inner.text = ""
  · have none : inner = .nil := hi.1.trans (if_pos empty)
    subst none
    obtain ⟨reads, adds⟩ := finish b₁ (.refl planted.wellFormed _) rfl rfl
    exact ⟨_, reads, adds⟩
  · have one : inner = .node (.text inner.text) .nil .nil := hi.1.trans (if_neg empty)
    have full : inner.text.toList ≠ [] := fun hn => empty (String.toList_eq_nil_iff.mp hn)
    have feed : b₁.skipLineFeed → inner.text.toList.head? ≠ some '\n' := by
      intro hs
      have area := hh.settled hs
      rw [area] at hm hi
      exact hi.textarea hm
    obtain ⟨b₂, hb, hr, hl, ha⟩ := (hh.takesText h).adds (hh.steady h).toSound
      (noTextLast_of_planted h.tree h.here_lt planted hh.here) full feed
    rw [String.ofList_toList, ← one, hh.here] at ha
    obtain ⟨reads, adds⟩ := finish b₂ ha hr hl
    refine ⟨_, .trans ?_ reads, adds⟩
    rw [← hb]
    refine .one ?_ ?_
    · rw [hh.content, hh.element, shape]
      exact lexTokens_content content he.isReadName bracket empty hi.2.1 _ rest
    · simp only [List.length_append]
      have := List.length_pos_iff.mpr (content.ne_nil empty)
      omega

/-! The start tags of elements that hold nothing but text. -/

theorem Sound.insertTextElement_with (h : b.Sound) (hs : b.skipLineFeed = false) (tag : Tag)
    (model : ContentModel) : b.insertTextElement tag model =
      { b.insertTextElement tag model with skipLineFeed := false } := by
  rw [insertTextElement, h.insertElement_eq, ← hs]

theorem insertHeadContent_text (b : Builder) (attributes : List (String × String)) {name : String}
    (hm : textModel? name = some model) (hn : name ∈ headContentTags) :
    b.insertHeadContent ⟨name, attributes, false⟩ = b.insertTextElement ⟨name, attributes, false⟩ model := by
  have sorted : ∀ n ∈ ["script", "title", "textarea", "style", "iframe", "noembed", "noframes", "noscript"],
      n ∈ headContentTags → n ∈ ["script", "title", "style", "noframes"] := by decide
  have listed := sorted _ (mem_of_textModel? hm) hn
  simp only [List.mem_cons, List.not_mem_nil, or_false] at listed
  rcases listed with rfl | rfl | rfl | rfl <;> cases hm <;> rfl

theorem Sound.startInBody_text (h : b.Sound) (hs : b.skipLineFeed = false)
    (attributes : List (String × String)) {name : String} (hm : textModel? name = some model)
    (hn : name ∉ headContentTags) :
    ∃ allowed, ∃ skip : Bool, (skip → name = "textarea") ∧ b.startInBody ⟨name, attributes, false⟩ =
      { { b with framesetAllowed := allowed }.insertTextElement ⟨name, attributes, false⟩ model with
        skipLineFeed := skip } := by
  have none : ((false : Bool) = true → name = "textarea") := fun e => absurd e Bool.false_ne_true
  have keep := h.insertTextElement_with hs ⟨name, attributes, false⟩ model
  have forbidden : b.forbidFrameset.Sound := h.of_leads (.refl _) h.tree (Nat.le_refl _)
  have forbid := forbidden.insertTextElement_with hs ⟨name, attributes, false⟩ model
  have sorted : ∀ n ∈ ["script", "title", "textarea", "style", "iframe", "noembed", "noframes", "noscript"],
      n ∉ headContentTags → n ∈ ["textarea", "iframe", "noembed", "noscript"] := by decide
  have listed := sorted _ (mem_of_textModel? hm) hn
  simp only [List.mem_cons, List.not_mem_nil, or_false] at listed
  rcases listed with rfl | rfl | rfl | rfl <;> cases hm
  · exact ⟨false, true, fun _ => rfl, rfl⟩
  · exact ⟨_, false, none, forbid⟩
  · exact ⟨_, false, none, keep⟩
  · exact ⟨_, false, none, keep⟩

namespace At

/-- Text that the builder before a tag waits for is waited for by what stands for it. -/
theorem holdsText_of_inMode (h : s.At region around) (hr : region.isHtml) (hb : b.Stands s)
    (hm : (s.prepared (.startTag ⟨e.tag, e.attributes, false⟩)).inMode
        (.startTag ⟨e.tag, e.attributes, false⟩) =
      ((s.prepared (.startTag ⟨e.tag, e.attributes, false⟩)).insertTextElement
        ⟨e.tag, e.attributes, false⟩ model).done) :
    s.HoldsText e model (b.read (.startTag ⟨e.tag, e.attributes, false⟩)) := by
  have ready := (h.prepared (.startTag ⟨e.tag, e.attributes, false⟩)).toSound
  rw [hb.read_eq (h.steady hr) rfl hm, ready.insertTextElement_with rfl]
  exact (ready.holdsText rfl (fun e => absurd e Bool.false_ne_true) model).of_leads (.refl _) rfl

/-- The start tag of an element that holds nothing but text opens it. -/
theorem holdsText (h : s.At region around) (hb : b.Stands s) (hf : region.Fills around e (.text model)) :
    s.HoldsText e model (b.read (.startTag ⟨e.tag, e.attributes, false⟩)) := by
  have ready := h.prepared (.startTag ⟨e.tag, e.attributes, false⟩)
  cases hf with
  | noscript ht hm =>
    refine h.holdsText_of_inMode rfl hb ?_
    have model : model = .raw := by
      rw [ht] at hm
      exact (Option.some.inj hm).symm
    rw [inMode, List.mem_singleton.mp ready.mode]
    simp only [inHead, ht, model]
    rfl
  | text hm =>
    by_cases ht : e.tag ∈ headContentTags
    · refine h.holdsText_of_inMode rfl hb ?_
      rw [ready.inMode_headContent ht, insertHeadContent_text _ _ hm ht]
    · have others : ∀ n ∈ ["script", "title", "textarea", "style", "iframe", "noembed", "noframes", "noscript"],
          n ∉ tablePartTags := by decide
      have entered := h.entered.prepared (.startTag ⟨e.tag, e.attributes, false⟩)
      obtain ⟨allowed, skip, area, started⟩ := entered.toSound.startInBody_text rfl e.attributes hm ht
      rw [h.eq_of_stands hb rfl, h.read_startTag (others _ (mem_of_textModel? hm)) ht, started]
      have sound : ({ s.entered.prepared (.startTag ⟨e.tag, e.attributes, false⟩) with
        framesetAllowed := allowed } : Builder).Sound := entered.toSound.of_leads (.refl _) entered.tree (Nat.le_refl _)
      exact (sound.holdsText rfl area model).of_leads (.inr (frame_entered s)) (tree_entered s)
  | headText hn hm =>
    refine h.holdsText_of_inMode (Region.isHtml_of_mem_headContent hn) hb ?_
    rw [ready.inMode_headContent hn, insertHeadContent_text _ _ hm (Region.mem_of_mem_headContent hn)]

end At

end Builder

end LivePages
