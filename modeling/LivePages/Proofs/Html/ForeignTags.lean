import LivePages.Proofs.Html.HeadTags

namespace LivePages

theorem lowerCase_readName {name : String} (h : isNameWord name) : lowerCase (readName name) = readName name := by
  rw [isNameWord, Bool.and_eq_true, List.all_eq_true] at h
  rw [lowerCase, readName, String.toList_ofList, List.map_map]
  refine congrArg String.ofList (List.map_congr_left fun c hc => ?_)
  have stays := h.2 c hc
  rw [staysInName, Bool.and_eq_true, Bool.not_eq_true'] at stays
  exact (nameChar_spec stays.1).2

theorem lowerCase_spelling {spellings : List String} {name : String} (h : lowerCase name = name) :
    lowerCase (spelling spellings name) = name := by
  rw [spelling]
  cases hf : spellings.find? fun s => lowerCase s == name with
  | none => exact h
  | some s => exact beq_iff_eq.mp (List.find?_some (p := fun s => lowerCase s == name) hf)

namespace Element.ReadableAs

variable {e : Element} {v : Vocabulary}

/-- The name of an element is read in small letters, and written as its vocabulary spells it. -/
theorem lowerCase_tag (h : e.ReadableAs v) : lowerCase e.tag = readName e.tag := by
  have small := lowerCase_readName h.tag
  have spelled := congrArg Tag.name h.spelled
  cases v with
  | svg =>
    have name : spelling svgTagSpellings (readName e.tag) = e.tag := spelled
    exact (congrArg lowerCase name.symm).trans (lowerCase_spelling small)
  | _ =>
    have same : readName e.tag = e.tag := spelled
    rw [same] at small ⊢
    exact small

end Element.ReadableAs

namespace Builder

variable {b b₁ b₂ : Builder} {region part : Region} {around : List String} {e : Element} {tag : Tag}
  {token : Token} {v : Vocabulary}

theorem Sound.insertForeign_eq (h : b.Sound) (hn : tag.name ≠ "annotation-xml") : b.insertForeign v tag =
    { b with
      tree := b.tree.plant b.here (.element ⟨tag.name, tag.attributes⟩)
      openElements := b.opening v tag :: b.openElements } := by
  have holds : (v == .mathml && tag.name == "annotation-xml") = false := by
    rw [beq_eq_false_iff_ne.mpr hn, Bool.and_false]
  rw [insertForeign, insertForeignClosed, h.place_eq, createFor]
  simp only [holds, Bool.false_and]
  rfl

/-- A start tag that a vocabulary spells as the element is written opens it. -/
theorem Sound.startForeign_eq (h : b.Sound) (he : e.ReadableAs v) (hn : e.tag ≠ "annotation-xml") :
    b.startForeign v e.readTag =
      { b with
        tree := b.tree.plant b.here (.element e)
        openElements := b.opening v ⟨e.tag, e.attributes, false⟩ :: b.openElements } := by
  have spelled := he.spelled
  have started : b.startForeign v e.readTag = b.insertForeign v (v.adjust e.readTag) := by
    cases v <;> rfl
  rw [started, spelled, h.insertForeign_eq hn]

theorem At.foreign_current (h : b.At region around) (hr : region.isHtml = false) :
    ∃ o os, b.openElements = o :: os ∧ os ≠ [] ∧ o.vocabulary ≠ .html := by
  have among := h.among
  cases region with
  | foreign v =>
    obtain ⟨o, os, ho, hos, rfl, hv, -⟩ := among
    exact ⟨o, os, ho, hos, hv⟩
  | label =>
    obtain ⟨o, os, ho, hos, hl⟩ := among
    refine ⟨o, os, ho, hos, fun hv => ?_⟩
    rw [hv] at hl
    cases hl
  | _ => cases hr

/-- A token that is read in the same way in all foreign elements. -/
theorem At.isForeign (h : b.At region around) (hr : region.isHtml = false)
    (ht : (∃ tag, token = .endTag tag) ∨ ∃ content, token = .comment content) : b.isForeign token := by
  obtain ⟨o, os, ho, -, hv⟩ := h.foreign_current hr
  rw [Builder.isForeign, ho]
  dsimp only
  rw [beq_eq_false_iff_ne.mpr hv, if_neg Bool.false_ne_true]
  rcases ht with ⟨tag, rfl⟩ | ⟨content, rfl⟩ <;> rfl

/-- The end tag of a foreign element closes it. -/
theorem At.inForeign_endTag (h : b.At region (e.tag :: around)) (hr : region.isHtml = false)
    (hl : lowerCase e.tag = readName e.tag) (hb : readName e.tag ∉ foreignBreakerTags) :
    b.inForeign (.endTag ⟨readName e.tag, [], false⟩) = ({ b with openElements := b.openElements.tail } : Builder).done := by
  obtain ⟨o, os, ho, hos, -⟩ := h.foreign_current hr
  have named : lowerCase o.name = readName e.tag := by
    have names := h.names
    rw [ho, List.map_cons] at names
    rw [(List.cons.inj names).1, hl]
  have other {n : String} (hn : n ∈ foreignBreakerTags) : readName e.tag ≠ n := fun e' => hb (e' ▸ hn)
  obtain ⟨o', os, rfl⟩ := List.exists_cons_of_ne_nil hos
  simp only [inForeign, decide_eq_false (other (n := "br") (by decide)),
    decide_eq_false (other (n := "p") (by decide)), Bool.or_self, Bool.false_eq_true, if_false]
  rw [ho, List.tail_cons]
  simp only [endForeign, named, Bool.not_true, Bool.false_and, Bool.false_eq_true, if_false, beq_self_eq_true,
    if_true]

/-- A foreign element is closed by its end tag. -/
theorem Opened.holds_foreign (ho : b.Opened v ⟨e.tag, e.attributes, false⟩ b₁)
    (hb : b₁.At part (e.tag :: around)) (hp : part.isHtml = false) (hs : b₁.skipLineFeed = false)
    (hl : lowerCase e.tag = readName e.tag) (hn : readName e.tag ∉ foreignBreakerTags)
    (hf : b₁.frame = { b.frame with openElements := b.opening v ⟨e.tag, e.attributes, false⟩ :: b.openElements })
    (hm : b.mode ≠ .inTemplate) : b.Holds around e part b₁ := by
  refine ho.holds hb (fun e => absurd (hs.symm.trans e) Bool.false_ne_true) fun b₂ s₂ stands leads reader => ?_
  have mode : b₁.frame.mode ≠ .inTemplate := by rw [hf]; exact hm
  have frame := (leads.eq mode).trans hf
  have plain : part.isTable = false := by
    cases part with
    | foreign => rfl
    | label => rfl
    | _ => cases hp
  rw [reader.eq_of_stands stands plain]
  refine read_eq_of_inForeign (reader.isForeign hp (.inl ⟨_, rfl⟩)) (fun _ => rfl) ?_
  have opened : (s₂.prepared (.endTag ⟨readName e.tag, [], false⟩)).openElements.tail = b.openElements :=
    congrArg (List.tail ∘ Frame.openElements) frame
  have mode₂ : (s₂.prepared (.endTag ⟨readName e.tag, [], false⟩)).mode = b.mode := congrArg Frame.mode frame
  have formatting : (s₂.prepared (.endTag ⟨readName e.tag, [], false⟩)).formatting = b.formatting :=
    congrArg Frame.formatting frame
  have form : (s₂.prepared (.endTag ⟨readName e.tag, [], false⟩)).form = b.form := congrArg Frame.form frame
  have modes : (s₂.prepared (.endTag ⟨readName e.tag, [], false⟩)).templateModes = b.templateModes :=
    congrArg Frame.templateModes frame
  rw [(reader.prepared _).inForeign_endTag hp hl hn, closedTo, opened, ← mode₂, ← formatting, ← form, ← modes]

namespace At

theorem holds_startForeign (h : b.At region around) (hr : region ≠ .choices) (hm : b.mode ∈ foreignModes)
    (hs : b.skipLineFeed = false) (he : e.ReadableAs v) (hv : v ≠ .html)
    (hb : readName e.tag ∉ foreignBreakerTags) (ha : readName e.tag ≠ "annotation-xml") (hp : part.isHtml = false)
    (hl : part = if Region.isLabel e.tag v then .label else .foreign v) :
    b.Holds around e part (b.startForeign v e.readTag) := by
  have named : e.tag ≠ "annotation-xml" := by
    rintro hn
    rw [hn] at ha
    exact ha (by decide)
  have outside : b.mode ≠ .inTemplate := by
    intro e'
    rw [e'] at hm
    exact absurd hm (by decide)
  have opens : b.Opened v ⟨e.tag, e.attributes, false⟩ (b.startForeign v e.readTag) := by
    rw [h.startForeign_eq he named]
    refine ⟨rfl, rfl, rfl, rfl, .inl rfl, .inr ⟨?_, .inl rfl⟩⟩
    rw [OpenElement.isHtmlIn, opening, beq_eq_false_iff_ne.mpr hv, Bool.false_and]
  have among : part.Among (b.opening v ⟨e.tag, e.attributes, false⟩ :: b.openElements) := by
    rw [hl]
    split
    next label => exact ⟨_, _, rfl, h.inside, label⟩
    next label => exact ⟨_, _, rfl, h.inside, rfl, hv, Bool.not_eq_true _ ▸ label, named, rfl⟩
  have modes : part.modes = foreignModes := by
    rw [hl]
    split <;> rfl
  have inside : part.isIn (e.tag :: around) := by
    rw [hl]
    split <;> rfl
  rw [h.startForeign_eq he named] at opens ⊢
  refine opens.holds_foreign (opens.reader h (modes ▸ hm) among inside (fun e' => absurd e' outside) fun _ b' hb' => ?_)
    hp hs he.lowerCase_tag hb rfl outside
  have other : (b.opening v ⟨e.tag, e.attributes, false⟩).vocabulary ≠ .html := hv
  rw [opens.openElements, modeFor_other (.inl other)]
  exact h.resets hr b' hb'

/-- The start tag in the flow of a page with which foreign content begins. -/
theorem holds_root (h : b.At .flow around) (he : e.ReadableAs v)
    (hv : v = .svg ∧ e.tag = "svg" ∨ v = .mathml ∧ e.tag = "math") :
    b.Holds around e (.foreign v) (b.read (.startTag e.readTag)) := by
  have ready := h.entered.prepared (.startTag e.readTag)
  have named : v ≠ .html ∧ e.tag ∈ ["svg", "math"] ∧ Region.isLabel e.tag v = false := by
    rcases hv with ⟨rfl, ht⟩ | ⟨rfl, ht⟩ <;> rw [ht] <;> decide
  obtain ⟨foreign, listed, label⟩ := named
  have others : ∀ n ∈ ["svg", "math"], readName n ∉ tablePartTags ∧ readName n ∉ headContentTags ∧
      readName n ∉ foreignBreakerTags ∧ readName n ≠ "annotation-xml" := by decide
  obtain ⟨hp, hh, hb, ha⟩ := others _ listed
  have started : (b.entered.prepared (.startTag e.readTag)).startInBody e.readTag =
      (b.entered.prepared (.startTag e.readTag)).startForeign v e.readTag := by
    have root : (b.entered.prepared (.startTag e.readTag)).startInBody e.readTag =
        (b.entered.prepared (.startTag e.readTag)).reconstruct.startForeign v e.readTag := by
      rcases hv with ⟨rfl, ht⟩ | ⟨rfl, ht⟩ <;> rw [Element.readTag, ht] <;> rfl
    rw [root, ready.reconstruct_eq]
  have mode : (b.entered.prepared (.startTag e.readTag)).mode ∈ foreignModes := by
    have sorted : ∀ m ∈ Region.flow.modes, m ≠ .inTemplate → m ∈ foreignModes := by decide
    exact sorted _ ready.mode (mode_entered b _)
  rw [h.read_startTag hp hh, started]
  refine (ready.holds_startForeign (by decide) mode rfl he foreign hb ha rfl ?_).of_entered _
  rw [label, if_neg Bool.false_ne_true]

/-- A foreign element in another one. -/
theorem holds_child (h : b.At (.foreign v) around) (he : e.ReadableAs v) (hb : readName e.tag ∉ foreignBreakerTags)
    (hf : readName e.tag ≠ "font") (ha : readName e.tag ≠ "annotation-xml") (hp : part.isHtml = false)
    (hl : part = if Region.isLabel e.tag v then .label else .foreign v) :
    b.Holds around e part (b.read (.startTag e.readTag)) := by
  have ready := h.prepared (.startTag e.readTag)
  obtain ⟨o, os, ho, hos, rfl, hv, label, annotation, holds⟩ := h.among
  have foreign : b.isForeign (.startTag e.readTag) := by
    rw [Builder.isForeign, ho]
    dsimp only
    rw [Region.isLabel_eq, Bool.or_eq_false_iff] at label
    simp [hv, label.1, label.2, annotation, holds]
  have started : (b.prepared (.startTag e.readTag)).inForeign (.startTag e.readTag) =
      ((b.prepared (.startTag e.readTag)).startForeign o.vocabulary e.readTag).done := by
    have opened : (b.prepared (.startTag e.readTag)).openElements = o :: os := ho
    have breaker : foreignBreakerTags.contains e.readTag.name = false := by simpa [Element.readTag] using hb
    have font : (e.readTag.name == "font") = false := beq_eq_false_iff_ne.mpr hf
    simp only [inForeign, breaker, font, Bool.false_and, Bool.or_self, Bool.false_eq_true, if_false]
    rw [opened]
  rw [read_eq_of_inForeign foreign (fun _ => rfl) started]
  exact (ready.holds_startForeign (by simp) h.mode rfl he hv hb ha hp hl).of_leads (.refl _) rfl

end At

end Builder

end LivePages
