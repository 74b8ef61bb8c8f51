import LivePages.Proofs.Html.ElementNames

namespace LivePages

variable {P : String → Prop} {last : String} (own : ∀ name ∈ ownNames, P name)

namespace Builder

variable {b : Builder} {tag : Tag} {token : Token}

@[grind =] theorem done_fst (b : Builder) : b.done.1 = b := rfl

@[grind =] theorem againIn_fst (b : Builder) (mode : InsertionMode) :
    (b.againIn mode).1 = b.withMode mode :=
  rfl

namespace Named

/-! The head and what is before it. -/

theorem inHead (h : b.Named P last) (ht : token.Named P last) : (b.inHead token).1.Named P last := by
  cases token with
  | startTag tag =>
    obtain ⟨ht, hl⟩ := ht
    have noscript (hn : tag.name = "noscript") : last ∈ textTags := hl ▸ hn ▸ by decide
    rw [Builder.inHead]
    grind [Builder.leaveHead]
  | endTag tag =>
    rw [Builder.inHead]
    grind [Builder.leaveHead]
  | space run => exact h.insertText run
  | comment content => exact h.insertComment content
  | doctype d => exact h
  | _ => exact h.pop.withMode _

theorem initial (h : b.Named P last) (token : Token) : (b.initial token).1.Named P last := by
  cases token with
  | doctype d =>
    have made : (b.tree.create (.doctype (d.name.getD "") (d.publicId.getD "") (d.systemId.getD ""))).1.Named
        P := h.elements.create nofun
    have placed := made.congr (Tree.data?_appendChild _ Tree.root b.tree.size)
    exact ⟨placed, h.2, h.3, h.4, h.5⟩
  | space run => exact h
  | comment content => exact h.appendComment _ content
  | _ => exact ⟨h.1, h.2, h.3, h.4, h.5⟩

theorem insertRoot (h : b.Named P last) (ht : P tag.name) : (b.insertRoot tag).Named P last :=
  ((h.createFor .html ht).of_data (Tree.data?_appendChild ..)).push _

theorem insertHead (h : b.Named P last) (ht : P tag.name) : (b.insertHead tag).Named P last :=
  have h := h.insertElement ht
  ⟨h.1, h.2, h.3, h.4, h.5⟩

@[grind ←] theorem insertLateHeadContent (h : b.Named P last) (ht : P tag.name)
    (hl : tag.name = last) : (b.insertLateHeadContent tag).Named P last := by
  rw [Builder.insertLateHeadContent]
  grind

include own

theorem beforeHtml (h : b.Named P last) (ht : token.Named P last) : (b.beforeHtml token).1.Named P last := by
  have root : (b.insertRoot (.bare "html")).Named P last := h.insertRoot (own _ (by decide))
  cases token with
  | startTag tag =>
    have given : (b.insertRoot tag).Named P last := h.insertRoot ht.1
    rw [Builder.beforeHtml]
    grind
  | endTag tag =>
    rw [Builder.beforeHtml]
    grind
  | space run => exact h
  | comment content => exact h.appendComment _ content
  | doctype d => exact h
  | _ => exact root.withMode _

theorem beforeHead (h : b.Named P last) (ht : token.Named P last) : (b.beforeHead token).1.Named P last := by
  have head : (b.insertHead (.bare "head")).Named P last := h.insertHead (own _ (by decide))
  cases token with
  | startTag tag =>
    have given : (b.insertHead tag).Named P last := h.insertHead ht.1
    rw [Builder.beforeHead]
    grind
  | endTag tag =>
    rw [Builder.beforeHead]
    grind
  | space run => exact h
  | comment content => exact h.insertComment content
  | doctype d => exact h
  | _ => exact head.withMode _

theorem afterHead (h : b.Named P last) (ht : token.Named P last) : (b.afterHead token).1.Named P last := by
  have body : (b.insertElement (.bare "body")).Named P last := h.insertElement (own _ (by decide))
  cases token with
  | startTag tag =>
    obtain ⟨ht, hl⟩ := ht
    rw [Builder.afterHead]
    grind
  | endTag tag =>
    rw [Builder.afterHead]
    grind
  | space run => exact h.insertText run
  | comment content => exact h.insertComment content
  | doctype d => exact h
  | _ => exact body.withMode _

omit own

/-! The body. -/

@[grind ←] theorem closeScoped (h : b.Named P last) (name : String) : (b.closeScoped name).Named P last := by
  rw [Builder.closeScoped]
  grind

@[grind ←] theorem closeItem (h : b.Named P last) (names : List String) : (b.closeItem names).Named P last := by
  rw [Builder.closeItem]
  grind

@[grind ←] theorem startItem (h : b.Named P last) (ht : P tag.name) (names : List String) :
    (b.startItem tag names).Named P last :=
  ((h.forbidFrameset.closeItem names).closeParagraphInScope).insertElement ht

@[grind ←] theorem startHeading (h : b.Named P last) (ht : P tag.name) : (b.startHeading tag).Named P last := by
  rw [Builder.startHeading]
  grind

@[grind ←] theorem startForm (h : b.Named P last) (ht : P tag.name) : (b.startForm tag).Named P last := by
  have h' := h.closeParagraphInScope.insertElement ht
  rw [Builder.startForm]
  split
  · exact h
  · dsimp only
    split
    · exact h'
    · exact ⟨h'.1, h'.2, h'.3, h'.4, h'.5⟩

@[grind ←] theorem endForm (h : b.Named P last) : b.endForm.Named P last := by
  have h' : { b with form := none }.Named P last := ⟨h.1, h.2, h.3, h.4, h.5⟩
  rw [Builder.endForm]
  grind

@[grind ←] theorem startBody (h : b.Named P last) (tag : Tag) : (b.startBody tag).Named P last := by
  rw [Builder.startBody]
  grind

@[grind ←] theorem startFrameset (h : b.Named P last) (ht : P tag.name) : (b.startFrameset tag).Named P last := by
  rw [Builder.startFrameset]
  split
  next body _ =>
    have h' := h.of_data (Tree.data?_detach b.tree body.node)
    have h' : { b with
        tree := b.tree.detach body.node
        openElements := b.openElements.getLast?.toList }.Named P last := ⟨h'.1, h'.2, h'.3, h'.4, h'.5⟩
    grind
  next => exact h

@[grind ←] theorem startPreformatted (h : b.Named P last) (ht : P tag.name) :
    (b.startPreformatted tag).Named P last :=
  have h := h.closeParagraphInScope.insertElement ht
  ⟨h.1, h.2, h.3, h.4, h.5⟩

@[grind ←] theorem startTable (h : b.Named P last) (ht : P tag.name) : (b.startTable tag).Named P last := by
  rw [Builder.startTable]
  grind

@[grind ←] theorem startNobr (h : b.Named P last) (ht : P tag.name) : (b.startNobr tag).Named P last := by
  rw [Builder.startNobr]
  grind

@[grind ←] theorem startSelect (h : b.Named P last) (ht : P tag.name) : (b.startSelect tag).Named P last :=
  (h.reconstruct.insertElement ht).forbidFrameset.withMode _

@[grind ←] theorem startInput (h : b.Named P last) (ht : P tag.name) : (b.startInput tag).Named P last := by
  rw [Builder.startInput]
  grind

@[grind ←] theorem startRule (h : b.Named P last) (ht : P tag.name) : (b.startRule tag).Named P last :=
  (h.closeParagraphInScope.insertVoid ht).forbidFrameset

@[grind ←] theorem popCurrent (h : b.Named P last) (name : String) : (b.popCurrent name).Named P last := by
  rw [Builder.popCurrent]
  grind

@[grind ←] theorem startOption (h : b.Named P last) (ht : P tag.name) : (b.startOption tag).Named P last :=
  (h.popCurrent "option").reconstruct.insertElement ht

@[grind ←] theorem startRuby (h : b.Named P last) (ht : P tag.name) (kept : String) :
    (b.startRuby tag kept).Named P last := by
  rw [Builder.startRuby]
  grind

@[grind ←] theorem insertVisibleVoid (h : b.Named P last) (ht : P tag.name) :
    (b.insertVisibleVoid tag).Named P last :=
  (h.reconstruct.insertVoid ht).forbidFrameset

include own

theorem spelled {name : String} (h : P name) : P (spelling svgTagSpellings name) := by
  rw [spelling]
  cases hf : svgTagSpellings.find? fun s => lowerCase s == name with
  | none => exact h
  | some s => exact own s (List.mem_append_right _ (List.mem_of_find?_eq_some hf))

theorem startForeign (h : b.Named P last) (ht : P tag.name) (vocabulary : Vocabulary) :
    (b.startForeign vocabulary tag).Named P last := by
  have adjusted : P (adjustSvg tag).name := spelled own ht
  unfold Builder.startForeign
  cases vocabulary with
  | svg =>
    dsimp only
    split
    · exact h.insertForeignClosed _ adjusted
    · exact h.insertForeign _ adjusted
  | _ =>
    dsimp only
    split
    · exact h.insertForeignClosed _ ht
    · exact h.insertForeign _ ht

theorem startInBody (h : b.Named P last) (ht : P tag.name) (hl : tag.name = last) :
    (b.startInBody tag).Named P last := by
  have text {name : String} (hn : tag.name = name) (hm : name ∈ textTags) : last ∈ textTags :=
    hl ▸ hn ▸ hm
  have math := h.reconstruct.startForeign own ht .mathml
  have svg := h.reconstruct.startForeign own ht .svg
  have img : P ({ tag with name := "img" } : Tag).name := own "img" (by decide)
  have plaintext := h.closeParagraphInScope.insertElement ht
  have textarea (hm : last ∈ textTags) := h.forbidFrameset.insertTextElement ht hm .escapable
  rw [Builder.startInBody]
  dsimp only
  iterate 4
    split
    · grind
  have marked := (h.reconstruct.insertElement ht).markFormatting.forbidFrameset
  have other := h.reconstruct.insertElement ht
  split
  all_goals with_reducible first
    | exact marked
    | exact math
    | exact svg
    | exact ⟨plaintext.1, plaintext.2, plaintext.3, plaintext.4, .inr (.inr rfl)⟩
    | have h := textarea (text ‹_› (by decide)); exact ⟨h.1, h.2, h.3, h.4, h.5⟩
    | exact h.mergeRoot _
    | exact h.startBody _
    | exact h.startFrameset ht
    | exact h.startPreformatted ht
    | exact h.startForm ht
    | exact h.startItem ht _
    | exact ((h.closeScoped _).reconstruct.insertElement ht).forbidFrameset
    | exact h.endOpenLink.reconstruct.insertFormatting ht
    | exact h.startNobr ht
    | exact h.startTable ht
    | exact h.insertVisibleVoid ht
    | exact h.insertVisibleVoid img
    | exact h.startInput ht
    | exact h.insertVoid ht
    | exact h.startRule ht
    | exact h.closeParagraphInScope.reconstruct.forbidFrameset.insertTextElement ht (text ‹_› (by decide)) _
    | exact h.forbidFrameset.insertTextElement ht (text ‹_› (by decide)) _
    | exact h.insertTextElement ht (text ‹_› (by decide)) _
    | exact h.startSelect ht
    | exact h.startOption ht
    | exact h.startRuby ht _
    | skip
  split
  · exact h
  · exact other

omit own

@[grind ←] theorem endHeading (h : b.Named P last) : b.endHeading.Named P last := by
  rw [Builder.endHeading]
  grind

@[grind ←] theorem endItem (h : b.Named P last) (name : String) (boundary : OpenElement → Bool) :
    (b.endItem name boundary).Named P last := by
  rw [Builder.endItem]
  grind

@[grind ←] theorem endOfTemplates (h : b.Named P last) : b.endOfTemplates.1.Named P last := by
  rw [Builder.endOfTemplates]
  grind

include own

theorem endParagraph (h : b.Named P last) : b.endParagraph.Named P last := by
  have made : (b.insertElement (.bare "p")).Named P last := h.insertElement (own _ (by decide))
  rw [Builder.endParagraph]
  grind

theorem endInBody (h : b.Named P last) (tag : Tag) : (b.endInBody tag).Named P last := by
  have paragraph := h.endParagraph own
  have lineBreak : (b.insertVisibleVoid (.bare "br")).Named P last := h.insertVisibleVoid (own _ (by decide))
  rw [Builder.endInBody]
  grind

theorem inBody (h : b.Named P last) (ht : token.Named P last) : (b.inBody token).1.Named P last := by
  cases token with
  | space run => exact h.reconstruct.insertText run
  | text run => exact h.reconstruct.forbidFrameset.insertText run
  | null => exact h
  | comment content => exact h.insertComment content
  | doctype d => exact h
  | startTag tag => exact h.startInBody own ht.1 ht.2
  | endTag tag =>
    have closed := h.endInBody own tag
    rw [Builder.inBody]
    grind
  | endOfFile =>
    rw [Builder.inBody]
    grind

theorem fosterInBody (h : b.Named P last) (ht : token.Named P last) : (b.fosterInBody token).1.Named P last :=
  have h : { b with fostering := true }.Named P last := ⟨h.1, h.2, h.3, h.4, h.5⟩
  have h := h.inBody own ht
  ⟨h.1, h.2, h.3, h.4, h.5⟩

/-! Tables. -/

omit own in
@[grind ←] theorem clearTo (h : b.Named P last) (names : List String) : (b.clearTo names).Named P last :=
  h.popWhile _

omit own in
@[grind ←] theorem endTable (h : b.Named P last) : b.endTable.Named P last := (h.popThroughHtml "table").resetMode

theorem tableCharacters (h : b.Named P last) (ht : token.Named P last) : (b.tableCharacters token).1.Named P last := by
  rw [Builder.tableCharacters]
  split
  · exact ⟨h.1, h.2, fun _ hm => absurd hm List.not_mem_nil, h.4, h.5⟩
  · exact h.fosterInBody own ht

theorem inTable (h : b.Named P last) (ht : token.Named P last) : (b.inTable token).1.Named P last := by
  have body := h.fosterInBody own ht
  cases token with
  | space run => exact h.tableCharacters own ht
  | text run => exact h.tableCharacters own ht
  | null => exact h.tableCharacters own ht
  | comment content => exact h.insertComment content
  | doctype d => exact h
  | startTag tag =>
    obtain ⟨ht, hl⟩ := ht
    have group : (b.clearToTable.insertElement (.bare "colgroup")).Named P last :=
      (h.clearTo _).insertElement (own _ (by decide))
    have bodyPart : (b.clearToTable.insertElement (.bare "tbody")).Named P last :=
      (h.clearTo _).insertElement (own _ (by decide))
    have part : (b.clearToTable.insertElement tag).Named P last := (h.clearTo _).insertElement ht
    have caption : (b.clearToTable.markFormatting.insertElement tag).Named P last :=
      (h.clearTo _).markFormatting.insertElement ht
    have form := h.insertForeignClosed .html ht
    have form : { (b.insertForeignClosed .html tag).1 with
        form := some (b.insertForeignClosed .html tag).2.node }.Named P last := ⟨form.1, form.2, form.3, form.4, form.5⟩
    rw [Builder.inTable]
    grind
  | endTag tag =>
    rw [Builder.inTable]
    grind
  | endOfFile => exact h.inBody own ht

theorem placeTableText (h : b.Named P last) : b.placeTableText.Named P last := by
  have pending : ∀ token ∈ b.tableText.reverse, token.Named P last := fun token hm =>
    .of_ne (h.pending token (List.mem_reverse.mp hm))
  rw [Builder.placeTableText]
  generalize b.tableText.reverse = tokens at pending
  generalize List.any tokens _ = visible
  have h : { b with tableText := [], mode := b.returnMode }.Named P last :=
    ⟨h.1, h.2, fun _ hm => absurd hm List.not_mem_nil, h.4, h.5⟩
  generalize ({ b with tableText := [], mode := b.returnMode } : Builder) = b at h
  induction tokens generalizing b with
  | nil => exact h
  | cons token tokens ih =>
    rw [List.forall_mem_cons] at pending
    have body := h.fosterInBody own pending.1
    rw [List.foldl_cons]
    refine ih pending.2 _ ?_
    split
    · exact body
    · split
      · exact h.insertText _
      · exact h

theorem inTableText (h : b.Named P last) (ht : token.Named P last) : (b.inTableText token).1.Named P last := by
  have more (hn : ∀ tag, token ≠ .startTag tag) : { b with tableText := token :: b.tableText }.Named P last :=
    ⟨h.1, h.2, List.forall_mem_cons.mpr ⟨hn, h.3⟩, h.4, h.5⟩
  cases token with
  | space run => exact more nofun
  | text run => exact more nofun
  | null => exact h
  | doctype d => exact h
  | _ => exact h.placeTableText own

omit own in
@[grind ←] theorem endCaption (h : b.Named P last) : b.endCaption.Named P last :=
  ((h.closeImplied.popThroughHtml "caption").clearFormatting).withMode _

theorem inCaption (h : b.Named P last) (ht : token.Named P last) : (b.inCaption token).1.Named P last := by
  have body := h.inBody own ht
  rw [Builder.inCaption.eq_def]
  grind

omit own in
@[grind ←] theorem leaveColumnGroup (h : b.Named P last) : b.leaveColumnGroup.1.Named P last := by
  rw [Builder.leaveColumnGroup]
  grind

theorem inColumnGroup (h : b.Named P last) (ht : token.Named P last) : (b.inColumnGroup token).1.Named P last := by
  have body := h.inBody own ht
  cases token with
  | startTag tag =>
    obtain ⟨ht, hl⟩ := ht
    rw [Builder.inColumnGroup]
    grind
  | _ =>
    rw [Builder.inColumnGroup.eq_def]
    grind

omit own in
@[grind ←] theorem leaveSection (h : b.Named P last) : b.leaveSection.1.Named P last := by
  rw [Builder.leaveSection, clearToSection]
  grind

theorem inTableBody (h : b.Named P last) (ht : token.Named P last) : (b.inTableBody token).1.Named P last := by
  have table := h.inTable own ht
  cases token with
  | startTag tag =>
    obtain ⟨ht, hl⟩ := ht
    have row : (b.clearToSection.insertElement (.bare "tr")).Named P last :=
      (h.clearTo _).insertElement (own _ (by decide))
    have part : (b.clearToSection.insertElement tag).Named P last := (h.clearTo _).insertElement ht
    rw [Builder.inTableBody]
    grind
  | endTag tag =>
    have left : b.clearToSection.pop.Named P last := (h.clearTo _).pop
    rw [Builder.inTableBody]
    grind
  | _ => exact table

omit own in
@[grind ←] theorem leaveRow (h : b.Named P last) : b.leaveRow.1.Named P last := by
  rw [Builder.leaveRow, clearToRow]
  grind

theorem inRow (h : b.Named P last) (ht : token.Named P last) : (b.inRow token).1.Named P last := by
  have table := h.inTable own ht
  cases token with
  | startTag tag =>
    obtain ⟨ht, hl⟩ := ht
    have part : (b.clearToRow.insertElement tag).Named P last := (h.clearTo _).insertElement ht
    rw [Builder.inRow]
    grind
  | endTag tag =>
    have left : b.clearToRow.pop.Named P last := (h.clearTo _).pop
    rw [Builder.inRow]
    grind
  | _ => exact table

omit own in
@[grind ←] theorem closeCell (h : b.Named P last) : b.closeCell.Named P last :=
  ((h.closeImplied.popThrough _).clearFormatting).withMode _

theorem inCell (h : b.Named P last) (ht : token.Named P last) : (b.inCell token).1.Named P last := by
  have body := h.inBody own ht
  rw [Builder.inCell.eq_def]
  grind

omit own in
@[grind ←] theorem closeSelect (h : b.Named P last) : b.closeSelect.Named P last :=
  (h.popThroughHtml "select").resetMode

omit own in
@[grind ←] theorem endOptionGroup (h : b.Named P last) : b.endOptionGroup.Named P last := by
  rw [Builder.endOptionGroup]
  grind

theorem inSelect (h : b.Named P last) (ht : token.Named P last) : (b.inSelect token).1.Named P last := by
  have body := h.inBody own ht
  cases token with
  | startTag tag =>
    obtain ⟨ht, hl⟩ := ht
    rw [Builder.inSelect]
    grind
  | _ =>
    rw [Builder.inSelect.eq_def]
    grind

theorem inSelectInTable (h : b.Named P last) (ht : token.Named P last) :
    (b.inSelectInTable token).1.Named P last := by
  have select := h.inSelect own ht
  rw [Builder.inSelectInTable.eq_def]
  grind

/-! The rest of the page. -/

omit own in
theorem inText (h : b.Named P last) (token : Token) : (b.inText token).1.Named P last := by
  have left : { b.pop with content := .markup }.Named P last := ⟨h.1, h.2, h.3, h.4, .inr (.inl rfl)⟩
  rw [Builder.inText.eq_def]
  grind

omit own in
@[grind ←] theorem templateAs (h : b.Named P last) (mode : InsertionMode) : (b.templateAs mode).1.Named P last :=
  ⟨h.1, h.2, h.3, h.4, h.5⟩

theorem inTemplate (h : b.Named P last) (ht : token.Named P last) : (b.inTemplate token).1.Named P last := by
  have body := h.inBody own ht
  cases token with
  | startTag tag =>
    obtain ⟨ht, hl⟩ := ht
    rw [Builder.inTemplate]
    grind
  | _ =>
    rw [Builder.inTemplate.eq_def]
    grind

theorem afterBody (h : b.Named P last) (ht : token.Named P last) : (b.afterBody token).1.Named P last := by
  have body := h.inBody own ht
  rw [Builder.afterBody.eq_def]
  grind

theorem afterAfterBody (h : b.Named P last) (ht : token.Named P last) : (b.afterAfterBody token).1.Named P last := by
  have body := h.inBody own ht
  rw [Builder.afterAfterBody.eq_def]
  grind

omit own in
theorem inFrameset (h : b.Named P last) (ht : token.Named P last) : (b.inFrameset token).1.Named P last := by
  cases token with
  | startTag tag =>
    obtain ⟨ht, hl⟩ := ht
    rw [Builder.inFrameset]
    grind
  | _ =>
    rw [Builder.inFrameset.eq_def]
    grind

omit own in
theorem afterFrameset (h : b.Named P last) (ht : token.Named P last) : (b.afterFrameset token).1.Named P last := by
  cases token with
  | startTag tag =>
    obtain ⟨ht, hl⟩ := ht
    rw [Builder.afterFrameset]
    grind
  | _ =>
    rw [Builder.afterFrameset.eq_def]
    grind

theorem afterAfterFrameset (h : b.Named P last) (ht : token.Named P last) :
    (b.afterAfterFrameset token).1.Named P last := by
  have body := h.inBody own ht
  cases token with
  | startTag tag =>
    obtain ⟨ht, hl⟩ := ht
    rw [Builder.afterAfterFrameset]
    grind
  | _ =>
    rw [Builder.afterAfterFrameset.eq_def]
    grind

theorem inMode (h : b.Named P last) (ht : token.Named P last) : (b.inMode token).1.Named P last := by
  rw [Builder.inMode]
  split
  · exact h.initial token
  · exact h.beforeHtml own ht
  · exact h.beforeHead own ht
  · exact h.inHead ht
  · exact h.afterHead own ht
  · exact h.inBody own ht
  · exact h.inText token
  · exact h.inTable own ht
  · exact h.inTableText own ht
  · exact h.inCaption own ht
  · exact h.inColumnGroup own ht
  · exact h.inTableBody own ht
  · exact h.inRow own ht
  · exact h.inCell own ht
  · exact h.inSelect own ht
  · exact h.inSelectInTable own ht
  · exact h.inTemplate own ht
  · exact h.afterBody own ht
  · exact h.inFrameset ht
  · exact h.afterFrameset ht
  · exact h.afterAfterBody own ht
  · exact h.afterAfterFrameset own ht

theorem breakForeign (h : b.Named P last) (ht : token.Named P last) : (b.breakForeign token).1.Named P last :=
  (h.popWhile _).inMode own ht

theorem endForeign (h : b.Named P last) (ht : token.Named P last) (name : String) (es : List OpenElement)
    (innermost : Bool) : (b.endForeign token name es innermost).1.Named P last := by
  have mode := h.inMode own ht
  induction es generalizing innermost with
  | nil => exact h
  | cons e es ih =>
    cases es with
    | nil => exact h
    | cons e' es =>
      have left : { b with openElements := e' :: es }.Named P last := ⟨h.1, h.2, h.3, h.4, h.5⟩
      rw [Builder.endForeign]
      · split
        · exact mode
        · split
          · exact left
          · exact ih false
      · exact nofun

theorem inForeign (h : b.Named P last) (ht : token.Named P last) : (b.inForeign token).1.Named P last := by
  have broken := h.breakForeign own ht
  cases token with
  | startTag tag =>
    rw [Builder.inForeign]
    split
    · exact broken
    · split
      · exact h
      · exact h.startForeign own ht.1 _
  | endTag tag =>
    have ended := h.endForeign own ht tag.name b.openElements true
    rw [Builder.inForeign]
    grind
  | _ =>
    rw [Builder.inForeign.eq_def]
    grind

theorem settleToken (h : b.Named P last) (ht : token.Named P last) (bound : Nat) :
    (Builder.settleToken bound b token).Named P last := by
  induction bound generalizing b with
  | zero => exact h
  | succ bound ih =>
    have foreignElement := h.inForeign own ht
    have mode := h.inMode own ht
    rw [Builder.settleToken]
    grind

omit own in
theorem named_of_dropLineFeed {token' : Token} (ht : token.Named P last)
    (hd : dropLineFeed token = some token') : token'.Named P last := by
  rw [dropLineFeed.eq_def] at hd
  grind [Token.Named]

/-- After a start tag, which is read as markup, the last start tag is that one. -/
theorem read (h : b.Named P b.lastStartTag)
    (ht : ∀ tag, token = .startTag tag → P tag.name ∧ b.content = .markup) :
    (b.read token).Named P (b.read token).lastStartTag := by
  have dropped {last : String} {token : Token} (ht : token.Named P last) (token' : Token)
      (he : (if b.skipLineFeed then dropLineFeed token else some token) = some token') :
      token'.Named P last := by
    split at he
    · exact named_of_dropLineFeed ht he
    · exact Option.some.inj he ▸ ht
  have named : ∃ last, (b.read token).Named P last := by
    cases token with
    | startTag tag =>
      obtain ⟨ht, hc⟩ := ht tag rfl
      have started : ({ b with skipLineFeed := false, lastStartTag := tag.name } : Builder).Named P tag.name :=
        ⟨h.1, h.2, h.3, rfl, .inr (.inl hc)⟩
      refine ⟨tag.name, ?_⟩
      simp only [Builder.read]
      split
      next token' he =>
        refine Named.settleToken own started (dropped ?_ token' he) _
        exact ⟨ht, rfl⟩
      next => exact started
    | _ =>
      have awake : ({ b with skipLineFeed := false } : Builder).Named P b.lastStartTag :=
        ⟨h.1, h.2, h.3, h.4, h.5⟩
      refine ⟨b.lastStartTag, ?_⟩
      simp only [Builder.read]
      split
      next token' he =>
        refine Named.settleToken own awake (dropped ?_ token' he) _
        exact trivial
      next => exact awake
  obtain ⟨last, named⟩ := named
  exact named.lastStartTag ▸ named

theorem readAll {tokens : List Token} (h : b.Named P b.lastStartTag)
    (ht : ∀ token ∈ tokens, ∀ tag, token = .startTag tag →
      P tag.name ∧ b.content = .markup ∧ tokens = [token]) :
    (tokens.foldl Builder.read b).Named P (tokens.foldl Builder.read b).lastStartTag := by
  have others {tokens : List Token} {b : Builder} (h : b.Named P b.lastStartTag)
      (hn : ∀ token ∈ tokens, ∀ tag, token ≠ .startTag tag) :
      (tokens.foldl Builder.read b).Named P (tokens.foldl Builder.read b).lastStartTag := by
    induction tokens generalizing b with
    | nil => exact h
    | cons token tokens ih =>
      rw [List.forall_mem_cons] at hn
      exact ih (h.read own fun tag e => absurd e (hn.1 tag)) hn.2
  by_cases hn : ∀ token ∈ tokens, ∀ tag, token ≠ .startTag tag
  · exact others h hn
  · -- A start tag comes alone.
    simp only [not_forall, not_not] at hn
    obtain ⟨token, hm, tag, e⟩ := hn
    obtain ⟨hp, hc, he⟩ := ht token hm tag e
    rw [he]
    exact h.read own fun tag' e' => by
      cases e.symm.trans e'
      exact ⟨hp, hc⟩

end Named

end Builder

end LivePages
