import LivePages.Html.PageContent
import LivePages.Proofs.Dom.Matching

namespace LivePages

/-- The names that a page's elements get without a start tag of that name in its text. -/
def ownNames : List String :=
  ["html", "head", "body", "tbody", "tr", "colgroup", "p", "br", "img"] ++ svgTagSpellings

/-- Elements that may hold text which only their own end tag ends. -/
def textTags : List String :=
  ["title", "textarea", "style", "script", "xmp", "iframe", "noembed", "noframes", "noscript"]

variable {P : String → Prop} {last : String}

/-- A start tag has a name of a class, and is the last one that has been read. -/
def Token.Named (P : String → Prop) (last : String) : Token → Prop
  | .startTag tag => P tag.name ∧ tag.name = last
  | _ => True

theorem Token.Named.of_ne {token : Token} (h : ∀ tag, token ≠ .startTag tag) : token.Named P last := by
  cases token with
  | startTag tag => exact absurd rfl (h tag)
  | _ => trivial

namespace Builder

/-- All elements of a page under construction have a name of a class, those included that are still
to be copied. What is not read as markup is the text of an element with the name of the last start
tag. -/
structure Named (P : String → Prop) (last : String) (b : Builder) : Prop where
  elements : b.tree.Named P
  formatting : ∀ f, some f ∈ b.formatting → P f.tag.name
  pending : ∀ token ∈ b.tableText, ∀ tag, token ≠ .startTag tag
  lastStartTag : b.lastStartTag = last
  content : last ∈ textTags ∨ b.content = .markup ∨ b.content = .plain

namespace Named

variable {b : Builder} {tag : Tag}

theorem of_tree (h : b.Named P last) {t : Tree} (ht : t.Named P) : { b with tree := t }.Named P last :=
  ⟨ht, h.2, h.3, h.4, h.5⟩

theorem of_data (h : b.Named P last) {t : Tree} (ht : t.data? = b.tree.data?) :
    { b with tree := t }.Named P last :=
  h.of_tree (h.elements.congr ht)

theorem of_formatting (h : b.Named P last) {l : List (Option FormattingElement)}
    (hl : ∀ f, some f ∈ l → some f ∈ b.formatting) : { b with formatting := l }.Named P last :=
  ⟨h.1, fun f hf => h.2 f (hl f hf), h.3, h.4, h.5⟩

@[grind ←] theorem withMode (h : b.Named P last) (mode : InsertionMode) : (b.withMode mode).Named P last :=
  ⟨h.1, h.2, h.3, h.4, h.5⟩

@[grind ←] theorem forbidFrameset (h : b.Named P last) : b.forbidFrameset.Named P last := ⟨h.1, h.2, h.3, h.4, h.5⟩

@[grind ←] theorem pop (h : b.Named P last) : b.pop.Named P last := ⟨h.1, h.2, h.3, h.4, h.5⟩

@[grind ←] theorem push (h : b.Named P last) (e : OpenElement) : (b.push e).Named P last := ⟨h.1, h.2, h.3, h.4, h.5⟩

@[grind ←] theorem popWhile (h : b.Named P last) (test : OpenElement → Bool) : (b.popWhile test).Named P last :=
  ⟨h.1, h.2, h.3, h.4, h.5⟩

@[grind ←] theorem popThrough (h : b.Named P last) (test : OpenElement → Bool) :
    (b.popThrough test).Named P last :=
  ⟨h.1, h.2, h.3, h.4, h.5⟩

@[grind ←] theorem removeOpen (h : b.Named P last) (node : NodeId) : (b.removeOpen node).Named P last :=
  ⟨h.1, h.2, h.3, h.4, h.5⟩

@[grind ←] theorem swapOpen (h : b.Named P last) (node : NodeId) (new : OpenElement) :
    (b.swapOpen node new).Named P last :=
  ⟨h.1, h.2, h.3, h.4, h.5⟩

@[grind ←] theorem putAt (h : b.Named P last) (place : Place) (node : NodeId) :
    (b.putAt place node).Named P last := by
  rw [Builder.putAt]
  split
  · exact h.of_data (Tree.data?_appendChild ..)
  · exact h.of_data (Tree.data?_insertBefore ..)

@[grind ←] theorem insertText (h : b.Named P last) (text : String) : (b.insertText text).Named P last := by
  rw [Builder.insertText]
  dsimp only
  split
  · exact h.of_tree (h.elements.update _ fun n e he => by cases he)
  · exact (h.of_tree (h.elements.create fun e he => by cases he)).putAt _ _

@[grind ←] theorem insertComment (h : b.Named P last) (content : String) :
    (b.insertComment content).Named P last :=
  (h.of_tree (h.elements.create fun e he => by cases he)).putAt _ _

@[grind ←] theorem appendComment (h : b.Named P last) (parent : NodeId) (content : String) :
    (b.appendComment parent content).Named P last :=
  h.of_tree ((h.elements.create fun e he => by cases he).congr (Tree.data?_appendChild ..))

theorem createFor (h : b.Named P last) (vocabulary : Vocabulary) (ht : P tag.name) :
    (b.createFor vocabulary tag).1.Named P last :=
  h.of_tree (h.elements.create fun e he => by cases he; exact ht)

theorem insertForeignClosed (h : b.Named P last) (vocabulary : Vocabulary) (ht : P tag.name) :
    (b.insertForeignClosed vocabulary tag).1.Named P last :=
  (h.createFor vocabulary ht).putAt _ _

@[grind ←] theorem insertForeign (h : b.Named P last) (vocabulary : Vocabulary) (ht : P tag.name) :
    (b.insertForeign vocabulary tag).Named P last :=
  (h.insertForeignClosed vocabulary ht).push _

@[grind ←] theorem insertElement (h : b.Named P last) (ht : P tag.name) : (b.insertElement tag).Named P last :=
  h.insertForeign .html ht

@[grind ←] theorem insertVoid (h : b.Named P last) (ht : P tag.name) : (b.insertVoid tag).Named P last :=
  h.insertForeignClosed .html ht

@[grind ←] theorem insertTextElement (h : b.Named P last) (ht : P tag.name) (hl : last ∈ textTags)
    (content : ContentModel) : (b.insertTextElement tag content).Named P last :=
  have h := h.insertElement ht
  ⟨h.1, h.2, h.3, h.4, .inl hl⟩

@[grind ←] theorem addMissingAttributes (h : b.Named P last) (node : NodeId) (tag : Tag) :
    (b.addMissingAttributes node tag).Named P last := by
  refine h.of_tree (h.elements.update _ fun n e he => ?_)
  split at he
  next e' hn =>
    cases Option.some.inj he
    exact ⟨e', by rw [hn]; rfl, rfl⟩
  next => exact ⟨e, he, rfl⟩

/-! Formatting elements. -/

@[grind ←] theorem clearFormatting (h : b.Named P last) : b.clearFormatting.Named P last :=
  h.of_formatting fun _ hf => (List.dropWhile_sublist _).mem (List.mem_of_mem_tail hf)

@[grind ←] theorem markFormatting (h : b.Named P last) : b.markFormatting.Named P last :=
  h.of_formatting fun _ hf => (List.mem_cons.mp hf).resolve_left nofun

@[grind ←] theorem dropFormatting (h : b.Named P last) (node : NodeId) : (b.dropFormatting node).Named P last :=
  h.of_formatting fun _ hf => List.mem_of_mem_filter hf

theorem mem_sinceMark {f : FormattingElement} (hf : f ∈ b.sinceMark) : some f ∈ b.formatting := by
  obtain ⟨a, ha, rfl⟩ := List.mem_filterMap.mp hf
  exact (List.takeWhile_sublist _).mem ha

theorem swapFormatting (h : b.Named P last) (node : NodeId) {f : FormattingElement} (hf : P f.tag.name) :
    (b.swapFormatting node f).Named P last := by
  refine ⟨h.elements, fun g hg => ?_, h.3, h.4, h.5⟩
  obtain ⟨old, ho, he⟩ := List.mem_map.mp hg
  split at he
  next => cases he; exact hf
  next => exact h.formatting g (he ▸ ho)

theorem reopen {fs : List FormattingElement} (h : b.Named P last) (hf : ∀ f ∈ fs, P f.tag.name) :
    (b.reopen fs).Named P last := by
  induction fs generalizing b with
  | nil => exact h
  | cons f fs ih =>
    rw [List.forall_mem_cons] at hf
    have h := h.insertElement hf.1
    rw [Builder.reopen]
    split
    next => exact ih h hf.2
    next => exact ih (h.swapFormatting _ hf.1) hf.2

@[grind ←] theorem reconstruct (h : b.Named P last) : b.reconstruct.Named P last :=
  h.reopen fun f hf => h.formatting f <| mem_sinceMark <|
    (List.takeWhile_sublist _).mem (List.mem_reverse.mp hf)

@[grind ←] theorem forgetThird (h : b.Named P last) (tag : Tag) : (b.forgetThird tag).Named P last := by
  rw [Builder.forgetThird]
  grind

@[grind ←] theorem insertFormatting (h : b.Named P last) (ht : P tag.name) :
    (b.insertFormatting tag).Named P last := by
  have h := (h.forgetThird tag).insertElement ht
  rw [Builder.insertFormatting]
  split
  next => exact h
  next e _ _ =>
    refine ⟨h.elements, fun f hf => ?_, h.3, h.4, h.5⟩
    rcases List.mem_cons.mp hf with hf | hf
    · cases hf; exact ht
    · exact h.formatting f hf

/-! Misnesting. -/

@[grind ←] theorem closeImplied (h : b.Named P last) : b.closeImplied.Named P last := h.popWhile _

@[grind ←] theorem closeImpliedExcept (h : b.Named P last) (name : String) :
    (b.closeImpliedExcept name).Named P last :=
  h.popWhile _

@[grind ←] theorem popThroughHtml (h : b.Named P last) (name : String) : (b.popThroughHtml name).Named P last :=
  h.popThrough _

@[grind ←] theorem closeParagraph (h : b.Named P last) : b.closeParagraph.Named P last :=
  (h.closeImpliedExcept "p").popThroughHtml "p"

@[grind ←] theorem closeParagraphInScope (h : b.Named P last) : b.closeParagraphInScope.Named P last := by
  rw [Builder.closeParagraphInScope]
  grind

@[grind ←] theorem closeOther (h : b.Named P last) (name : String) : (b.closeOther name).Named P last := by
  rw [Builder.closeOther]
  grind

theorem of_formattingOf? (h : b.Named P last) {node : NodeId} {f : FormattingElement}
    (hf : b.formattingOf? node = some f) : P f.tag.name := by
  obtain ⟨a, ha, rfl⟩ := List.mem_filterMap.mp (List.mem_of_find?_eq_some hf)
  exact h.formatting f ha

theorem step {l : Lifting} (h : l.builder.Named P last) (e : OpenElement) : (l.step e).builder.Named P last := by
  rw [Lifting.step]
  dsimp only
  split
  next => exact h.removeOpen _
  next f hf =>
    have ht := h.of_formattingOf? hf
    split
    next => exact (h.dropFormatting _).removeOpen _
    next =>
      have h := ((h.createFor .html ht).swapFormatting e.node
        (f := ⟨(l.builder.createFor .html f.tag).2, f.tag⟩) ht).swapOpen e.node
        (l.builder.createFor .html f.tag).2
      exact h.of_data (by simp)

theorem moveChildren (h : b.Named P last) (source target : NodeId) : (b.moveChildren source target).Named P last := by
  refine h.of_data ?_
  have fold (t : Tree) (l : List NodeId) :
      (l.foldl (fun t c => t.appendChild target c) t).data? = t.data? := by
    induction l generalizing t with
    | nil => rfl
    | cons c l ih => rw [List.foldl_cons, ih, Tree.data?_appendChild]
  exact fold _ _

theorem mem_fileAfter {entry : FormattingElement} {node : NodeId} {f : FormattingElement}
    {l : List (Option FormattingElement)} (hf : some f ∈ fileAfter entry node l) :
    f = entry ∨ some f ∈ l := by
  induction l with
  | nil => cases hf
  | cons a l ih =>
    rw [fileAfter] at hf
    split at hf
    next => simpa using hf
    next =>
      rcases List.mem_cons.mp hf with hf | hf
      · exact .inr (hf ▸ List.mem_cons_self)
      · exact (ih hf).imp_right (List.mem_cons_of_mem _)

theorem liftBlock (h : b.Named P last) {f : FormattingElement} (hf : P f.tag.name)
    (block ancestor : OpenElement) (between : List OpenElement) :
    (b.liftBlock f block ancestor between).Named P last := by
  have lifted (l : Lifting) (h : l.builder.Named P last) :
      (between.foldl Lifting.step l).builder.Named P last := by
    induction between generalizing l with
    | nil => exact h
    | cons e between ih => exact ih _ (step h e)
  have h := lifted ⟨b, block.node, none, 0⟩ h
  rw [Builder.liftBlock]
  generalize between.foldl Lifting.step _ = l at h ⊢
  have h := (h.of_data (Tree.data?_detach l.builder.tree l.top)).putAt
    ({ l.builder with tree := l.builder.tree.detach l.top }.placeIn ancestor) l.top
  generalize Builder.putAt _ _ _ = b at h ⊢
  have h := h.createFor .html hf
  generalize b.createFor .html f.tag = made at h ⊢
  obtain ⟨b, copy⟩ := made
  have h := (h.moveChildren block.node copy.node).of_data
    (Tree.data?_appendChild (b.moveChildren block.node copy.node).tree block.node copy.node)
  dsimp only at h ⊢
  split
  next =>
    have h := (h.swapFormatting f.element.node (f := ⟨copy, f.tag⟩) hf).removeOpen f.element.node
    exact ⟨h.1, h.2, h.3, h.4, h.5⟩
  next mark _ =>
    have hm : { b.moveChildren block.node copy.node with
        tree := (b.moveChildren block.node copy.node).tree.appendChild block.node copy.node
        formatting := fileAfter ⟨copy, f.tag⟩ mark (b.moveChildren block.node copy.node).formatting }.Named
        P last := by
      refine ⟨h.elements, fun g hg => ?_, h.3, h.4, h.5⟩
      rcases mem_fileAfter hg with rfl | hg
      · exact hf
      · exact h.formatting g hg
    have hm := (hm.dropFormatting f.element.node).removeOpen f.element.node
    exact ⟨hm.1, hm.2, hm.3, hm.4, hm.5⟩

theorem endFormattingUpTo (h : b.Named P last) (name : String) (bound : Nat) :
    (Builder.endFormattingUpTo name bound b).Named P last := by
  induction bound generalizing b with
  | zero => exact h
  | succ bound ih =>
    rw [Builder.endFormattingUpTo]
    split
    next => exact h.closeOther name
    next f hf =>
      have ht : P f.tag.name := h.formatting f (mem_sinceMark (List.mem_of_find?_eq_some hf))
      dsimp only
      split
      next => exact h.dropFormatting _
      next =>
        split
        next => exact h
        next =>
          split
          next => exact (h.popThrough _).dropFormatting _
          next =>
            split
            next => exact h
            next => exact ih (h.liftBlock ht _ _ _)

@[grind ←] theorem endFormatting (h : b.Named P last) (name : String) : (b.endFormatting name).Named P last := by
  have he := h.endFormattingUpTo name 8
  rw [Builder.endFormatting]
  grind

@[grind ←] theorem endOpenLink (h : b.Named P last) : b.endOpenLink.Named P last := by
  rw [Builder.endOpenLink]
  grind

/-! Content of the head. -/

@[grind ←] theorem resetMode (h : b.Named P last) : b.resetMode.Named P last := h.withMode _

@[grind ←] theorem mergeRoot (h : b.Named P last) (tag : Tag) : (b.mergeRoot tag).Named P last := by
  rw [Builder.mergeRoot]
  grind

@[grind ←] theorem openTemplate (h : b.Named P last) (ht : P tag.name) : (b.openTemplate tag).Named P last :=
  have h := ((h.markFormatting.forbidFrameset).withMode .inTemplate).insertElement ht
  ⟨h.1, h.2, h.3, h.4, h.5⟩

@[grind ←] theorem closeTemplate (h : b.Named P last) : b.closeTemplate.Named P last :=
  have h := (h.popThroughHtml "template").clearFormatting
  resetMode ⟨h.1, h.2, h.3, h.4, h.5⟩

@[grind ←] theorem endTemplate (h : b.Named P last) : b.endTemplate.Named P last := by
  rw [Builder.endTemplate]
  grind

@[grind ←] theorem insertHeadContent (h : b.Named P last) (ht : P tag.name) (hl : tag.name = last) :
    (b.insertHeadContent tag).Named P last := by
  rw [Builder.insertHeadContent]
  split
  next hn => exact h.insertTextElement ht (hl ▸ hn ▸ by decide) _
  next hn => exact h.insertTextElement ht (hl ▸ hn ▸ by decide) _
  next hn => exact h.insertTextElement ht (hl ▸ hn ▸ by decide) _
  next hn => exact h.insertTextElement ht (hl ▸ hn ▸ by decide) _
  next => exact h.openTemplate ht
  next => exact h.insertVoid ht

end Named

end Builder

end LivePages
