import LivePages.Html.Parse
import LivePages.Proofs.Dom.Planting
import LivePages.Proofs.Dom.Searches
import LivePages.Proofs.Html.Openings
import LivePages.Proofs.Html.TagNames
import LivePages.Proofs.Page.Sections

namespace LivePages

variable {P : String → Prop} {S : List Char → Prop}

/-- A class of texts that stays the same as tokens are read, where all start tags have names of a
class. What is not read as markup is the text of an element that may hold one. -/
structure Yields (P : String → Prop) (S : List Char → Prop) : Prop where
  rest : ∀ {model element cs}, element ∈ textTags ∨ model = .markup ∨ model = .plain → S cs →
    ∀ cdata, S (lexTokens model element cdata cs).2
  startTags : ∀ {cs}, S cs → ∀ cdata tag, .startTag tag ∈ (lexMarkup cdata cs).1 → P tag.name

/-- Every start tag in a text has a name of a class. -/
def TagsNamed (P : String → Prop) (cs : List Char) : Prop :=
  ∀ more tag rest, '<' :: more <:+ cs → lexTag .name {} more = some (tag, rest) → P tag.name

theorem yields_tagsNamed : Yields P (TagsNamed P) where
  rest _ hs _ more tag rest hm := hs more tag rest (hm.trans (lexTokens_spec ..).1)
  startTags hs cdata tag hm := by
    obtain ⟨-, more, rest, hm, hl⟩ := (lexMarkup_spec cdata _).2 tag hm
    exact hs more tag rest hm hl

theorem Builder.Named.readText (own : ∀ name ∈ ownNames, P name) (hy : Yields P S) {b : Builder}
    (h : b.Named P b.lastStartTag) {cs : List Char} (hs : S cs) (bound : Nat) :
    (Builder.readText bound b cs).tree.Named P := by
  have ending {b : Builder} (h : b.Named P b.lastStartTag) : (b.read .endOfFile).tree.Named P :=
    (h.read own fun _ e => by cases e).elements
  induction bound generalizing b cs with
  | zero => exact ending h
  | succ bound ih =>
    cases cs with
    | nil => exact ending h
    | cons c cs =>
      rw [Builder.readText]
      refine ih (h.readAll own fun token hm tag e => ?_) (hy.rest h.content hs b.knowsCdata)
      subst e
      have hc : b.content = .markup := by
        by_contra hc
        exact startTag_not_mem_lexTokens hc _ _ _ tag hm
      rw [hc] at hm ⊢
      exact ⟨hy.startTags hs _ tag hm, rfl, ((lexMarkup_spec _ _).2 tag hm).1⟩

theorem Builder.named_start : Builder.start.Named P Builder.start.lastStartTag where
  elements id e he := by
    rw [Tree.element?, Tree.data?, Tree.node?, Builder.start, Tree.blank, List.getElem?_toArray,
      List.getElem?_singleton] at he
    split at he <;> cases he
  formatting f hf := by cases hf
  pending token ht := by cases ht
  lastStartTag := rfl
  content := .inr (.inl rfl)

namespace Tree

variable {t t' source : Tree} {parent id : NodeId} {data : NodeData}

theorem data?_setAttribute_of_ne (t : Tree) (name value : String) {j : NodeId} (hj : j ≠ id) :
    (t.setAttribute id name value).data? j = t.data? j := by
  rw [data?, Tree.setAttribute, node?, update, Array.getElem?_modify, if_neg hj.symm]
  rfl

theorem data?_setAttributes_of_ne (pairs : List (String × String)) {j : NodeId} (hj : j ≠ id) :
    (pairs.foldl (fun acc (name, value) => acc.setAttribute id name value) t).data? j = t.data? j := by
  induction pairs generalizing t with
  | nil => rfl
  | cons pair pairs ih => exact ih.trans (data?_setAttribute_of_ne t pair.1 pair.2 hj)

theorem Named.setAttributes (h : t.Named P) (pairs : List (String × String)) :
    (pairs.foldl (fun acc (name, value) => acc.setAttribute id name value) t).Named P := by
  induction pairs generalizing t with
  | nil => exact h
  | cons pair pairs ih => exact ih (h.setAttribute id pair.1 pair.2)

/-- A copy of an element is made from it as from a template. -/
theorem adopt_element (t : Tree) (e : Element) :
    t.adopt (.element e) = t.instantiate ⟨e.tag, e.attributes, none⟩ :=
  rfl

@[simp] theorem adopt_id (t : Tree) (data : NodeData) : (t.adopt data).2 = t.size := by
  cases data <;> rfl

theorem size_adopt (t : Tree) (data : NodeData) : (t.adopt data).1.size = t.size + 1 := by
  cases data with
  | element e =>
    rw [adopt_element, size_instantiate]
    rfl
  | _ => exact size_create ..

theorem data?_adopt_of_lt (data : NodeData) (hid : id < t.size) :
    (t.adopt data).1.data? id = t.data? id := by
  have hne := Nat.ne_of_lt hid
  cases data with
  | element e =>
    exact (data?_setAttributes_of_ne e.attributes hne).trans
      ((data?_create (t.intern e.tag) _ id).trans (if_neg hne))
  | _ => exact (data?_create ..).trans (if_neg hne)

theorem Named.adopt (h : t.Named P) (hd : ∀ e, data = .element e → P e.tag) :
    (t.adopt data).1.Named P := by
  cases data with
  | element e =>
    have hc : ((t.intern e.tag).create (.element ⟨e.tag, []⟩)).1.Named P :=
      Named.create h fun e' he => by cases he; exact hd e rfl
    exact hc.setAttributes e.attributes
  | _ => exact h.create nofun

theorem WellFormed.adopt (h : t.WellFormed) (data : NodeData) : (t.adopt data).1.WellFormed := by
  cases data with
  | element e =>
    rw [adopt_element]
    exact h.instantiate _
  | _ => exact h.create _

theorem WellFormed.children_adopt (h : t.WellFormed) (data : NodeData) (q : NodeId) :
    (t.adopt data).1.children q = t.children q := by
  cases data with
  | element e =>
    rw [adopt_element, h.children_instantiate]
    split
    next hq => exact (h.consistent.eq_nil_of_size_le (Nat.le_of_eq hq.symm)).symm
    next => rfl
  | _ => exact congrFun (h.consistent.linked_create _).children_eq q

/-- A tree with copies of other nodes below its own. -/
structure Grafted (P : String → Prop) (t t' : Tree) : Prop where
  wellFormed : t'.WellFormed
  size_le : t.size ≤ t'.size
  data : ∀ id, id < t.size → t'.data? id = t.data? id
  named : t.Named P → t'.Named P

theorem Grafted.trans {t'' : Tree} (h : t.Grafted P t') (h' : t'.Grafted P t'') : t.Grafted P t'' where
  wellFormed := h'.wellFormed
  size_le := Nat.le_trans h.size_le h'.size_le
  data id hid := (h'.data id (Nat.lt_of_lt_of_le hid h.size_le)).trans (h.data id hid)
  named hn := h'.named (h.named hn)

theorem WellFormed.grafted_adopt (h : t.WellFormed) (hp : parent < t.size)
    (hd : ∀ e, data = .element e → P e.tag) :
    t.Grafted P ((t.adopt data).1.appendChild parent t.size) := by
  have hs := size_adopt t data
  have hb : ¬ (t.adopt data).1.Below t.size parent := by
    rw [Below, funext (h.children_adopt data)]
    exact fun hb => Nat.lt_irrefl _ (h.above_lt_size hb)
  refine ⟨?_, ?_, fun id hid => ?_, fun hn => ?_⟩
  · exact (h.adopt data).appendChild (Nat.ne_of_lt hp) (hs ▸ Nat.lt_succ_of_lt hp)
      (hs ▸ Nat.lt_succ_self _) hb
  · rw [size_eq_of_data?_eq (data?_appendChild _ _ _), hs]
    exact Nat.le_succ _
  · rw [data?_appendChild, data?_adopt_of_lt data hid]
  · exact (hn.adopt hd).congr (data?_appendChild _ _ _)

theorem grafted_graft (hsource : source.Named P) (depth : Nat) (h : t.WellFormed)
    (hp : parent < t.size) (id : NodeId) : t.Grafted P (source.graft depth t parent id) := by
  have refl {t : Tree} (h : t.WellFormed) : t.Grafted P t := ⟨h, Nat.le_refl _, fun _ _ => rfl, fun h => h⟩
  induction depth generalizing t parent id with
  | zero => exact refl h
  | succ depth ih =>
    rw [graft]
    generalize source.children id = cs
    induction cs generalizing t with
    | nil => exact refl h
    | cons c cs ihc =>
      rw [List.foldl_cons]
      cases hc : source.data? c with
      | none => exact ihc h hp
      | some data =>
        have hd : ∀ e, data = .element e → P e.tag := by
          rintro e rfl
          exact hsource c e (by rw [element?, hc]; rfl)
        have placed := h.grafted_adopt hp hd
        have hn : t.size < ((t.adopt data).1.appendChild parent t.size).size := by
          rw [size_eq_of_data?_eq (data?_appendChild _ _ _), size_adopt]
          exact Nat.lt_succ_self _
        have below := placed.trans (ih placed.wellFormed hn c)
        have hid := adopt_id t data
        dsimp only
        rw [hid]
        exact below.trans (ihc below.wellFormed (Nat.lt_of_lt_of_le hp below.size_le))

namespace Built

theorem adopt (h : t.Built) (data : NodeData) : (t.adopt data).1.Built := by
  cases data with
  | element e =>
    rw [adopt_element]
    exact h.instantiate _
  | _ => exact .create nofun h

theorem graft (h : t.Built) (source : Tree) (depth : Nat) (parent id : NodeId) :
    (source.graft depth t parent id).Built := by
  induction depth generalizing t parent id with
  | zero => exact h
  | succ depth ih =>
    rw [Tree.graft]
    generalize source.children id = cs
    induction cs generalizing t with
    | nil => exact h
    | cons c cs ihc =>
      rw [List.foldl_cons]
      cases source.data? c with
      | none => exact ihc h
      | some data => exact ihc (ih (.edit (.appendChild _ _) (h.adopt data)) _ _)

end Built

theorem grafted_inDocumentOrder (hs : source.Named P) : blank.Grafted P source.inDocumentOrder :=
  grafted_graft hs _ blank_wellFormed Nat.zero_lt_one _

end Tree

namespace Document

/-- The page that a text with given characters is read as. -/
def ofChars (url : String) (cs : List Char) : Document :=
  { empty url with
    tree := (Builder.start.readText ((normalizeLineEnds (dropByteOrderMark cs)).length + 1)
      (normalizeLineEnds (dropByteOrderMark cs))).tree.inDocumentOrder }.locate

/-- A text in two parts is read from the characters of both. -/
theorem ofHtml_append (url : String) (cs ds : List Char) :
    ofHtml url (String.ofList cs ++ String.ofList ds) = ofChars url (cs ++ ds) := by
  have chars : (String.ofList cs ++ String.ofList ds).toList = cs ++ ds := by
    rw [String.toList_append, String.toList_ofList, String.toList_ofList]
  rw [← chars]
  rfl

theorem tree_ofHtml (url html : String) : (ofHtml url html).tree = (Builder.start.readText
    ((normalizeLineEnds (dropByteOrderMark html.toList)).length + 1)
    (normalizeLineEnds (dropByteOrderMark html.toList))).tree.inDocumentOrder :=
  locate_tree _

theorem grafted_ofHtml (own : ∀ name ∈ ownNames, P name) (hy : Yields P S) (url : String)
    {html : String} (h : S (normalizeLineEnds (dropByteOrderMark html.toList))) :
    Tree.blank.Grafted P (ofHtml url html).tree := by
  rw [tree_ofHtml]
  exact Tree.grafted_inDocumentOrder (Builder.named_start.readText own hy h _)

theorem wellFormed_ofHtml (url html : String) : (ofHtml url html).WellFormed := by
  have h : Tree.blank.Grafted (fun _ => True) (ofHtml url html).tree :=
    grafted_ofHtml (fun _ _ => trivial) yields_tagsNamed url fun _ _ _ _ _ => trivial
  exact ⟨h.wellFormed, h.data Tree.root Nat.zero_lt_one, locate_locate _⟩

/-- What the edits do to a tree that was made is what they do to a page that was read. -/
theorem built_ofHtml (url html : String) : (ofHtml url html).tree.Built := by
  rw [tree_ofHtml]
  exact Tree.Built.blank.graft _ _ _ _

/-- In a page that was read the numbers of names find what the names find. -/
theorem elementsNumbered_ofHtml (url html : String) (top : NodeId) (tags : List String) :
    (ofHtml url html).tree.elementsNumbered top tags = (ofHtml url html).tree.elementsNamed top tags :=
  (built_ofHtml url html).tagsInUse.elementsNumbered_eq top tags

/-- The elements of a page have names of tags in its text, apart from those that every page has. -/
theorem named_ofHtml (own : ∀ name ∈ ownNames, P name) (hy : Yields P S) (url : String) {html : String}
    (h : S (normalizeLineEnds (dropByteOrderMark html.toList))) : (ofHtml url html).tree.Named P := by
  refine (grafted_ofHtml own hy url h).named fun id e he => ?_
  exact Builder.named_start.elements id e he

/-- A page whose tags are not those of widgets has no widgets. -/
theorem widgets_ofHtml_of_yields (hy : Yields (· ∉ WidgetKind.tags) S) {html : String}
    (h : S (normalizeLineEnds (dropByteOrderMark html.toList))) (url : String) (page : PageUrl) :
    (ofHtml url html).widgets page = [] := by
  have hn : (ofHtml url html).tree.Named (· ∉ WidgetKind.tags) := named_ofHtml (by decide) hy url h
  have none : (ofHtml url html).tree.elementsNamed Tree.root WidgetKind.tags = [] := by
    rw [Tree.elementsNamed_tags, List.filter_eq_nil_iff]
    intro id _ hw
    obtain ⟨tag, hm, ht⟩ := of_decide_eq_true hw
    obtain ⟨e, he, rfl⟩ := Tree.element?_of_tag? ht
    exact hn id e he hm
  rw [widgets, none]
  rfl

/-- A page has no widgets if no start tag of a widget begins in its text. -/
theorem widgets_ofHtml_of_quiet {html : String} (hq : isQuiet html.toList) (url : String)
    (page : PageUrl) : (ofHtml url html).widgets page = [] :=
  widgets_ofHtml_of_yields yields_tagsNamed (fun _ _ _ hm hl =>
    not_widget_of_quiet (isQuiet_normalizeLineEnds (isQuiet_dropByteOrderMark hq)) hm hl) url page

end Document

end LivePages
