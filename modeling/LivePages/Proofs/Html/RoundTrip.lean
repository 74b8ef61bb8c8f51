import LivePages.Proofs.Html.PageReading
import LivePages.Proofs.Html.Reading

namespace LivePages

namespace Markup

variable {m : Markup} {around : List String} {name : String} {model : ContentModel}

/-- No element has two attributes of one name. -/
def Distinct : Markup → Prop
  | nil => True
  | node data inner rest =>
    (∀ e, data = .element e → (e.attributes.map Prod.fst).Nodup) ∧ inner.Distinct ∧ rest.Distinct

theorem IsComments.distinct (h : m.IsComments) : m.Distinct := by
  induction m with
  | nil => trivial
  | node data inner rest _ ih =>
    match data, inner, h with
    | .comment _, .nil, ⟨_, hr⟩ => exact ⟨nofun, trivial, ih hr⟩

theorem IsTextOf.distinct (h : m.IsTextOf name model) : m.Distinct := by
  rw [h.1, ofText]
  split
  · trivial
  · exact ⟨fun _ h => (by cases h), trivial, trivial⟩

theorem distinct_element {e : Element} {v : Vocabulary} {inner rest : Markup} (he : e.ReadableAs v)
    (hi : inner.Distinct) (hr : rest.Distinct) : (node (.element e) inner rest).Distinct :=
  ⟨fun e' h => by cases h; exact he.nodup, hi, hr⟩

theorem Fits.distinct {region : Region} (h : m.Fits region around) : m.Distinct := by
  induction m generalizing region around with
  | nil => trivial
  | node data inner rest ihi ihr =>
    obtain ⟨hr, h⟩ := h
    cases data with
    | element e =>
      obtain ⟨he, hm⟩ := h
      refine distinct_element he ?_ (ihr hr)
      rw [MayHold] at hm
      split at hm
      next =>
        rw [hm]
        trivial
      next => exact hm.distinct
      next => exact ihi hm.2.2
      next => exact hm.elim
    | text content =>
      rw [h.2.1]
      exact ⟨nofun, trivial, ihr hr⟩
    | comment content =>
      rw [h.2]
      exact ⟨nofun, trivial, ihr hr⟩
    | _ => exact h.elim

theorem HasBody.distinct (h : m.HasBody) : m.Distinct := by
  induction m with
  | nil => exact h.elim
  | node data inner rest _ ih =>
    cases data with
    | element e => exact distinct_element h.2.1 h.2.2.1.distinct h.2.2.2.distinct
    | text content =>
      rw [h.2.1]
      exact ⟨nofun, trivial, ih h.2.2.2⟩
    | comment content =>
      rw [h.2.1]
      exact ⟨nofun, trivial, ih h.2.2⟩
    | _ => exact h.elim

theorem HasSections.distinct (h : m.HasSections) : m.Distinct := by
  induction m with
  | nil => exact h.elim
  | node data inner rest _ ih =>
    cases data with
    | element e => exact distinct_element h.2.1 h.2.2.1.distinct h.2.2.2.distinct
    | comment content =>
      rw [h.2.1]
      exact ⟨nofun, trivial, ih h.2.2⟩
    | _ => exact h.elim

theorem HasRoot.distinct {seen : Bool} (h : m.HasRoot seen) : m.Distinct := by
  induction m generalizing seen with
  | nil => exact h.elim
  | node data inner rest _ ih =>
    cases data with
    | element e => exact distinct_element h.2.1 h.2.2.1.distinct h.2.2.2.distinct
    | doctype name publicId systemId =>
      obtain ⟨-, -, -, -, rfl, hr⟩ := h
      exact ⟨nofun, trivial, ih hr⟩
    | comment content =>
      rw [h.2.1]
      exact ⟨nofun, trivial, ih h.2.2⟩
    | _ => exact h.elim

theorem HasRoot.not_startsWithText {seen : Bool} (h : m.HasRoot seen) : ¬ m.StartsWithText := by
  intro ht
  cases m with
  | nil => exact h
  | node data inner rest =>
    cases data with
    | text content => exact h
    | _ => exact ht

end Markup

namespace Tree

variable {t source : Tree} {p id : NodeId} {data : NodeData}

theorem data?_adopt (hd : ∀ e, data = .element e → (e.attributes.map Prod.fst).Nodup) (t : Tree)
    (id : NodeId) : (t.adopt data).1.data? id = if id = t.size then some data else t.data? id := by
  cases data with
  | element e =>
    let template : Template := ⟨e.tag, e.attributes, none⟩
    have names : (template.attributes.map Prod.fst).Nodup := hd e rfl
    have added : (t.dressed template).data? id = _ := data?_dressed names id
    exact added
  | _ => exact data?_create ..

theorem WellFormed.planted_adopt (h : t.WellFormed) (hp : p < t.size)
    (hd : ∀ e, data = .element e → (e.attributes.map Prod.fst).Nodup) :
    t.Planted p data ((t.adopt data).1.appendChild p t.size) :=
  planted_appendChild h hp (h.adopt data) (data?_adopt hd t) (h.children_adopt data)

/-- A copy of what is below a node has the same markup. -/
theorem sown_graft {depth : Nat} (h : t.WellFormed) (hp : p < t.size)
    (hd : (source.markupUpTo depth id).Distinct) :
    t.Sown p (source.markupUpTo depth id) (source.graft depth t p id) := by
  induction depth generalizing t p id with
  | zero => exact .refl h p
  | succ depth ih =>
    rw [markupUpTo_succ] at hd ⊢
    rw [graft]
    generalize source.children id = cs at hd
    induction cs generalizing t with
    | nil => exact .refl h p
    | cons c cs ihc =>
      rw [List.foldr_cons] at hd ⊢
      rw [List.foldl_cons]
      cases hc : source.data? c with
      | none =>
        rw [hc] at hd
        exact ihc h hp hd
      | some data =>
        rw [hc] at hd
        obtain ⟨names, inner, rest⟩ := hd
        have placed := h.planted_adopt hp names
        have new : t.size < ((t.adopt data).1.appendChild p t.size).size := by
          rw [placed.size]
          exact Nat.lt_succ_self _
        have copied := placed.sown h hp (ih placed.wellFormed new inner)
        have hid := adopt_id t data
        dsimp only
        rw [hid]
        exact copied.trans (ihc copied.wellFormed (Nat.lt_of_lt_of_le hp copied.size_le) rest) hp

/-- Numbering the nodes in document order keeps all that is attached. -/
theorem markup_inDocumentOrder (hd : (source.markup root).Distinct) :
    source.inDocumentOrder.markup root = source.markup root := by
  have h : blank.Sown root (source.markup root) source.inDocumentOrder :=
    sown_graft blank_wellFormed Nat.zero_lt_one hd
  obtain ⟨ids, hk, -, hm⟩ := h.added
  rw [h.wellFormed.markup_eq_markupOf, hk, show blank.children root = [] from rfl, List.nil_append, hm]

end Tree

theorem normalizeLineEnds_eq {cs : List Char} (h : '\r' ∉ cs) : normalizeLineEnds cs = cs := by
  induction cs with
  | nil => rfl
  | cons c cs ih =>
    rw [List.mem_cons, not_or] at h
    rw [normalizeLineEnds, ih h.2]
    · rintro rest rfl
      exact absurd rfl h.1
    · rintro rfl
      exact absurd rfl h.1

theorem dropByteOrderMark_eq {cs : List Char} (h : cs.head?.all (· == '<')) : dropByteOrderMark cs = cs := by
  rw [dropByteOrderMark]
  rintro rest rfl
  cases h

theorem Builder.beforeRoot_start : Builder.start.BeforeRoot false where
  tree := Tree.blank_wellFormed
  root := Nat.zero_lt_one
  fostering := rfl
  nodes _ he := absurd he List.not_mem_nil
  html _ he := absurd he List.not_mem_nil
  mode := rfl
  content := rfl
  openElements := rfl
  formatting := rfl
  form := rfl

theorem Builder.IsBehind.tree_read {b : Builder} (h : b.IsBehind .afterAfterBody) :
    (b.read .endOfFile).tree = b.tree := by
  have mode : (b.prepared .endOfFile).mode = .afterAfterBody := h.mode
  have read : b.read .endOfFile = b.prepared .endOfFile := by
    refine h.toSteady.read_eq (fun _ => rfl) ?_
    rw [Builder.inMode, mode]
    rfl
  rw [read, tree_prepared]

theorem Tree.markup_of_sown {t : Tree} {m : Markup} (h : Tree.blank.Sown Tree.root m t) :
    t.markup Tree.root = m := by
  obtain ⟨ids, hk, -, hm⟩ := h.added
  rw [h.wellFormed.markup_eq_markupOf, hk]
  exact hm

namespace Document

/-- The text of a page that is read as it is written gives the page again. -/
theorem markup_ofHtml_toHtml_of_isPage {d : Document} (hd : d.tree.WellFormed)
    (hp : (d.tree.markup Tree.root).IsPage) (url : String) :
    (ofHtml url d.toHtml).tree.markup Tree.root = d.tree.markup Tree.root := by
  have written : d.toHtml.toList = (d.tree.markup Tree.root).chars false := hd.toList_innerHtml Tree.root
  generalize d.tree.markup Tree.root = m at hp written
  have begins : (m.chars false).head?.all (· == '<') := by
    rw [← List.append_nil (m.chars false)]
    refine Builder.head_chars hp.root.not_startsWithText (fun inner more e => ?_) rfl
    rw [e] at hp
    exact hp.root
  obtain ⟨b, reads, sown, behind⟩ := Builder.beforeRoot_start.reads_page hp.root
  rw [tree_ofHtml, written, dropByteOrderMark_eq begins, normalizeLineEnds_eq hp.feeds,
    reads.readText (Nat.lt_succ_self _)]
  have same : (b.read .endOfFile).tree.markup Tree.root = m := by
    rw [behind.tree_read]
    exact Tree.markup_of_sown sown
  rw [Tree.markup_inDocumentOrder (same ▸ hp.root.distinct), same]

/-- A page is read back as it was, whatever text and under whatever address it was first read from,
if its elements are of those that stay where they are written and what stands unescaped is read as
it stands. -/
theorem markup_ofHtml_toHtml {url html : String} (h : ((ofHtml url html).tree.markup Tree.root).IsPage)
    (url' : String) :
    (ofHtml url' (ofHtml url html).toHtml).tree.markup Tree.root =
      (ofHtml url html).tree.markup Tree.root :=
  markup_ofHtml_toHtml_of_isPage (wellFormed_ofHtml url html).tree h url'

/-- A page that leaves out what a reader fills in. -/
def smallPage : String :=
  "<title>a &#60; b</title><noscript>c</noscript><h1 id=top>A&#38;B</h1><p>one <b>two</b><pre>\n d</pre>" ++
  "<table> <td>e<select><option>f</select></table><math><mi>g</mi></math><template>h</template><!-- end -->"

theorem markup_ofHtml_toHtml_smallPage :
    ((ofHtml "/" smallPage).tree.markup Tree.root).IsPage ∧
    (ofHtml "/copy" (ofHtml "/" smallPage).toHtml).tree.markup Tree.root =
      (ofHtml "/" smallPage).tree.markup Tree.root := by
  have isPage : ((ofHtml "/" smallPage).tree.markup Tree.root).IsPage := by
    unfold smallPage
    rw [ofHtml_append]
    decide +kernel
  exact ⟨isPage, markup_ofHtml_toHtml isPage "/copy"⟩

end Document

end LivePages
