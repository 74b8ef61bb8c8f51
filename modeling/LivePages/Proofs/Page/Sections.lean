import LivePages.Dom.Document
import LivePages.Proofs.Dom.Planting
import LivePages.Proofs.Page.Anchors

namespace LivePages

theorem flatMap_filter {α β : Type} {l : List α} {p : α → Bool} {f : α → List β}
    (h : ∀ a ∈ l, p a = false → f a = []) : (l.filter p).flatMap f = l.flatMap f := by
  induction l with
  | nil => rfl
  | cons a l ih =>
    have hl := ih fun b hb => h b (List.mem_cons_of_mem a hb)
    rw [List.filter_cons, List.flatMap_cons]
    cases hp : p a with
    | false => rw [if_neg Bool.false_ne_true, hl, h a List.mem_cons_self hp, List.nil_append]
    | true => rw [if_pos rfl, List.flatMap_cons, hl]

/-- A page whose links agree and whose sections have been found. -/
structure Document.WellFormed (d : Document) : Prop where
  tree : d.tree.WellFormed
  root : d.tree.data? Tree.root = some .document
  located : d.locate = d

namespace Tree

variable {t t' t'' : Tree} {html head body p c id : NodeId}

/-- A page that has all its sections. -/
structure Sections (t : Tree) (html head body : NodeId) : Prop where
  wellFormed : t.WellFormed
  root : t.data? root = some .document
  html_mem : html ∈ t.children Tree.root
  head_mem : head ∈ t.children html
  body_mem : body ∈ t.children html
  html_tag : t.tag? html = some "html"
  head_tag : t.tag? head = some "head"
  body_tag : t.tag? body = some "body"

theorem ne_of_tags {a b : String} (ha : t.tag? p = some a) (hb : t.tag? c = some b) (h : a ≠ b) :
    p ≠ c := by
  rintro rfl
  exact h (Option.some.inj (ha.symm.trans hb))

namespace Sections

theorem head_ne_body (h : t.Sections html head body) : head ≠ body :=
  ne_of_tags h.head_tag h.body_tag (by decide)

theorem head_lt (h : t.Sections html head body) : head < t.size :=
  h.wellFormed.consistent.lt_size h.head_mem

theorem body_lt (h : t.Sections html head body) : body < t.size :=
  h.wellFormed.consistent.lt_size h.body_mem

theorem not_body_of_head_child (h : t.Sections html head body) (hc : c ∈ t.children head) :
    c ≠ body := by
  rintro rfl
  exact ne_of_tags h.html_tag h.head_tag (by decide) (h.wellFormed.parent_eq h.body_mem hc)

theorem not_head_of_body_child (h : t.Sections html head body) (hc : c ∈ t.children body) :
    c ≠ head := by
  rintro rfl
  exact ne_of_tags h.html_tag h.body_tag (by decide) (h.wellFormed.parent_eq h.head_mem hc)

end Sections

def sectionTags : List String :=
  ["html", "head", "body"]

/-- A tree with new nodes, which are sections and not above old nodes. -/
structure Extends (t t' : Tree) : Prop where
  wellFormed : t'.WellFormed
  size_le : t.size ≤ t'.size
  data : ∀ j, j < t.size → t'.data? j = t.data? j
  children : ∀ q, q < t.size → ((t'.children q).filter fun c => c < t.size) = t.children q
  new : ∀ q c, t.size ≤ q → c ∈ t'.children q → t.size ≤ c
  bare : ∀ q e, t.size ≤ q → t'.element? q = some e → e.tag ∈ sectionTags ∧ e.attributes = []
  silent : ∀ q, t.size ≤ q → t'.comment? q = none

namespace Extends

theorem refl (h : t.WellFormed) : t.Extends t where
  wellFormed := h
  size_le := Nat.le_refl _
  data _ _ := rfl
  children q _ := List.filter_eq_self.mpr fun c hc => decide_eq_true (h.consistent.lt_size hc)
  new _ _ hq hc := absurd (h.consistent.parent_lt_size hc) (Nat.not_lt.mpr hq)
  bare q e hq he := absurd (lt_size_of_element? he) (Nat.not_lt.mpr hq)
  silent q hq := by
    rw [comment?, data?_eq_none hq]
    rfl

theorem tags (h : t.Extends t') (hq : t.size ≤ p) {tag : String} (ht : t'.tag? p = some tag) :
    tag ∈ sectionTags := by
  obtain ⟨e, he, rfl⟩ := element?_of_tag? ht
  exact (h.bare p e hq he).1

theorem plain (h : t.Extends t') (hq : t.size ≤ p) : ¬ t'.IsWidget p := by
  rintro ⟨tag, hm, ht⟩
  have hs := h.tags hq ht
  simp only [sectionTags, List.mem_cons, List.not_mem_nil, or_false] at hs
  rcases hs with rfl | rfl | rfl <;> exact absurd hm (by decide)

theorem isWidget_iff (h : t.Extends t') (hq : p < t.size) : t'.IsWidget p ↔ t.IsWidget p := by
  rw [IsWidget, tag?_congr (h.data p hq), IsWidget]

theorem mem_children (h : t.Extends t') (hc : c ∈ t.children p) (hp : p < t.size) :
    c ∈ t'.children p := by
  rw [← h.children p hp] at hc
  exact (List.mem_filter.mp hc).1

theorem trans (h : t.Extends t') (h' : t'.Extends t'') : t.Extends t'' where
  wellFormed := h'.wellFormed
  size_le := Nat.le_trans h.size_le h'.size_le
  data j hj := (h'.data j (Nat.lt_of_lt_of_le hj h.size_le)).trans (h.data j hj)
  children q hq := by
    rw [← h.children q hq, ← h'.children q (Nat.lt_of_lt_of_le hq h.size_le), List.filter_filter]
    refine List.filter_congr fun c _ => ?_
    have hle := h.size_le
    by_cases hc : c < t.size
    · have hc' : c < t'.size := Nat.lt_of_lt_of_le hc hle
      simp [hc, hc']
    · simp [hc]
  new q c hq hc := by
    by_cases hc' : c < t'.size
    · by_cases hq' : q < t'.size
      · refine h.new q c hq ?_
        rw [← h'.children q hq']
        exact List.mem_filter.mpr ⟨hc, decide_eq_true hc'⟩
      · exact absurd (h'.new q c (Nat.le_of_not_lt hq') hc) (Nat.not_le.mpr hc')
    · exact Nat.le_trans h.size_le (Nat.le_of_not_lt hc')
  bare q e hq he := by
    by_cases hq' : q < t'.size
    · exact h.bare q e hq ((element?_congr (h'.data q hq')).symm.trans he)
    · exact h'.bare q e (Nat.le_of_not_lt hq') he
  silent q hq := by
    by_cases hq' : q < t'.size
    · exact (comment?_congr (h'.data q hq')).trans (h.silent q hq)
    · exact h'.silent q (Nat.le_of_not_lt hq')

/-- New sections, with the old nodes' lists otherwise as they were. -/
theorem of_grown {kids : NodeId → List NodeId} {made : List (NodeId × Template)}
    (h : t.Grown kids made t')
    (hk : ∀ q, q < t.size → ((kids q).filter fun c => c < t.size) = t.children q)
    (hm : ∀ e ∈ made, e.2.tag ∈ sectionTags ∧ e.2.attributes = []) : t.Extends t' where
  wellFormed := h.wellFormed
  size_le := h.size_le
  data := h.data
  children q hq := h.children q hq ▸ hk q hq
  new q c hq hc := (h.texts q c hq hc).1
  bare q e hq he := by
    obtain ⟨x, hx, rfl⟩ := List.mem_map.mp (h.complete q e hq he)
    obtain ⟨e', he', ht, ha, -⟩ := matchesTemplate_iff.mp (h.new x.1 x.2 hx).2
    cases Option.some.inj (he.symm.trans he')
    obtain ⟨hm, hn⟩ := hm x hx
    exact ⟨ht ▸ hm, List.perm_nil.mp (hn ▸ ha)⟩
  silent := h.silent

theorem above_new (h : t.Extends t') (hb : t'.Below p c) (hp : t.size ≤ p) : t.size ≤ c := by
  induction hb with
  | single hc => exact h.new p _ hp hc
  | tail _ hc ih => exact h.new _ _ ih hc

theorem filter_descendants (h : t.Extends t') (hw : t.WellFormed) {f : NodeId → Bool}
    (hf : ∀ q, t.size ≤ q → f q = false) (hp : p < t.size) :
    (t'.descendants p).filter f = (t.descendants p).filter f := by
  induction p using hw.child_induction with
  | step p ih =>
  have new (c) (hc : t.size ≤ c) : (c :: t'.descendants c).filter f = [] := by
    refine List.filter_eq_nil_iff.mpr fun x hx => ?_
    rcases List.mem_cons.mp hx with rfl | hx
    · simp [hf x hc]
    · have hb := h.wellFormed.mem_descendants.mp hx
      simp [hf x (h.above_new hb hc)]
  rw [h.wellFormed.descendants_eq, hw.descendants_eq, List.filter_flatMap, List.filter_flatMap,
    ← flatMap_filter (p := fun c => c < t.size) fun c _ hc => new c (by simpa using hc),
    h.children p hp]
  refine List.flatMap_congr fun c hc => ?_
  rw [List.filter_cons, List.filter_cons, ih c hc (hw.consistent.lt_size hc)]

theorem elementsNamed_eq (h : t.Extends t') (hw : t.WellFormed) (hr : t.data? root = some .document) :
    t'.elementsNamed root WidgetKind.tags = t.elementsNamed root WidgetKind.tags := by
  rw [elementsNamed_tags, elementsNamed_tags,
    h.filter_descendants hw (fun q hq => decide_eq_false (h.plain hq)) (lt_size_of_data? hr)]
  refine List.filter_congr fun c hc => ?_
  rw [decide_eq_decide, h.isWidget_iff (hw.below_lt_size (hw.mem_descendants.mp hc))]

end Extends

/-- The tree has one more child under a node, a new element with the given tag. -/
structure Gains (t : Tree) (p : NodeId) (tag : String) (t' : Tree) : Prop where
  grows : t.Extends t'
  mem : t.size ∈ t'.children p
  tag : t'.tag? t.size = some tag
  others : ∀ q, q < t.size → q ≠ p → t'.children q = t.children q
  texts : ∀ c, c ∈ t'.children t.size → (t'.text? c).isSome

theorem gains_of_grown {kids : NodeId → List NodeId} {tag : String}
    (h : t.Grown kids [(t.size, ⟨tag, [], none⟩)] t')
    (hk : ∀ q, q < t.size → ((kids q).filter fun c => c < t.size) = t.children q)
    (ht : tag ∈ sectionTags) (hp : p < t.size) (hm : t.size ∈ kids p)
    (ho : ∀ q, q < t.size → q ≠ p → kids q = t.children q) : t.Gains p tag t' where
  grows := .of_grown h hk fun e he => by
    cases List.mem_singleton.mp he
    exact ⟨ht, rfl⟩
  mem := h.children p hp ▸ hm
  tag := by
    obtain ⟨e, he, htag⟩ := element?_of_matches (h.new t.size _ (List.mem_singleton_self _)).2
    rw [tag?, he, Option.map_some, htag]
  others q hq hne := (h.children q hq).trans (ho q hq hne)
  texts c hc := (h.texts t.size c (Nat.le_refl _) hc).2

section New

variable (h : t.WellFormed) (hp : p < t.size) {tag : String} (ht : tag ∈ sectionTags)
include h hp ht

theorem gains_append : t.Gains p tag ((t.createElement tag).1.appendChild p t.size) := by
  have hd : ((⟨tag, [], none⟩ : Template).attributes.map Prod.fst).Nodup := .nil
  have hg := (Grown.refl h).instantiate hd
  have hm : t.size ∈ ([] ++ [(t.size, (⟨tag, [], none⟩ : Template))]).map Prod.fst := by simp
  have hg := hg.appendChild hp (.inr hm) (Nat.ne_of_lt hp) (hg.not_below_old hm hp)
  have hn (q) : t.size ∉ t.children q := h.consistent.not_mem_of_size_le (Nat.le_refl _)
  refine gains_of_grown hg (fun q hq => ?_) ht hp (by simp) fun q hq hne => by
    rw [if_neg hne, List.erase_of_not_mem (hn q)]
  have hf : (t.children q).filter (fun c => decide (c < t.size)) = t.children q :=
    List.filter_eq_self.mpr fun c hc => decide_eq_true (h.consistent.lt_size hc)
  split
  next e => rw [← e, List.erase_of_not_mem (hn q), List.filter_append, hf]; simp
  next => rw [List.erase_of_not_mem (hn q), hf]

theorem gains_prepend : t.Gains p tag ((t.createElement tag).1.prependChild p t.size) := by
  have hd : ((⟨tag, [], none⟩ : Template).attributes.map Prod.fst).Nodup := .nil
  have hg := (Grown.refl h).instantiate hd
  have hm : t.size ∈ ([] ++ [(t.size, (⟨tag, [], none⟩ : Template))]).map Prod.fst := by simp
  have hg := hg.prependChild hp (.inr hm) (Nat.ne_of_lt hp) (hg.not_below_old hm hp)
  have hn (q) : t.size ∉ t.children q := h.consistent.not_mem_of_size_le (Nat.le_refl _)
  refine gains_of_grown hg (fun q hq => ?_) ht hp (by simp) fun q hq hne => by
    rw [if_neg hne, List.erase_of_not_mem (hn q)]
  have hf : (t.children q).filter (fun c => decide (c < t.size)) = t.children q :=
    List.filter_eq_self.mpr fun c hc => decide_eq_true (h.consistent.lt_size hc)
  split
  next e => rw [← e, List.erase_of_not_mem (hn q), List.filter_cons, hf]; simp
  next => rw [List.erase_of_not_mem (hn q), hf]

end New

/-- A section of a page: an element with a given tag below a given node. -/
structure IsSection (t : Tree) (p : NodeId) (tag : String) (id : NodeId) : Prop where
  mem : id ∈ t.children p
  tag : t.tag? id = some tag

theorem isSection_of_find {tag : String}
    (h : ((t.elementChildren p).find? fun id => t.isElementNamed id tag) = some id) :
    t.IsSection p tag id where
  mem := (List.mem_filter.mp (List.mem_of_find?_eq_some h)).1
  tag := by
    have hn := List.find?_some h
    exact tag?_of_named hn

theorem IsSection.grow {tag : String} (h : t.IsSection p tag id) (hw : t.WellFormed)
    (he : t.Extends t') : t'.IsSection p tag id where
  mem := he.mem_children h.mem (hw.consistent.parent_lt_size h.mem)
  tag := (tag?_congr (he.data id (hw.consistent.lt_size h.mem))).trans h.tag

theorem Gains.isSection {tag : String} (h : t.Gains p tag t') : t'.IsSection p tag t.size :=
  ⟨h.mem, h.tag⟩

end Tree

namespace Document

variable {d : Document} {html : NodeId}

/-- The sections that a located page knows of are where they belong. -/
theorem sections_of_located (hl : d.locate = d) :
    (∀ html, d.html = some html → d.tree.IsSection Tree.root "html" html) ∧
    (∀ head, d.head = some head → ∃ html, d.html = some html ∧ d.tree.IsSection html "head" head) ∧
    ∀ body, d.body = some body → ∃ html, d.html = some html ∧ d.tree.IsSection html "body" body := by
  rw [locate] at hl
  split at hl
  next =>
    rw [← hl]
    exact ⟨fun _ h => (nomatch h), fun _ h => (nomatch h), fun _ h => (nomatch h)⟩
  next html hf =>
    have hs := congrArg Document.html hl
    have hh := congrArg Document.head hl
    have hb := congrArg Document.body hl
    refine ⟨fun html' h' => ?_, fun head h' => ⟨html, hs.symm, ?_⟩, fun body h' => ⟨html, hs.symm, ?_⟩⟩
    · cases Option.some.inj (hs.trans h')
      exact Tree.isSection_of_find hf
    · exact Tree.isSection_of_find (hh.trans h')
    · exact Tree.isSection_of_find (hb.trans h')

theorem WellFormed.sections (h : d.WellFormed) :
    (∀ html, d.html = some html → d.tree.IsSection Tree.root "html" html) ∧
    (∀ head, d.head = some head → ∃ html, d.html = some html ∧ d.tree.IsSection html "head" head) ∧
    ∀ body, d.body = some body → ∃ html, d.html = some html ∧ d.tree.IsSection html "body" body :=
  sections_of_located h.located

theorem ensureHtml_spec (hw : d.tree.WellFormed) (hr : Tree.root < d.tree.size)
    (h : ∀ html, d.html = some html → d.tree.IsSection Tree.root "html" html) :
    d.tree.Extends d.ensureHtml.1.tree ∧
      d.ensureHtml.1.tree.IsSection Tree.root "html" d.ensureHtml.2 := by
  rw [ensureHtml]
  split
  next html he => exact ⟨.refl hw, h html he⟩
  next =>
    have ht : "html" ∈ Tree.sectionTags := by decide
    have hg := Tree.gains_append hw hr ht
    exact ⟨hg.grows, hg.isSection⟩

theorem ensureHead_spec (hw : d.tree.WellFormed) (hp : html < d.tree.size)
    (h : ∀ head, d.head = some head → d.tree.IsSection html "head" head) :
    d.tree.Extends (d.ensureHead html).1.tree ∧
      (d.ensureHead html).1.tree.IsSection html "head" (d.ensureHead html).2 := by
  rw [ensureHead]
  split
  next head he => exact ⟨.refl hw, h head he⟩
  next =>
    have ht : "head" ∈ Tree.sectionTags := by decide
    have hg := Tree.gains_prepend hw hp ht
    exact ⟨hg.grows, hg.isSection⟩

theorem ensureBody_spec (hw : d.tree.WellFormed) (hp : html < d.tree.size)
    (h : ∀ body, d.body = some body → d.tree.IsSection html "body" body) :
    d.tree.Extends (d.ensureBody html).1.tree ∧
      (d.ensureBody html).1.tree.IsSection html "body" (d.ensureBody html).2 := by
  rw [ensureBody]
  split
  next body he => exact ⟨.refl hw, h body he⟩
  next =>
    have ht : "body" ∈ Tree.sectionTags := by decide
    have hg := Tree.gains_append hw hp ht
    exact ⟨hg.grows, hg.isSection⟩

theorem ensureHtml_of_some (h : d.html = some html) : d.ensureHtml = (d, html) := by
  rw [ensureHtml, h]

theorem ensureHead_of_some {head : NodeId} (h : d.head = some head) :
    d.ensureHead html = (d, head) := by
  rw [ensureHead, h]

theorem ensureBody_of_some {body : NodeId} (h : d.body = some body) :
    d.ensureBody html = (d, body) := by
  rw [ensureBody, h]

theorem ensureHtml_html (d : Document) : d.ensureHtml.1.html = some d.ensureHtml.2 := by
  rw [ensureHtml]
  split
  next h => exact h
  next => rfl

theorem ensureHtml_head (d : Document) : d.ensureHtml.1.head = d.head := by
  rw [ensureHtml]
  split <;> rfl

theorem ensureHtml_body (d : Document) : d.ensureHtml.1.body = d.body := by
  rw [ensureHtml]
  split <;> rfl

theorem ensureHead_body (d : Document) (html : NodeId) : (d.ensureHead html).1.body = d.body := by
  rw [ensureHead]
  split <;> rfl

theorem ensureHead_html (d : Document) (html : NodeId) : (d.ensureHead html).1.html = d.html := by
  rw [ensureHead]
  split <;> rfl

theorem ensureHead_head (d : Document) (html : NodeId) :
    (d.ensureHead html).1.head = some (d.ensureHead html).2 := by
  rw [ensureHead]
  split
  next h => exact h
  next => rfl

theorem ensureBody_html (d : Document) (html : NodeId) : (d.ensureBody html).1.html = d.html := by
  rw [ensureBody]
  split <;> rfl

theorem ensureBody_head (d : Document) (html : NodeId) : (d.ensureBody html).1.head = d.head := by
  rw [ensureBody]
  split <;> rfl

theorem ensureBody_body (d : Document) (html : NodeId) :
    (d.ensureBody html).1.body = some (d.ensureBody html).2 := by
  rw [ensureBody]
  split
  next h => exact h
  next => rfl

/-- The tree of a page with all its sections. -/
def full (d : Document) : Tree :=
  d.ensureStructure.1.tree

def fullHead (d : Document) : NodeId :=
  d.ensureStructure.2.1

def fullBody (d : Document) : NodeId :=
  d.ensureStructure.2.2

theorem fullHead_of_some {head : NodeId} (h : d.head = some head) : d.fullHead = head :=
  congrArg Prod.snd (ensureHead_of_some (d.ensureHtml_head.trans h))

theorem fullBody_of_some {body : NodeId} (h : d.body = some body) : d.fullBody = body :=
  congrArg Prod.snd
    (ensureBody_of_some (((ensureHead_body _ _).trans d.ensureHtml_body).trans h))

/-- A page with all its sections knows of them. -/
theorem ensureStructure_known (d : Document) :
    d.ensureStructure.1.html = some d.ensureHtml.2 ∧
      d.ensureStructure.1.head = some d.fullHead ∧ d.ensureStructure.1.body = some d.fullBody :=
  ⟨((ensureBody_html _ _).trans (ensureHead_html _ _)).trans d.ensureHtml_html,
    (ensureBody_head _ _).trans (ensureHead_head _ _), ensureBody_body _ _⟩

theorem ensureStructure_of_known {head body : NodeId} (hh : d.html = some html)
    (hd : d.head = some head) (hb : d.body = some body) : d.ensureStructure = (d, head, body) := by
  rw [ensureStructure, ensureHtml_of_some hh]
  dsimp only
  rw [ensureHead_of_some hd, ensureBody_of_some hb]

/-- A located page gets all its sections and nothing that is a widget. -/
theorem sections_full (hw : d.tree.WellFormed) (hr : Tree.root < d.tree.size)
    (hl : d.locate = d) :
    d.tree.Extends d.full ∧ d.full.IsSection Tree.root "html" d.ensureHtml.2 ∧
      d.full.IsSection d.ensureHtml.2 "head" d.fullHead ∧
        d.full.IsSection d.ensureHtml.2 "body" d.fullBody := by
  obtain ⟨hhtml, hhead, hbody⟩ := sections_of_located hl
  obtain ⟨e₁, s₁⟩ := ensureHtml_spec hw hr hhtml
  have w₁ := e₁.wellFormed
  have p₁ := w₁.consistent.lt_size s₁.mem
  -- A head or body that is known already is below the root element that is known already.
  obtain ⟨e₂, s₂⟩ := ensureHead_spec w₁ p₁ fun head he => by
    rw [ensureHtml_head] at he
    obtain ⟨html, hs, hsec⟩ := hhead head he
    rw [ensureHtml_of_some hs]
    exact hsec
  have w₂ := e₂.wellFormed
  obtain ⟨e₃, s₃⟩ := ensureBody_spec w₂ (Nat.lt_of_lt_of_le p₁ e₂.size_le) fun body he => by
    rw [ensureHead_body, ensureHtml_body] at he
    obtain ⟨html, hs, hsec⟩ := hbody body he
    have hg := hsec.grow hw (e₁.trans e₂)
    rw [ensureHtml_of_some hs] at hg ⊢
    exact hg
  exact ⟨(e₁.trans e₂).trans e₃, (s₁.grow w₁ e₂).grow w₂ e₃, s₂.grow w₂ e₃, s₃⟩

theorem WellFormed.extends_full (h : d.WellFormed) :
    d.tree.Extends d.full ∧ ∃ html, d.full.Sections html d.fullHead d.fullBody := by
  have hr := Tree.lt_size_of_data? h.root
  obtain ⟨e, s₁, s₂, s₃⟩ := sections_full h.tree hr h.located
  refine ⟨e, d.ensureHtml.2, ⟨e.wellFormed, ?_, s₁.mem, s₂.mem, s₃.mem, s₁.tag, s₂.tag, s₃.tag⟩⟩
  exact (e.data Tree.root hr).trans h.root

theorem locate_tree (d : Document) : d.locate.tree = d.tree := by
  rw [locate]
  split <;> rfl

theorem locate_locate (d : Document) : d.locate.locate = d.locate := by
  cases hf : (d.tree.elementChildren Tree.root).find? fun id => d.tree.isElementNamed id "html" with
  | none =>
    have e : d.locate = { d with html := none, head := none, body := none } := by rw [locate, hf]
    rw [e, locate]
    dsimp only
    rw [hf]
  | some html =>
    have e : d.locate = { d with
        html := some html
        head := (sectionsOf d.tree html).1
        body := (sectionsOf d.tree html).2 } := by
      rw [locate, hf]
    rw [e, locate]
    dsimp only
    rw [hf]

/-- A page put together node by node. -/
def ofNodes (url : String) (nodes : List (NodeId × NodeData)) : Document :=
  locate ⟨.ofNodes nodes, url, none, none, none⟩

theorem wellFormed_ofNodes (url : String) (nodes : List (NodeId × NodeData)) :
    (ofNodes url nodes).WellFormed where
  tree := by
    rw [ofNodes, locate_tree]
    exact Tree.ofNodes_wellFormed nodes
  root := by
    rw [ofNodes, locate_tree]
    exact Tree.data?_root_ofNodes nodes
  located := locate_locate _

end Document

end LivePages
