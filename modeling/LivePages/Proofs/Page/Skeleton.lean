import LivePages.Proofs.Page.Sections

namespace LivePages

/-- What has to be made for a section: nothing if the section is known already. -/
def absent {α : Type} (known : Option NodeId) (a : α) : List α :=
  match known with
  | some _ => []
  | none => [a]

namespace Tree

variable {t t' t'' : Tree} {kids kids' : NodeId → List NodeId} {made : List String} {p c : NodeId}
  {tag : String}

theorem Extends.parent?_eq (h : t.Extends t') (hw : t.WellFormed) (hc : c < t.size) :
    t'.parent? c = t.parent? c := by
  refine Option.ext fun q => ?_
  constructor
  · intro hp
    have hm := h.wellFormed.consistent.mem_of_parent hp
    by_cases hq : q < t.size
    · refine hw.consistent.parent_of_mem ?_
      rw [← h.children q hq]
      exact List.mem_filter.mpr ⟨hm, decide_eq_true hc⟩
    · exact absurd (h.new q c (Nat.le_of_not_lt hq) hm) (Nat.not_le.mpr hc)
  · intro hp
    have hm := hw.consistent.mem_of_parent hp
    exact h.wellFormed.consistent.parent_of_mem
      (h.mem_children hm (hw.consistent.parent_lt_size hm))

/-- The tree has new bare elements with given tags, and its lists of children are the given ones. -/
structure Makes (t : Tree) (made : List String) (kids : NodeId → List NodeId) (t' : Tree) : Prop where
  grows : t.Extends t'
  size : t'.size = t.size + made.length
  data : ∀ j : Nat, t'.data? j =
    if j < t.size then t.data? j else made[j - t.size]?.map fun tag => .element ⟨tag, []⟩
  children : t'.children = kids

namespace Makes

theorem refl (h : t.WellFormed) : t.Makes [] t.children t where
  grows := .refl h
  size := rfl
  data j := by
    split
    next => rfl
    next hj => exact data?_eq_none (Nat.le_of_not_lt hj)
  children := rfl

/-- One more element, wherever it is put. -/
theorem place (h : t.Makes made kids t') (hg : t'.Extends t'')
    (hd : t''.data? = (t'.createElement tag).1.data?) (hk : t''.children = kids') :
    t.Makes (made ++ [tag]) kids' t'' where
  grows := h.grows.trans hg
  size := by
    have hs : (t'.createElement tag).1.size = t'.size + 1 := size_create (t'.intern tag) _
    rw [size_eq_of_data?_eq hd, hs, h.size, List.length_append, List.length_singleton, Nat.add_assoc]
  data j := by
    have hs := h.size
    have hj : t''.data? j = if j = t'.size then some (.element ⟨tag, []⟩) else t'.data? j := by
      rw [hd]
      exact data?_create (t'.intern tag) _ j
    rw [hj, h.data j]
    by_cases hlt : j < t.size
    · have hne : j ≠ t'.size := by omega
      rw [if_neg hne, if_pos hlt, if_pos hlt]
    · rw [if_neg hlt, if_neg hlt]
      by_cases he : j = t'.size
      · have hi : j - t.size = made.length := by omega
        rw [if_pos he, hi, List.getElem?_concat_length, Option.map_some]
      · rw [if_neg he]
        by_cases hl : j - t.size < made.length
        · rw [List.getElem?_append_left hl]
        · rw [List.getElem?_eq_none (by omega),
            List.getElem?_eq_none (by rw [List.length_append, List.length_singleton]; omega)]
  children := hk

theorem congr (h : t.Makes made kids t') {made' : List String} (hm : made' = made)
    (hk : ∀ q, kids' q = kids q) : t.Makes made' kids' t' :=
  hm ▸ funext hk ▸ h

section New

variable (h : t.Makes made kids t') (hp : p < t'.size) (ht : tag ∈ sectionTags)
include h hp ht

theorem append : t.Makes (made ++ [tag]) (fun q => if q = p then kids p ++ [t'.size] else kids q)
    ((t'.createElement tag).1.appendChild p t'.size) := by
  have hw := h.grows.wellFormed
  have hs : (t'.createElement tag).1.size = t'.size + 1 := size_create (t'.intern tag) _
  have hl := (hw.consistent.linked_createElement tag).linked_appendChild (Nat.ne_of_lt hp)
    (hs ▸ Nat.lt_succ_of_lt hp) (hs ▸ Nat.lt_succ_self _)
  have hn (q) : t'.size ∉ t'.children q := hw.consistent.not_mem_of_size_le (Nat.le_refl _)
  refine h.place (gains_append hw hp ht).grows (data?_appendChild _ _ _) ?_
  rw [hl.children_eq, ← h.children]
  funext q
  rw [List.erase_of_not_mem (hn p), List.erase_of_not_mem (hn q)]

theorem prepend : t.Makes (made ++ [tag]) (fun q => if q = p then t'.size :: kids p else kids q)
    ((t'.createElement tag).1.prependChild p t'.size) := by
  have hw := h.grows.wellFormed
  have hs : (t'.createElement tag).1.size = t'.size + 1 := size_create (t'.intern tag) _
  have hl := (hw.consistent.linked_createElement tag).linked_prependChild (Nat.ne_of_lt hp)
    (hs ▸ Nat.lt_succ_of_lt hp) (hs ▸ Nat.lt_succ_self _)
  have hn (q) : t'.size ∉ t'.children q := hw.consistent.not_mem_of_size_le (Nat.le_refl _)
  refine h.place (gains_prepend hw hp ht).grows (data?_prependChild _ _ _) ?_
  rw [hl.children_eq, ← h.children]
  funext q
  rw [List.erase_of_not_mem (hn p), List.erase_of_not_mem (hn q)]

end New

end Makes

/-- The first child of a node that is an element with a given tag. -/
def findSection (t : Tree) (p : NodeId) (tag : String) : Option NodeId :=
  (t.children p).find? fun id => t.isElementNamed id tag

theorem find?_elementChildren (t : Tree) (p : NodeId) (tag : String) :
    ((t.elementChildren p).find? fun id => t.isElementNamed id tag) = t.findSection p tag := by
  rw [elementChildren, List.find?_filter, findSection]
  refine congrArg (List.find? · _) (funext fun id => ?_)
  rw [isElementNamed, tag?]
  cases t.element? id <;> simp [Bool.beq_eq_decide_eq]

theorem Extends.findSection_eq {before after : List NodeId} (h : t.Extends t') (hw : t.WellFormed)
    (hk : t'.children p = before ++ t.children p ++ after) :
    t'.findSection p tag = (before.find? fun id => t'.isElementNamed id tag).or
      ((t.findSection p tag).or (after.find? fun id => t'.isElementNamed id tag)) := by
  have hold : ((t.children p).find? fun id => t'.isElementNamed id tag) = t.findSection p tag := by
    rw [findSection, ← List.head?_filter, ← List.head?_filter]
    refine congrArg List.head? (List.filter_congr fun c hc => ?_)
    rw [isElementNamed, isElementNamed, tag?_congr (h.data c (hw.consistent.lt_size hc))]
  rw [findSection, hk, List.find?_append, List.find?_append, hold, Option.or_assoc]

section Missing

variable {known : Option NodeId} (ht : t.isElementNamed c tag) (hc : ∀ id, known = some id → c = id)
include ht hc

theorem or_find?_absent :
    known.or ((absent known c).find? fun id => t.isElementNamed id tag) = some c := by
  cases known with
  | none => simp [absent, ht]
  | some id => rw [hc id rfl, Option.some_or]

theorem find?_absent_or :
    ((absent known c).find? fun id => t.isElementNamed id tag).or known = some c := by
  cases known with
  | none => simp [absent, ht]
  | some id => rw [hc id rfl, absent, List.find?_nil, Option.none_or]

end Missing

end Tree

namespace Document

variable {d : Document} {t : Tree} {made : List String} {kids : NodeId → List NodeId}
  {html head body : NodeId}

/-- What a page has become when its missing sections have been made: only they are new, each in its
place, and a fresh search finds the sections that the page knows of. -/
structure Completed (d : Document) (html : NodeId) (done : Document × NodeId × NodeId) : Prop where
  wellFormed : done.1.tree.WellFormed
  html_isSection : done.1.tree.IsSection Tree.root "html" html
  head_isSection : done.1.tree.IsSection html "head" done.2.1
  body_isSection : done.1.tree.IsSection html "body" done.2.2
  old_html : ∀ id, d.html = some id → html = id
  old_head : ∀ id, d.head = some id → done.2.1 = id
  old_body : ∀ id, d.body = some id → done.2.2 = id
  size : done.1.tree.size = d.tree.size +
    (absent d.html "html" ++ absent d.head "head" ++ absent d.body "body").length
  data : ∀ j : Nat, done.1.tree.data? j = if j < d.tree.size then d.tree.data? j else
    (absent d.html "html" ++ absent d.head "head" ++ absent d.body "body")[j - d.tree.size]?.map
      fun tag => .element ⟨tag, []⟩
  parent : ∀ j, j < d.tree.size → done.1.tree.parent? j = d.tree.parent? j
  root_children : done.1.tree.children Tree.root =
    d.tree.children Tree.root ++ absent d.html html
  html_children : done.1.tree.children html =
    absent d.head done.2.1 ++ d.tree.children html ++ absent d.body done.2.2
  other_children : ∀ q, q ≠ Tree.root → q ≠ html → done.1.tree.children q = d.tree.children q
  order : ∀ q, q < d.tree.size →
    ((done.1.tree.children q).filter fun c => c < d.tree.size) = d.tree.children q
  url : done.1.url = d.url
  again : done.1.ensureStructure = done
  located : done.1.locate = done.1
  known : done.1.html = some html ∧ done.1.head = some done.2.1 ∧ done.1.body = some done.2.2

/-- What a search of the tree finds is what a located page knows of. -/
theorem findSection_of_located (hl : d.locate = d) (hw : d.tree.WellFormed) :
    d.tree.findSection Tree.root "html" = d.html ∧
      d.tree.findSection d.ensureHtml.2 "head" = d.head ∧
        d.tree.findSection d.ensureHtml.2 "body" = d.body := by
  rw [locate, Tree.find?_elementChildren] at hl
  split at hl
  next hf =>
    have hn : d.ensureHtml.2 = d.tree.size := by rw [← hl]; rfl
    have hc : d.tree.children d.tree.size = [] :=
      List.eq_nil_iff_forall_not_mem.mpr fun c hm =>
        absurd (hw.consistent.parent_lt_size hm) (Nat.lt_irrefl _)
    rw [hf, hn, Tree.findSection, Tree.findSection, hc, ← hl]
    exact ⟨rfl, rfl, rfl⟩
  next html hf =>
    have hn : d.ensureHtml.2 = html := by rw [← hl]; rfl
    rw [hf, hn, ← Tree.find?_elementChildren, ← Tree.find?_elementChildren, ← hl]
    exact ⟨rfl, rfl, rfl⟩

theorem locate_of_findSection (hh : d.html = some html)
    (hr : d.tree.findSection Tree.root "html" = some html)
    (hd : d.tree.findSection html "head" = d.head)
    (hb : d.tree.findSection html "body" = d.body) : d.locate = d := by
  rw [locate, Tree.find?_elementChildren, hr]
  dsimp only
  rw [sectionsOf, Tree.find?_elementChildren, Tree.find?_elementChildren, hd, hb, ← hh]

section Steps

variable (h : t.Makes made kids d.tree)
include h

theorem makes_ensureHtml (hp : Tree.root < d.tree.size) :
    t.Makes (made ++ absent d.html "html")
      (fun q => if q = Tree.root then kids Tree.root ++ absent d.html d.ensureHtml.2 else kids q)
      d.ensureHtml.1.tree := by
  rw [ensureHtml]
  split
  next e =>
    rw [e]
    exact h.congr (List.append_nil _) fun q => by split <;> simp [absent, *]
  next e =>
    rw [e]
    exact h.append hp (by decide)

theorem makes_ensureHead (hp : html < d.tree.size) :
    t.Makes (made ++ absent d.head "head")
      (fun q => if q = html then absent d.head (d.ensureHead html).2 ++ kids html else kids q)
      (d.ensureHead html).1.tree := by
  rw [ensureHead]
  split
  next e =>
    rw [e]
    exact h.congr (List.append_nil _) fun q => by split <;> simp [absent, *]
  next e =>
    rw [e]
    exact h.prepend hp (by decide)

theorem makes_ensureBody (hp : html < d.tree.size) :
    t.Makes (made ++ absent d.body "body")
      (fun q => if q = html then kids html ++ absent d.body (d.ensureBody html).2 else kids q)
      (d.ensureBody html).1.tree := by
  rw [ensureBody]
  split
  next e =>
    rw [e]
    exact h.congr (List.append_nil _) fun q => by split <;> simp [absent, *]
  next e =>
    rw [e]
    exact h.append hp (by decide)

end Steps

/-- The lists of a page with all its sections. -/
def fullKids (d : Document) (q : NodeId) : List NodeId :=
  if q = d.ensureHtml.2 then
    absent d.head d.fullHead ++ d.tree.children q ++ absent d.body d.fullBody
  else if q = Tree.root then d.tree.children q ++ absent d.html d.ensureHtml.2
  else d.tree.children q

theorem ensureStructure_url (d : Document) : d.ensureStructure.1.url = d.url := by
  have html (d : Document) : d.ensureHtml.1.url = d.url := by
    rw [ensureHtml]
    split <;> rfl
  have head (d : Document) (html : NodeId) : (d.ensureHead html).1.url = d.url := by
    rw [ensureHead]
    split <;> rfl
  have body (d : Document) (html : NodeId) : (d.ensureBody html).1.url = d.url := by
    rw [ensureBody]
    split <;> rfl
  exact ((body _ _).trans (head _ _)).trans (html d)

section Full

variable (hw : d.tree.WellFormed) (hr : Tree.root < d.tree.size) (hl : d.locate = d)
include hw hr hl

theorem ensureHtml_ne_root : d.ensureHtml.2 ≠ Tree.root :=
  have ⟨e, s, _⟩ := sections_full hw hr hl
  (e.wellFormed.ne_of_child s.mem).symm

theorem makes_full :
    d.tree.Makes (absent d.html "html" ++ absent d.head "head" ++ absent d.body "body")
      d.fullKids d.full := by
  obtain ⟨e₁, s₁⟩ := ensureHtml_spec hw hr (sections_of_located hl).1
  have p₁ := e₁.wellFormed.consistent.lt_size s₁.mem
  have h₂ := makes_ensureHead (makes_ensureHtml (.refl hw) hr) p₁
  have hle := (makes_ensureHead (.refl e₁.wellFormed) p₁).grows.size_le
  have h₃ := makes_ensureBody h₂ (Nat.lt_of_lt_of_le p₁ hle)
  rw [ensureHead_body, ensureHtml_head, ensureHtml_body] at h₃
  refine h₃.congr rfl fun q => ?_
  have hn := ensureHtml_ne_root hw hr hl
  rw [fullKids]
  by_cases hq : q = d.ensureHtml.2
  · rw [if_pos hq, if_pos hq, if_pos rfl, if_neg hn, hq]
    rfl
  · rw [if_neg hq, if_neg hq, if_neg hq]
    by_cases hq' : q = Tree.root
    · rw [if_pos hq', if_pos hq', hq']
    · rw [if_neg hq', if_neg hq']

theorem findSection_full :
    d.full.findSection Tree.root "html" = some d.ensureHtml.2 ∧
      d.full.findSection d.ensureHtml.2 "head" = some d.fullHead ∧
        d.full.findSection d.ensureHtml.2 "body" = some d.fullBody := by
  obtain ⟨e, s₁, s₂, s₃⟩ := sections_full hw hr hl
  obtain ⟨f₁, f₂, f₃⟩ := findSection_of_located hl hw
  have hn := ensureHtml_ne_root hw hr hl
  have hm := (makes_full hw hr hl).children
  have named {id : NodeId} {tag : String} (h : d.full.tag? id = some tag) :
      d.full.isElementNamed id tag := by
    rw [Tree.isElementNamed, h, beq_self_eq_true]
  have hk : d.full.children d.ensureHtml.2 = absent d.head d.fullHead ++
      d.tree.children d.ensureHtml.2 ++ absent d.body d.fullBody := by
    rw [hm, fullKids, if_pos rfl]
  have hhead : ((absent d.head d.fullHead).find? fun id => d.full.isElementNamed id "body") = none := by
    cases d.head with
    | none => simp [absent, Tree.isElementNamed, s₂.tag]
    | some id => rfl
  refine ⟨?_, ?_, ?_⟩
  · have hk : d.full.children Tree.root =
        [] ++ d.tree.children Tree.root ++ absent d.html d.ensureHtml.2 := by
      rw [hm, fullKids, if_neg hn.symm, if_pos rfl, List.nil_append]
    rw [e.findSection_eq hw hk, List.find?_nil, Option.none_or, f₁]
    exact Tree.or_find?_absent (named s₁.tag) fun _ h => congrArg Prod.snd (ensureHtml_of_some h)
  · rw [e.findSection_eq hw hk, f₂, ← Option.or_assoc,
      Tree.find?_absent_or (named s₂.tag) fun _ => fullHead_of_some, Option.some_or]
  · rw [e.findSection_eq hw hk, hhead, Option.none_or, f₃]
    exact Tree.or_find?_absent (named s₃.tag) fun _ => fullBody_of_some

/-- Completing a located page makes what is missing and nothing else. -/
theorem completed_of_located : d.Completed d.ensureHtml.2 d.ensureStructure := by
  obtain ⟨e, s₁, s₂, s₃⟩ := sections_full hw hr hl
  obtain ⟨f₁, f₂, f₃⟩ := findSection_full hw hr hl
  obtain ⟨k₁, k₂, k₃⟩ := ensureStructure_known d
  have hm := makes_full hw hr hl
  have hn := ensureHtml_ne_root hw hr hl
  have hk (q) : d.ensureStructure.1.tree.children q = d.fullKids q := congrFun hm.children q
  exact {
    wellFormed := e.wellFormed
    html_isSection := s₁
    head_isSection := s₂
    body_isSection := s₃
    old_html := fun id h => congrArg Prod.snd (ensureHtml_of_some h)
    old_head := fun _ => fullHead_of_some
    old_body := fun _ => fullBody_of_some
    size := hm.size
    data := hm.data
    parent := fun _ hj => e.parent?_eq hw hj
    root_children := by rw [hk, fullKids, if_neg hn.symm, if_pos rfl]
    html_children := by rw [hk, fullKids, if_pos rfl]; rfl
    other_children := fun q hq hq' => by rw [hk, fullKids, if_neg hq', if_neg hq]
    order := e.children
    url := ensureStructure_url d
    again := ensureStructure_of_known k₁ k₂ k₃
    located := locate_of_findSection k₁ f₁ (f₂.trans k₂.symm) (f₃.trans k₃.symm)
    known := ⟨k₁, k₂, k₃⟩ }

end Full

/-- After a search for the sections, completing the page makes the ones that are missing, each in
its place, and leaves all else as it is; neither a second completion nor a second search changes
anything. -/
theorem locate_completed (d : Document) (hw : d.tree.WellFormed) (hr : Tree.root < d.tree.size) :
    ∃ html, d.locate.Completed html d.locate.ensureStructure := by
  have hl := locate_locate d
  rw [← locate_tree d] at hw hr
  exact ⟨_, completed_of_located hw hr hl⟩

/-- A page with two root elements and two bodies, whose only head is in a body. -/
def strayHead : Document where
  tree := .ofNodes [(0, .element ⟨"html", []⟩), (1, .element ⟨"body", []⟩),
    (2, .element ⟨"head", []⟩), (1, .element ⟨"body", []⟩), (0, .element ⟨"html", []⟩)]
  url := "/"
  html := none
  head := none
  body := none

theorem strayHead_completed : strayHead.tree.WellFormed ∧ Tree.root < strayHead.tree.size ∧
    (∃ html, strayHead.locate.Completed html strayHead.locate.ensureStructure) ∧
      strayHead.locate.full.children 1 = [6, 2, 4] := by
  have hw : strayHead.tree.WellFormed := Tree.ofNodes_wellFormed _
  have hr : Tree.root < strayHead.tree.size := by decide
  exact ⟨hw, hr, locate_completed strayHead hw hr, by decide⟩

end Document

end LivePages
