import LivePages.Proofs.Page.HeadSection

namespace LivePages

namespace Template

theorem IsHead.eq_of_agrees {a b : Template} (ha : a.IsHead) (hb : b.IsHead) (h : a.Agrees b) :
    a = b := by
  have hp := h.attributes
  have hl := hp.length_eq
  cases ha with
  | roomName =>
    cases hb with
    | roomName => rfl
    | source src => exact absurd hl (Nat.zero_ne_one)
    | style href => exact absurd hl (Nat.zero_ne_add_one 1)
  | source src =>
    cases hb with
    | roomName => exact absurd hl Nat.one_ne_zero
    | source src' =>
      cases (List.singleton_perm_singleton.mp hp)
      rfl
    | style href => exact absurd hl (Nat.ne_of_lt (Nat.lt_succ_self 1))
  | style href =>
    cases hb with
    | roomName => exact absurd hl (Nat.succ_ne_zero 1)
    | source src => exact absurd hl (Nat.ne_of_gt (Nat.lt_succ_self 1))
    | style href' =>
      cases (List.singleton_perm_singleton.mp ((List.perm_cons _).mp hp))
      rfl

/-- Where additions are seen, what is lacking in a head is what is not there, each at the place where
it is asked for first. -/
theorem lacking_eq_eraseDups {present : Template → Bool} {as : List Template}
    (ha : ∀ a ∈ as, a.IsHead) :
    lacking true present as = (as.filter fun a => !present a).eraseDups := by
  induction as generalizing present with
  | nil => rfl
  | cons a as ih =>
    rw [List.forall_mem_cons] at ha
    rw [lacking]
    cases hp : present a with
    | true => rw [if_pos rfl, ih ha.2, List.filter_cons_of_neg (by simp [hp])]
    | false =>
      rw [if_neg Bool.false_ne_true, ih ha.2, List.filter_cons_of_pos (by simp [hp]),
        List.eraseDups_cons, List.filter_filter]
      refine congrArg (a :: ·.eraseDups) (List.filter_congr fun b hb => ?_)
      have hab : decide (a.Agrees b) = (b == a) := by
        rw [Bool.eq_iff_iff, decide_eq_true_iff, beq_iff_eq]
        exact ⟨fun h => (ha.1.eq_of_agrees (ha.2 b hb) h).symm, fun h => h ▸ .refl b⟩
      rw [hab, Bool.true_and, Bool.not_or, Bool.and_comm]

end Template

namespace Layout

variable {l : Layout} {c q : NodeId}

/-- Without anchors in it a list keeps its entries, and the new elements follow the marker. -/
theorem children_of_marker {m : NodeId} {before after : List NodeId} (hm : l.marker = some m)
    (hb : l.base q = before ++ m :: after) (hd : (l.base q).Nodup)
    (ha : ∀ c ∈ l.base q, c ∉ l.anchors) :
    l.children q = before ++ [m] ++ l.addedIds ++ after := by
  have ht : l.tail q = [] := if_neg fun h => Option.some_ne_none m (hm.symm.trans h.2)
  rw [hb, List.nodup_middle, List.nodup_cons, List.mem_append, not_or] at hd
  have block {cs : List NodeId} (hc : ∀ c ∈ cs, c ∈ l.base q) (hn : m ∉ cs) :
      cs.flatMap l.block = cs := by
    have hs (c) (hcs : c ∈ cs) : l.block c = [c] :=
      block_other (fun e => hn (Option.some.inj (hm.symm.trans e) ▸ hcs)) (ha c (hc c hcs))
    rw [List.flatMap_congr hs, List.flatMap_singleton']
  rw [children, ht, hb, List.flatMap_append, List.flatMap_cons, block_marker hm,
    block (fun c hc => by simp [hb, hc]) hd.1.1, block (fun c hc => by simp [hb, hc]) hd.1.2]
  simp

theorem children_of_unmarked (hm : ∀ c ∈ l.base q, l.marker ≠ some c)
    (ha : ∀ c ∈ l.base q, c ∉ l.anchors) : l.children q = l.base q ++ l.tail q := by
  have hs (c) (hc : c ∈ l.base q) : l.block c = [c] := block_other (hm c hc) (ha c hc)
  rw [children, List.flatMap_congr hs, List.flatMap_singleton']

end Layout

namespace Tree.Compiled

variable {t t' : Tree} {html body connection ready id : NodeId} {url : PageUrl}
  {ws : List WidgetDescriptor} {l : Layout}

section Head

variable (hc : t.Compiled body url ws l connection ready t') (hs : t.Sections html l.head body)
  (hn : ∀ id, t.Below l.head id → ¬ t.IsWidget id)
include hc hs hn

/-- What gives way to a widget is in the head only if the widget is. -/
theorem not_anchor_of_below (hb : t.Below l.head id) : id ∉ l.anchors := by
  intro ha
  obtain ⟨w, hw, rfl⟩ := hc.follows.anchor_cases ha
  have hi := hc.follows.widgets w hw
  rcases t.anchor_cases w.node with e | ⟨hp, -⟩
  · exact hn _ (e ▸ hb) hi
  · exact hn _ (hb.tail (hs.wellFormed.consistent.mem_of_parent hp)) hi

theorem not_anchor_of_child {q : NodeId} (hq : q = l.head ∨ t.Below l.head q) {c : NodeId}
    (hm : c ∈ t.children q) : c ∉ l.anchors := by
  refine hc.not_anchor_of_below hs hn ?_
  rcases hq with rfl | hq
  · exact .single hm
  · exact hq.tail hm

/-- The children of the head are what they were, with one block of new elements: behind the marker,
or at the end. -/
theorem head_children (hseen : l.seen t) : ∃ before after,
    t.children l.head = before ++ after ∧
      (match l.marker with
        | some m => before.getLast? = some m
        | none => after = []) ∧
      t'.children l.head = before ++ l.addedIds ++ after := by
  have hb := hc.follows.base l.head hs.head_ne_body
  have ha : ∀ c ∈ l.base l.head, c ∉ l.anchors := fun c hm =>
    hc.not_anchor_of_child hs hn (.inl rfl) (hb ▸ hm)
  have hk : t'.children l.head = l.children l.head :=
    hc.follows.laid.grown.children l.head hs.head_lt
  cases hm : l.marker with
  | none =>
    refine ⟨t.children l.head, [], by simp, rfl, ?_⟩
    have ht : l.tail l.head = l.addedIds := if_pos ⟨rfl, hm⟩
    rw [hk, Layout.children_of_unmarked (by simp [hm]) ha, ht, hb, List.append_nil]
  | some m =>
    have hmem : m ∈ t.children l.head := by
      simpa [Layout.seen, hm] using hseen
    obtain ⟨before, after, hsplit⟩ := List.append_of_mem hmem
    refine ⟨before ++ [m], after, by simp [hsplit], by simp, ?_⟩
    have hd : (l.base l.head).Nodup := hb ▸ hs.wellFormed.consistent.distinct l.head
    rw [hk, Layout.children_of_marker hm (hb.trans hsplit) hd ha]

/-- Below the head nothing changes. -/
theorem children_below_head (hseen : l.seen t) (hb : t.Below l.head id) :
    t'.children id = t.children id := by
  have hwf := hs.wellFormed
  have hne : id ≠ l.head := fun e => hwf.acyclic l.head (e ▸ hb)
  have hbody : id ≠ body := fun e =>
    hwf.not_below_sibling hs.head_mem hs.body_mem (e ▸ hb)
  have hbase := hc.follows.base id hbody
  have hm : ∀ c ∈ l.base id, l.marker ≠ some c := by
    intro c hmem hm
    have hchild : c ∈ t.children l.head := by
      simpa [Layout.seen, hm] using hseen
    exact hne (hwf.parent_eq (hbase ▸ hmem) hchild)
  have ha : ∀ c ∈ l.base id, c ∉ l.anchors := fun c hmem =>
    hc.not_anchor_of_child hs hn (.inr hb) (hbase ▸ hmem)
  rw [hc.follows.laid.grown.children id (hwf.below_lt_size hb), Layout.children_of_unmarked hm ha,
    Layout.tail_of_ne hne, List.append_nil, hbase]

end Head

theorem made_added (hc : t.Compiled body url ws l connection ready t') :
    List.Forall₂ (fun n a => t.size ≤ n ∧ t'.MadeFrom n a) l.addedIds (l.added.map Prod.snd) := by
  rw [Layout.addedIds, List.forall₂_map_left_iff, List.forall₂_map_right_iff, List.forall₂_same]
  intro e he
  exact hc.follows.laid.grown.fresh e.1 e.2 (List.mem_append_left _ (List.mem_append_right _ he))

end Tree.Compiled

namespace Document

variable {d : Document} {url : PageUrl} {s : Settings} {page : CompiledPage}

/-- No widget is in the head. -/
def HeadPlain (d : Document) : Prop :=
  ∀ head, d.head = some head → ∀ id, d.tree.Below head id → ¬ d.tree.IsWidget id

theorem WellFormed.headPlain_full (hd : d.WellFormed) (hp : d.HeadPlain) {id : NodeId}
    (hb : d.full.Below d.fullHead id) : ¬ d.full.IsWidget id := by
  obtain ⟨he, -⟩ := hd.extends_full
  by_cases hid : id < d.tree.size
  · rw [he.isWidget_iff hid]
    cases hh : d.head with
    | none => exact absurd (he.above_new hb (hd.full_of_none hh).1) (Nat.not_le.mpr hid)
    | some head =>
      rw [(hd.full_of_some hh).1] at hb
      exact hp head hh id (he.below_old hb hid)
  · exact he.plain (Nat.le_of_not_lt hid)

/-- What a list of templates adds to the head: those that no child matches, each once. -/
def missing (d : Document) (templates : List Template) : List Template :=
  (templates.filter fun a => !d.full.containsTemplate d.fullHead a).eraseDups

/-- The head of a compiled page is the head of the page with all its sections, and one block of new
elements in it. -/
structure HeadFilled (d : Document) (page : CompiledPage) : Prop where
  head : page.document.head = some d.fullHead
  widgets : page.widgets.map WidgetDescriptor.node =
    d.tree.elementsNamed Tree.root WidgetKind.tags
  block : ∃ before block after, d.full.children d.fullHead = before ++ after ∧
    (match d.marker? with
      | some m => before.getLast? = some m
      | none => after = []) ∧
    page.document.tree.children d.fullHead = before ++ block ++ after ∧
    List.Forall₂ (fun n a => d.full.size ≤ n ∧ page.document.tree.MadeFrom n a) block
      (d.missing page.headTemplates)
  data : ∀ id, id = d.fullHead ∨ d.full.Below d.fullHead id →
    page.document.tree.data? id = d.full.data? id
  below : ∀ id, d.full.Below d.fullHead id →
    page.document.tree.children id = d.full.children id

theorem WellFormed.headPlain_of_head (hd : d.WellFormed) {head : NodeId} (hh : d.head = some head)
    (hn : ∀ id ∈ d.tree.descendants head, ¬ d.tree.IsWidget id) : d.HeadPlain := by
  rintro _ he id hb
  cases Option.some.inj (hh.symm.trans he)
  exact hn id (hd.tree.mem_descendants.mpr hb)

/-- All that a page lacks goes into its head in one piece, behind the marker or at the end, and
nothing else in the head changes. -/
theorem headFilled_compile (hd : d.WellFormed) (hp : d.HeadPlain) (hm : d.MarkerInHead)
    (h : d.compile url s = .ok page) (hw : page.widgets ≠ []) : d.HeadFilled page := by
  obtain ⟨-, -, hpage⟩ := of_compile h hw
  obtain ⟨he, -⟩ := hd.extends_full
  obtain ⟨html, l, connection, ready, hl, hs, hc⟩ := hd.compiled h hw
  have hn (id) (hb : d.full.Below l.head id) : ¬ d.full.IsWidget id :=
    hd.headPlain_full hp (hl ▸ hb)
  have hseen : l.seen d.full := (hd.seen_iff hl hc.marker).mpr hm
  have hmarker : l.marker = d.marker? := by
    rw [hc.marker, hl, hd.marker?_full]
  have hgrown : d.full.Grown l.children l.made page.document.tree := hc.follows.laid.grown
  have hadded : l.added.map Prod.snd = d.missing page.headTemplates := by
    have hurl : page.url = url := congrArg CompiledPage.url hpage
    have hhead (a) (ha : a ∈ page.headTemplates) : a.IsHead := CompiledPage.isHead_of_mem ha
    have ha := hc.follows.added
    rwa [hseen, ← hurl, ← CompiledPage.headTemplates, Template.lacking_eq_eraseDups hhead, hl] at ha
  obtain ⟨before, after, hsplit, hend, hk⟩ := hc.head_children hs hn hseen
  rw [hmarker] at hend
  rw [hl] at hsplit hk
  exact {
    head := (congrArg (fun p : CompiledPage => p.document.head) hpage).trans (ensureStructure_known d).2.1
    widgets := by
      rw [(hd.holds h hw).nodes, he.elementsNamed_eq hd.tree hd.root]
    block := ⟨before, l.addedIds, after, hsplit, hend, hk, hadded ▸ hc.made_added⟩
    data := fun id hid => by
      refine hgrown.data id ?_
      rcases hid with rfl | hb
      · exact hl ▸ hs.head_lt
      · exact hs.wellFormed.below_lt_size hb
    below := fun id hb => hc.children_below_head hs hn hseen (hl ▸ hb) }

/-- A page with a marker, a script that its button needs, and a title in its head. -/
def markedPage : Document :=
  ofNodes "/" [(0, .element ⟨"html", []⟩), (1, .element ⟨"head", []⟩),
    (2, .comment " interactive-widgets "), (2, .element ⟨"script", [("src", "Widget.js")]⟩),
    (2, .element ⟨"title", []⟩), (1, .element ⟨"body", []⟩),
    (6, .element ⟨"x-button",
      [("name", "a"), ("command", "ls"), ("image", "alpine"), ("label", "List")]⟩)]

theorem headFilled_markedPage : ∃ page, markedPage.compile .root .default = .ok page ∧
    page.widgets ≠ [] ∧ markedPage.HeadFilled page := by
  have hi : (markedPage.compile .root .default).toOption.any CompiledPage.isInteractive := by
    decide +kernel
  obtain ⟨page, h, hw⟩ := exists_compile hi
  have hd : markedPage.WellFormed := wellFormed_ofNodes "/" _
  have hhead : markedPage.head = some 2 := by decide +kernel
  have hmarker : markedPage.marker? = some 3 := by decide +kernel
  have hp : markedPage.HeadPlain := hd.headPlain_of_head hhead (by decide +kernel)
  have hm : markedPage.MarkerInHead := by
    intro head hh m hm
    cases Option.some.inj (hhead.symm.trans hh)
    cases Option.some.inj (hmarker.symm.trans hm)
    decide +kernel
  exact ⟨page, h, hw, headFilled_compile hd hp hm h hw⟩

/-- A page with empty sections. -/
def plainPage : Document :=
  ofNodes "/" [(0, .element ⟨"html", []⟩), (1, .element ⟨"head", []⟩), (1, .element ⟨"body", []⟩)]

/-- A page without widgets stays as it is and gets no session. -/
theorem not_headFilled_plainPage : ∃ page, plainPage.WellFormed ∧ plainPage.HeadPlain ∧
    plainPage.MarkerInHead ∧ plainPage.compile .root .default = .ok page ∧
    ¬ plainPage.HeadFilled page := by
  have hd : plainPage.WellFormed := wellFormed_ofNodes "/" _
  have hhead : plainPage.head = some 2 := by decide +kernel
  have hmarker : plainPage.marker? = none := by decide +kernel
  have hnone : (plainPage.widgets .root).isEmpty := by decide +kernel
  have hc : plainPage.compile .root .default = .ok ⟨.root, [], plainPage, .empty⟩ :=
    compile_of_nil (List.isEmpty_iff.mp hnone) .default
  refine ⟨_, hd, hd.headPlain_of_head hhead (by decide +kernel), ?_, hc, fun h => ?_⟩
  · intro _ _ m hm
    cases hmarker.symm.trans hm
  · obtain ⟨before, block, after, -, -, hk, hmade⟩ := h.block
    have hempty : plainPage.tree.children plainPage.fullHead = [] := by decide +kernel
    have hblock : block = [] := by
      rw [hempty] at hk
      exact (List.append_eq_nil_iff.mp (List.append_eq_nil_iff.mp hk.symm).1).2
    have hl := hmade.length_eq
    rw [hblock] at hl
    revert hl
    decide +kernel

end Document

end LivePages
