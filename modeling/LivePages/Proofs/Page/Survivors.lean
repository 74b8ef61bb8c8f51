import LivePages.Proofs.Page.Discovery

namespace LivePages

theorem filter_erase {α : Type} [BEq α] [LawfulBEq α] {l : List α} {a : α} {p : α → Bool}
    (h : p a = false) : (l.erase a).filter p = l.filter p := by
  induction l with
  | nil => rfl
  | cons c l ih =>
    by_cases hc : c = a
    · rw [hc, List.erase_cons_head, List.filter_cons_of_neg (by simp [h])]
    · rw [List.erase_cons_tail (by simpa using hc), List.filter_cons, List.filter_cons, ih]

namespace Tree

variable {t t' : Tree} {w a id : NodeId}

/-- A node is the document or somewhere below it. -/
def Attached (t : Tree) (id : NodeId) : Prop :=
  id = root ∨ t.Below root id

/-- What disappears with a widget's markup: the markup, and the paragraph around it if all other
children of the paragraph are blank texts. -/
def GivesWay (t : Tree) (w a : NodeId) : Prop :=
  a = w ∨ t.parent? w = some a ∧ t.tag? a = some "p" ∧
    ∀ c ∈ t.children a, c ≠ w → ∃ text, t.text? c = some text ∧ text.toList.all isBlank

theorem isSoleContent_iff {p : NodeId} : t.isSoleContent p w ↔
    ∀ c ∈ t.children p, c ≠ w → ∃ text, t.text? c = some text ∧ text.toList.all isBlank := by
  rw [isSoleContent_eq, List.all_eq_true]
  refine forall₂_congr fun c _ => ?_
  rw [isBlankBeside, Bool.or_eq_true, beq_iff_eq, or_iff_not_imp_left]
  refine imp_congr_right fun _ => ?_
  cases t.text? c <;> simp

theorem givesWay_anchor (t : Tree) (w : NodeId) : t.GivesWay w (t.anchor w) := by
  rcases t.anchor_cases w with h | ⟨hp, hn, hs⟩
  · exact .inl h
  · exact .inr ⟨hp, tag?_of_named hn, isSoleContent_iff.mp hs⟩

theorem WellFormed.anchor_of_givesWay (h : t.WellFormed) (hg : t.GivesWay w a) :
    a = t.anchor w ∨ a = w ∧ t.Below (t.anchor w) a := by
  rcases hg with rfl | ⟨hp, ht, hs⟩
  · rcases t.anchor_cases a with h' | ⟨hp, -⟩
    · exact .inl h'.symm
    · exact .inr ⟨rfl, .single (h.consistent.mem_of_parent hp)⟩
  · have hn : t.isElementNamed a "p" := beq_iff_eq.mpr ht
    have hs := isSoleContent_iff.mpr hs
    refine .inl ?_
    rw [anchor, hp]
    exact (if_pos (by rw [hn, hs]; rfl)).symm

/-- A node disappears with a widget if it is at or below what gives way to it. -/
theorem WellFormed.givesWay_iff (h : t.WellFormed) : (∃ a, t.GivesWay w a ∧ (id = a ∨ t.Below a id)) ↔
    id = t.anchor w ∨ t.Below (t.anchor w) id := by
  constructor
  · rintro ⟨a, ha, hid⟩
    rcases h.anchor_of_givesWay ha with rfl | ⟨-, hb⟩
    · exact hid
    · refine .inr ?_
      rcases hid with rfl | hid
      · exact hb
      · exact hb.trans hid
  · exact fun hid => ⟨t.anchor w, t.givesWay_anchor w, hid⟩

end Tree

namespace Tree.Compiled

variable {t t' : Tree} {html body connection ready a c p q id x : NodeId} {url : PageUrl}
  {ws : List WidgetDescriptor} {l : Layout}

theorem anchors_eq (hc : t.Compiled body url ws l connection ready t') :
    l.anchors = ws.map fun w => t.anchor w.node := by
  have h := congrArg (List.map Prod.fst) hc.follows.placed
  rw [List.map_map, List.map_map] at h
  exact h

theorem mem_anchors (hc : t.Compiled body url ws l connection ready t') :
    a ∈ l.anchors ↔ ∃ w ∈ ws, t.anchor w.node = a := by
  rw [hc.anchors_eq, List.mem_map]

section Children

variable (hc : t.Compiled body url ws l connection ready t') (hs : t.Sections html l.head body)
include hc hs

omit hs in
theorem mem_of_base (hx : x < t.size) (hm : x ∈ l.base q) : x ∈ t.children q := by
  by_cases hq : q = body
  · obtain ⟨first, last, -, hcon, hready⟩ := hc.session
    rw [hq, hc.ends, List.mem_cons, List.mem_append, List.mem_singleton] at hm
    rcases hm with rfl | hm | rfl
    · exact hq ▸ hcon.mem_of_lt hx
    · exact hq ▸ List.mem_of_mem_erase (List.mem_of_mem_erase hm)
    · exact hq ▸ hready.mem_of_lt hx
  · exact hc.follows.base q hq ▸ hm

omit hs in
theorem mem_of_new (hq : q < t.size) (hx : x < t.size) (hm : x ∈ t'.children q) :
    x ∈ t.children q ∧ x ∉ l.anchors := by
  have hn := hc.follows.laid.not_new_of_lt hx
  rw [hc.follows.laid.grown.children q hq, Layout.children] at hm
  rcases List.mem_append.mp hm with hm | hm
  · obtain ⟨c, hcb, hxb⟩ := List.mem_flatMap.mp hm
    have e : x = c := (Layout.mem_block hxb).resolve_right fun h => hn (List.mem_append.mpr h)
    cases e
    refine ⟨hc.mem_of_base hx hcb, fun ha => ?_⟩
    exact Layout.anchor_not_mem_block (hc.follows.laid.marker_ne (hc.follows.laid.anchors x ha)) ha
      (fun h => hn (List.mem_append_right _ h)) hxb
  · exact absurd (List.mem_append_left _ (Layout.mem_tail hm)) hn

theorem mem_of_old (hx : x ∈ t.children q) (ha : x ∉ l.anchors) : x ∈ t'.children q := by
  have hq := hs.wellFormed.consistent.parent_lt_size hx
  rw [hc.follows.laid.grown.children q hq]
  exact Layout.mem_children ha (hc.follows.kept q x hx)

/-- What is attached afterwards was attached before and is neither an anchor nor below one. -/
theorem below_of_new (hw : ∀ w ∈ ws, t.Below root w.node) (hb : t'.Below root id)
    (hid : id < t.size) : t.Below root id ∧ ∀ a, a ∈ l.anchors → id ≠ a ∧ ¬ t.Below a id := by
  have hwf := hs.wellFormed
  induction hb with
  | single hm =>
    obtain ⟨hm, ha⟩ := hc.mem_of_new (lt_size_of_data? hs.root) hid hm
    refine ⟨.single hm, fun a h => ⟨fun e => ha (e ▸ h), fun hba => ?_⟩⟩
    -- Nothing that has given way is above the document.
    obtain ⟨w, hmw, rfl⟩ := hc.mem_anchors.mp h
    have hra := hwf.below_anchor hs.root (hw w hmw)
    rcases hwf.below_child hba hm with e | hba
    · exact hwf.acyclic root (e ▸ hra)
    · exact hwf.acyclic root (hra.trans hba)
  -- An old node is below an old node, as a new one has only texts that are new.
  | @tail q id hb hm ih =>
    have hq : q < t.size := by
      by_contra hq
      exact absurd hid (Nat.not_lt.mpr (hc.follows.laid.grown.texts q id (Nat.le_of_not_lt hq) hm).1)
    obtain ⟨hm, ha⟩ := hc.mem_of_new hq hid hm
    obtain ⟨hbq, hqa⟩ := ih hq
    refine ⟨.tail hbq hm, fun a h => ⟨fun e => ha (e ▸ h), fun hba => ?_⟩⟩
    rcases hwf.below_child hba hm with e | hba
    · exact (hqa a h).1 e.symm
    · exact (hqa a h).2 hba

theorem below_of_old (hb : t.Below root id) (ha : ∀ a, a ∈ l.anchors → id ≠ a ∧ ¬ t.Below a id) :
    t'.Below root id := by
  induction hb with
  | single hm => exact .single (hc.mem_of_old hs hm fun h => (ha _ h).1 rfl)
  | tail hb hm ih =>
    refine .tail (ih fun a h => ⟨?_, fun hba => (ha a h).2 (.tail hba hm)⟩)
      (hc.mem_of_old hs hm fun h => (ha _ h).1 rfl)
    rintro rfl
    exact (ha _ h).2 (.single hm)

end Children

/-- What a page gets is for its session, for its head or for one of its widgets. -/
theorem made_cases (hc : t.Compiled body url ws l connection ready t') {e : NodeId × Template}
    (he : e ∈ l.made) : e.2.IsSession ∨ e.2.IsHead ∨ ∃ x ∈ l.placed, ∃ w ∈ ws, e ∈ x.2 ∧
      x.1 = t.anchor w.node ∧ x.2.map Prod.snd = w.templates := by
  rcases List.mem_append.mp he with he | he
  · rcases List.mem_append.mp he with he | he
    · obtain ⟨first, last, hs, hcon, hready⟩ := hc.session
      rw [hs] at he
      rcases List.mem_append.mp he with he | he
      · exact .inl (hcon.template he ▸ .connection)
      · exact .inl (hready.template he ▸ .ready)
    · exact .inr (.inl (hc.follows.isHead_added he))
  · obtain ⟨x, hx, hex⟩ := List.mem_flatMap.mp he
    obtain ⟨w, hw, ha, ht⟩ := hc.follows.placed_cases hx
    exact .inr (.inr ⟨x, hx, w, hw, hex, ha, ht⟩)

theorem tag_of_made (hc : t.Compiled body url ws l connection ready t') {e : NodeId × Template}
    (he : e ∈ l.made) : e.2.tag ∈ ["script", "link", "div"] := by
  rcases hc.made_cases he with h | h | ⟨x, -, w, -, hex, -, ht⟩
  · simp [h.tag]
  · rcases h.tag with h | h <;> simp [h]
  · have hm : e.2 ∈ w.templates := ht ▸ List.mem_map_of_mem hex
    rcases WidgetDescriptor.mem_templates.mp hm with h | h
    · simp [WidgetDescriptor.tag_container h]
    · simp [h, Template.tag_instantiation]

theorem new_not_isWidget (hc : t.Compiled body url ws l connection ready t') (hx : t.size ≤ x) :
    ¬ t'.IsWidget x := by
  rintro ⟨tag, hm, ht⟩
  obtain ⟨e, he, rfl⟩ := element?_of_tag? ht
  obtain ⟨y, hy, rfl⟩ := List.mem_map.mp (hc.follows.laid.grown.complete x e hx he)
  obtain ⟨e', he', ht'⟩ := element?_of_matches (hc.follows.laid.grown.new y.1 y.2 hy).2
  cases Option.some.inj (he.symm.trans he')
  have hy := hc.tag_of_made hy
  rw [← ht'] at hy
  revert hm hy
  generalize e.tag = tag
  simp only [List.mem_cons, List.not_mem_nil, or_false]
  rintro hm (rfl | rfl | rfl) <;> exact absurd hm (by decide)

section Staying

variable {P : NodeId → Bool}

/-- Of what stands in the place of a node only the node itself can be old. -/
theorem filter_block (hc : t.Compiled body url ws l connection ready t')
    (hP : ∀ x, P x → x < t.size ∧ x ∉ l.anchors) (c : NodeId) :
    (l.block c).filter P = [c].filter P := by
  have old {x : NodeId} (hx : P x) : x ∉ l.addedIds ++ l.placedIds :=
    hc.follows.laid.not_new_of_lt (hP x hx).1
  by_cases hm : l.marker = some c
  · have hn : l.addedIds.filter P = [] :=
      List.filter_eq_nil_iff.mpr fun x hx hPx => old hPx (List.mem_append_left _ hx)
    rw [Layout.block_marker hm, List.filter_cons, hn, List.filter_cons, List.filter_nil]
  by_cases ha : c ∈ l.anchors
  · have hc : P c = false := Bool.eq_false_iff.mpr fun h => (hP c h).2 ha
    rw [List.filter_cons_of_neg (by simp [hc]), List.filter_eq_nil_iff.mpr]
    · rfl
    · intro x hx hPx
      rcases Layout.mem_block_of_ne hm hx with rfl | hx
      · exact (hP x hPx).2 ha
      · exact old hPx (List.mem_append_right _ hx)
  · rw [Layout.block_other hm ha]

theorem filter_blocks (hc : t.Compiled body url ws l connection ready t')
    (hP : ∀ x, P x → x < t.size ∧ x ∉ l.anchors) (cs : List NodeId) :
    (cs.flatMap l.block).filter P = cs.filter P := by
  rw [List.filter_flatMap, List.flatMap_congr fun c _ => hc.filter_block hP c, ← List.filter_flatMap,
    List.flatMap_singleton']

theorem filter_tail (hc : t.Compiled body url ws l connection ready t')
    (hP : ∀ x, P x → x < t.size ∧ x ∉ l.anchors) (q : NodeId) : (l.tail q).filter P = [] :=
  List.filter_eq_nil_iff.mpr fun x hx hPx =>
    hc.follows.laid.not_new_of_lt (hP x hPx).1 (List.mem_append_left _ (Layout.mem_tail hx))

theorem filter_base (hc : t.Compiled body url ws l connection ready t')
    (hP : P connection = false ∧ P ready = false) (q : NodeId) :
    (l.base q).filter P = (t.children q).filter P := by
  by_cases hq : q = body
  · rw [hq, hc.ends, List.filter_cons_of_neg (by simp [hP.1]), List.filter_append,
      filter_erase hP.2, filter_erase hP.1]
    simp [hP.2]
  · rw [hc.follows.base q hq]

/-- Among the nodes that stay, the order in every list is the old one. -/
theorem filter_children (hc : t.Compiled body url ws l connection ready t')
    (hP : ∀ x, P x → x < t.size ∧ x ∉ l.anchors) (he : P connection = false ∧ P ready = false)
    (hq : q < t.size) : (t'.children q).filter P = (t.children q).filter P := by
  rw [hc.follows.laid.grown.children q hq, Layout.children, List.filter_append, hc.filter_tail hP,
    List.append_nil, hc.filter_blocks hP, hc.filter_base he]

end Staying

end Tree.Compiled

namespace Document

variable {d : Document} {url : PageUrl} {s : Settings} {page : CompiledPage}

/-- A node disappears with the markup of some widget. -/
def Removed (d : Document) (page : CompiledPage) (id : NodeId) : Prop :=
  ∃ w ∈ page.widgets, ∃ a, d.full.GivesWay w.node a ∧ (id = a ∨ d.full.Below a id)

/-- The scripts in the body that a page has already and that its session uses. -/
def reusedScripts (d : Document) : List NodeId :=
  [connectionScript, readyScript].filterMap fun a => d.full.bodyScript? d.fullBody a

/-- A node that a page keeps and that does not move. -/
def Kept (d : Document) (page : CompiledPage) (id : NodeId) : Prop :=
  d.full.Attached id ∧ ¬ d.Removed page id ∧ id ∉ d.reusedScripts

open Classical in
/-- What compiling a page leaves as it was. -/
structure Keeps (d : Document) (page : CompiledPage) : Prop where
  wellFormed : page.document.tree.WellFormed
  widgets : ∀ url, page.document.widgets url = []
  attached : ∀ id, d.full.Attached id → (page.document.tree.Attached id ↔ ¬ d.Removed page id)
  data : ∀ id, d.full.Attached id → page.document.tree.data? id = d.full.data? id
  parent : ∀ id, d.full.Attached id → ¬ d.Removed page id →
    page.document.tree.parent? id = d.full.parent? id
  order : ∀ p, d.full.Attached p → ¬ d.Removed page p →
    (page.document.tree.children p).filter (d.Kept page) = (d.full.children p).filter (d.Kept page)

theorem removed_iff {connection ready body id : NodeId} {l : Layout} {t' : Tree}
    (hw : d.full.WellFormed)
    (hc : d.full.Compiled body url page.widgets l connection ready t') :
    d.Removed page id ↔ ∃ a, a ∈ l.anchors ∧ (id = a ∨ d.full.Below a id) := by
  have he : d.Removed page id ↔ ∃ w ∈ page.widgets,
      id = d.full.anchor w.node ∨ d.full.Below (d.full.anchor w.node) id :=
    exists_congr fun w => and_congr_right fun _ => hw.givesWay_iff
  rw [he]
  constructor
  · rintro ⟨w, hm, hid⟩
    exact ⟨_, hc.mem_anchors.mpr ⟨w, hm, rfl⟩, hid⟩
  · rintro ⟨a, ha, hid⟩
    obtain ⟨w, hm, rfl⟩ := hc.mem_anchors.mp ha
    exact ⟨w, hm, hid⟩

theorem not_removed_iff {connection ready body id : NodeId} {l : Layout} {t' : Tree}
    (hw : d.full.WellFormed)
    (hc : d.full.Compiled body url page.widgets l connection ready t') :
    ¬ d.Removed page id ↔ ∀ a, a ∈ l.anchors → id ≠ a ∧ ¬ d.full.Below a id := by
  rw [removed_iff hw hc]
  push Not
  rfl

section Compiled

variable {html connection ready id : NodeId} {l : Layout} (hh : d.Holds page)
  (hs : d.full.Sections html l.head d.fullBody)
  (hc : d.full.Compiled d.fullBody url page.widgets l connection ready page.document.tree)

theorem mem_reusedScripts {x : NodeId} {a : Template} {new : List (NodeId × Template)}
    (ha : a.IsSession) (hx : d.full.Seated d.fullBody a x new) (hlt : x < d.full.size) :
    x ∈ d.reusedScripts := by
  cases hx with
  | old hx =>
    refine List.mem_filterMap.mpr ⟨a, ?_, hx⟩
    cases ha <;> simp
  | new _ hle => exact absurd hlt (Nat.not_lt.mpr hle)

include hs in
theorem lt_of_attached (hid : d.full.Attached id) : id < d.full.size :=
  hid.elim (fun e => e ▸ Tree.lt_size_of_data? hs.root) hs.wellFormed.below_lt_size

include hh hs

theorem mem_widgets_iff : d.full.Below Tree.root id ∧ d.full.IsWidget id ↔
    ∃ w ∈ page.widgets, w.node = id := by
  rw [← List.mem_map, hh.nodes, Tree.elementsNamed_tags, List.mem_filter,
    hs.wellFormed.mem_descendants, decide_eq_true_iff]

theorem below_of_widget {w : WidgetDescriptor} (hw : w ∈ page.widgets) :
    d.full.Below Tree.root w.node :=
  ((mem_widgets_iff hh hs).mpr ⟨w, hw, rfl⟩).1

theorem isWidget_of_widget {w : WidgetDescriptor} (hw : w ∈ page.widgets) : d.full.IsWidget w.node :=
  ((mem_widgets_iff hh hs).mpr ⟨w, hw, rfl⟩).2

include hc

/-- What is left of the page is what is neither markup of a widget nor below such markup. -/
theorem attached_iff (hid : d.full.Attached id) :
    page.document.tree.Attached id ↔ ¬ d.Removed page id := by
  have hwf := hs.wellFormed
  have hrem : ¬ d.Removed page id ↔ ∀ a, a ∈ l.anchors → id ≠ a ∧ ¬ d.full.Below a id :=
    not_removed_iff hwf hc
  constructor
  · rintro (rfl | hb)
    · -- The document itself is neither an anchor nor below one.
      refine hrem.mpr fun a ha => ?_
      obtain ⟨w, hm, rfl⟩ := hc.mem_anchors.mp ha
      have hb := hwf.below_anchor hs.root (below_of_widget hh hs hm)
      exact ⟨fun e => hwf.acyclic _ (e ▸ hb), fun hba => hwf.acyclic _ (hb.trans hba)⟩
    · exact hrem.mpr (hc.below_of_new hs (fun w => below_of_widget hh hs) hb
        (lt_of_attached hs hid)).2
  · intro hir
    exact hid.imp_right fun hb => hc.below_of_old hs hb (hrem.mp hir)

theorem not_isWidget_of_attached (hid : page.document.tree.Below Tree.root id) :
    ¬ page.document.tree.IsWidget id := by
  intro hwid
  by_cases hlt : id < d.full.size
  · obtain ⟨hb, ha⟩ := hc.below_of_new hs (fun w => below_of_widget hh hs) hid hlt
    rw [Tree.IsWidget, Tree.tag?_congr (hc.follows.laid.grown.data id hlt)] at hwid
    obtain ⟨w, hm, rfl⟩ := (mem_widgets_iff hh hs).mp ⟨hb, hwid⟩
    exact (not_removed_iff hs.wellFormed hc).mpr ha ⟨w, hm, w.node, .inl rfl, .inl rfl⟩
  · exact hc.new_not_isWidget (Nat.le_of_not_lt hlt) hwid

omit hh

theorem parent_eq_of_not_removed (hid : id < d.full.size) (hir : ¬ d.Removed page id) :
    page.document.tree.parent? id = d.full.parent? id := by
  have hg := hc.follows.laid.grown
  have ha : id ∉ l.anchors := fun ha => ((not_removed_iff hs.wellFormed hc).mp hir id ha).1 rfl
  cases hp : d.full.parent? id with
  | some p =>
    exact hg.wellFormed.consistent.parent_of_mem
      (hc.mem_of_old hs (hs.wellFormed.consistent.mem_of_parent hp) ha)
  | none =>
    cases hp' : page.document.tree.parent? id with
    | none => rfl
    | some q =>
      have hm := hg.wellFormed.consistent.mem_of_parent hp'
      have hq : q < d.full.size := by
        by_contra hq
        exact absurd hid (Nat.not_lt.mpr (hg.texts q id (Nat.le_of_not_lt hq) hm).1)
      rw [hs.wellFormed.consistent.parent_of_mem (hc.mem_of_new hq hid hm).1] at hp
      cases hp

theorem of_kept (hk : d.Kept page id) :
    (id < d.full.size ∧ id ∉ l.anchors) ∧ id ≠ connection ∧ id ≠ ready := by
  obtain ⟨hia, hir, his⟩ := hk
  have hlt := lt_of_attached hs hia
  obtain ⟨first, last, -, hcon, hready⟩ := hc.session
  refine ⟨⟨hlt, fun ha => ((not_removed_iff hs.wellFormed hc).mp hir id ha).1 rfl⟩, ?_, ?_⟩
  · rintro rfl
    exact his (mem_reusedScripts .connection hcon hlt)
  · rintro rfl
    exact his (mem_reusedScripts .ready hready hlt)

end Compiled

/-- Compiling a page takes away its widgets, with the paragraphs that hold nothing else, and leaves
everything else as it was and in its place. -/
theorem keeps_compile (hd : d.WellFormed) (h : d.compile url s = .ok page)
    (hw : page.widgets ≠ []) : d.Keeps page := by
  obtain ⟨html, l, connection, ready, -, hs, hc⟩ := hd.compiled h hw
  have hh := hd.holds h hw
  have hg := hc.follows.laid.grown
  refine ⟨hg.wellFormed, fun url => ?_, fun id => attached_iff hh hs hc,
    fun id hid => hg.data id (lt_of_attached hs hid),
    fun id hid => parent_eq_of_not_removed hs hc (lt_of_attached hs hid), fun p hp _ => ?_⟩
  · have hn : page.document.tree.elementsNamed Tree.root WidgetKind.tags = [] := by
      rw [Tree.elementsNamed_tags]
      refine List.filter_eq_nil_iff.mpr fun id hid hwid => ?_
      exact not_isWidget_of_attached hh hs hc (hg.wellFormed.mem_descendants.mp hid)
        (of_decide_eq_true hwid)
    rw [widgets, hn]
    rfl
  · have hcon : ¬ d.Kept page connection := fun hk => (of_kept hs hc hk).2.1 rfl
    have hready : ¬ d.Kept page ready := fun hk => (of_kept hs hc hk).2.2 rfl
    refine hc.filter_children (fun x hx => (of_kept hs hc ?_).1)
      ⟨by simpa using hcon, by simpa using hready⟩ (lt_of_attached hs hp)
    simpa using hx

/-- Of two widgets in one paragraph only the markup is replaced; the one alone in its paragraph goes
with it. -/
theorem keeps_labPage : ∃ page, labPage.compile .root .default = .ok page ∧ page.widgets ≠ [] ∧
    page.widgets.map (fun w => w.content.isHidden) = [true, false, false, false] ∧
    labPage.Keeps page := by
  obtain ⟨page, h, hw, hidden⟩ := compile_labPage
  exact ⟨page, h, hw, hidden, keeps_compile (wellFormed_ofNodes "/" _) h hw⟩

end Document

end LivePages
