import LivePages.Proofs.Page.Survivors
import Mathlib.Data.List.Flatten

namespace LivePages

theorem part_sublist_flatMap {α β : Type} {l : List α} {a : α} (f : α → List β) (h : a ∈ l) :
    (f a).Sublist (l.flatMap f) := by
  obtain ⟨before, after, rfl⟩ := List.append_of_mem h
  rw [List.flatMap_append, List.flatMap_cons, ← List.append_assoc]
  exact (List.sublist_append_right _ _).trans (List.sublist_append_left _ _)

theorem sublist_flatMap_cons {α : Type} (l : List α) (f : α → List α) :
    l.Sublist (l.flatMap fun a => a :: f a) := by
  induction l with
  | nil => exact .slnil
  | cons a l ih =>
    rw [List.flatMap_cons, List.cons_append]
    exact (ih.trans (List.sublist_append_right _ _)).cons_cons a

theorem flatMap_erase {α β : Type} [BEq α] [LawfulBEq α] {l : List α} {a : α} {f : α → List β}
    (h : f a = []) : (l.erase a).flatMap f = l.flatMap f := by
  induction l with
  | nil => rfl
  | cons c l ih =>
    by_cases hc : c = a
    · rw [hc, List.erase_cons_head, List.flatMap_cons, h, List.nil_append]
    · rw [List.erase_cons_tail (by simpa using hc), List.flatMap_cons, List.flatMap_cons, ih]

theorem eq_singleton_of_nodup {α : Type} {l : List α} {a : α} (hd : l.Nodup)
    (h : ∀ x, x ∈ l ↔ x = a) : l = [a] := by
  refine List.perm_singleton.mp ((List.perm_ext_iff_of_nodup hd (List.nodup_singleton a)).mpr ?_)
  simpa using h

/-- With a node among those that are compared the lists split in one way only. -/
theorem filter_around {P : NodeId → Bool} {a : NodeId} {before after before' after' : List NodeId}
    (hb : a ∉ before) (ha : a ∉ after)
    (h : (before ++ a :: after).filter (fun x => P x || x == a) =
      (before' ++ a :: after').filter fun x => P x || x == a) :
    before'.filter P = before.filter P ∧ after'.filter P = after.filter P := by
  have hf {k k' : List NodeId} (h : (k.filter fun x => P x || x == a) = k'.filter fun x => P x || x == a) :
      k'.filter P = k.filter P := by
    have h := congrArg (List.filter P) h
    have hp (x) : (P x && (P x || x == a)) = P x := by cases P x <;> simp
    rwa [List.filter_filter, List.filter_filter, funext hp, eq_comm] at h
  have hc (k : List NodeId) : ((a :: k).filter fun x => P x || x == a) =
      a :: k.filter fun x => P x || x == a :=
    List.filter_cons_of_pos (by simp)
  rw [List.filter_append, hc, List.filter_append, hc, List.append_cons_inj_of_notMem
      (fun h => hb (List.mem_filter.mp h).1) fun h => ha (List.mem_filter.mp h).1] at h
  exact ⟨hf h.1, hf h.2.2⟩

namespace Layout

variable {l : Layout} {e : NodeId × List (NodeId × Template)}

theorem block_of_mem (hd : l.anchors.Nodup) (hm : l.marker ≠ some e.1) (he : e ∈ l.placed) :
    l.block e.1 = e.2.map Prod.fst := by
  have hk : l.placed.lookup e.1 = some e.2 := by
    obtain ⟨before, after, hp⟩ := List.append_of_mem he
    refine List.lookup_eq_some_iff.mpr ⟨before, after, hp, fun q hq => bne_iff_ne.mpr fun e => ?_⟩
    rw [anchors, hp, List.map_append, List.map_cons, List.nodup_append] at hd
    exact hd.2.2 q.1 (List.mem_map_of_mem hq) q.1 (e ▸ List.mem_cons_self) rfl
  rw [block_of_ne hm, hk]

theorem flatMap_block (hd : l.anchors.Nodup) (hm : ∀ a ∈ l.anchors, l.marker ≠ some a) :
    l.anchors.flatMap l.block = l.placedIds := by
  rw [anchors, List.flatMap_map, placedIds, List.map_flatMap]
  exact List.flatMap_congr fun e he => block_of_mem hd (hm _ (List.mem_map_of_mem he)) he

/-- The last of the elements that stand for a widget is its script. -/
def script (e : NodeId × List (NodeId × Template)) : NodeId :=
  (e.2.getLastD (Tree.root, .ofTag "script")).1

theorem script_eq {container : List (NodeId × Template)} {x : NodeId × Template}
    (h : e.2 = container ++ [x]) : script e = x.1 := by
  rw [script, h, List.getLastD_concat]

def scripts (l : Layout) : List NodeId :=
  l.placed.map script

theorem scripts_sublist (h : ∀ e ∈ l.placed, e.2 ≠ []) : l.scripts.Sublist l.placedIds := by
  rw [scripts, placedIds, List.map_flatMap, ← List.flatMap_pure_eq_map]
  refine List.Sublist.flatMap_right l.placed fun e he => List.singleton_sublist.mpr ?_
  obtain ⟨container, x, hx⟩ := (List.eq_nil_or_concat e.2).resolve_left (h e he)
  rw [script_eq (by rw [hx, List.concat_eq_append]), hx]
  simp

/-- What stands in the places of the widgets of a list. -/
def standing (l : Layout) (t : Tree) (ids : List NodeId) : List NodeId :=
  (ids.filter fun id => t.IsWidget id).flatMap fun w => l.block (t.anchor w)

theorem standing_flatMap (l : Layout) (t : Tree) (cs : List NodeId) (f : NodeId → List NodeId) :
    l.standing t (cs.flatMap f) = cs.flatMap fun c => l.standing t (f c) := by
  rw [standing, List.filter_flatMap, List.flatMap_assoc]
  rfl

theorem standing_eq_nil {t : Tree} {ids : List NodeId} (h : ∀ id ∈ ids, ¬ t.IsWidget id) :
    l.standing t ids = [] := by
  rw [standing, List.filter_eq_nil_iff.mpr, List.flatMap_nil]
  simpa using h

end Layout

namespace Tree

variable {t t' : Tree} {html body connection ready a c p q id x y : NodeId} {url : PageUrl}
  {ws : List WidgetDescriptor} {l : Layout}

theorem WellFormed.descendants_sublist (h : t.WellFormed) (hb : t.Below p c) :
    (c :: t.descendants c).Sublist (t.descendants p) := by
  have child {p c : NodeId} (hm : c ∈ t.children p) :
      (c :: t.descendants c).Sublist (t.descendants p) := by
    rw [h.descendants_eq p]
    exact part_sublist_flatMap (fun c => c :: t.descendants c) hm
  induction hb with
  | single hm => exact child hm
  | tail _ hm ih => exact (child hm).trans ((List.sublist_cons_self _ _).trans ih)

/-- No widget of a page is below one of its texts. -/
def Leafy (t : Tree) : Prop :=
  ∀ c id, t.Below root c → (t.text? c).isSome → t.IsWidget id → ¬ t.Below c id

theorem WellFormed.leafy (h : t.WellFormed)
    (hl : ∀ c ∈ t.descendants root, (t.text? c).isSome →
      t.elementsNamed c WidgetKind.tags = []) : t.Leafy := by
  intro c id hr hc hi hb
  have hn := hl c (h.mem_descendants.mpr hr) hc
  rw [elementsNamed_tags] at hn
  exact List.filter_eq_nil_iff.mp hn id (h.mem_descendants.mpr hb) (decide_eq_true hi)

namespace Leafy

variable (hl : t.Leafy) (h : t.WellFormed) (hr : t.Below root (t.anchor x)) (hx : t.IsWidget x)
include hl hr

/-- Where texts have no widgets below them, only widgets below a widget give way with it. -/
theorem below_of_below_anchor (hy : t.IsWidget y) (hb : t.Below (t.anchor x) y) :
    y = x ∨ t.Below x y := by
  rcases t.anchor_cases x with ha | ⟨-, -, hs⟩
  · exact .inr (ha ▸ hb)
  · obtain ⟨c, hc, hcy⟩ := Relation.TransGen.head'_iff.mp hb
    have hcy := Relation.reflTransGen_iff_eq_or_transGen.mp hcy
    by_cases hcx : c = x
    · exact hcx ▸ hcy
    · have ht := text?_of_isSoleContent hs hc hcx
      rcases hcy with rfl | hb
      · rw [hy.text?] at ht
        cases ht
      · exact absurd hb (hl c y (.tail hr hc) ht hy)

include h hx

theorem filter_anchor (hn : ∀ y, t.IsWidget y → ¬ t.Below x y) :
    ((t.anchor x :: t.descendants (t.anchor x)).filter fun id => t.IsWidget id) = [x] := by
  have hd : (t.anchor x :: t.descendants (t.anchor x)).Nodup :=
    List.nodup_cons.mpr ⟨fun hm => h.acyclic _ (h.mem_descendants.mp hm), h.nodup_descendants _⟩
  refine eq_singleton_of_nodup (hd.filter _) fun y => ?_
  rw [List.mem_filter, List.mem_cons, h.mem_descendants, decide_eq_true_iff]
  constructor
  · rintro ⟨rfl | hb, hy⟩
    · rcases t.anchor_cases x with ha | ⟨-, hp, -⟩
      · exact ha
      · exact absurd hy (not_isWidget_paragraph hp)
    · exact (hl.below_of_below_anchor hr hy hb).resolve_right (hn y hy)
  · rintro rfl
    refine ⟨?_, hx⟩
    rcases t.anchor_cases y with ha | ⟨hp, -⟩
    · exact .inl ha.symm
    · exact .inr (.single (h.consistent.mem_of_parent hp))

end Leafy

theorem Seated.not_isWidget {a : Template} {new : List (NodeId × Template)}
    (hx : t.Seated body a x new) (ha : a.IsSession) (hl : t.Leafy) (h : t.WellFormed)
    (hr : t.Below root body) (hy : y = x ∨ t.Below x y) : ¬ t.IsWidget y := by
  intro hyi
  cases hx with
  | old hx =>
    obtain ⟨hxb, hm⟩ := bodyScript?_spec hx
    rcases hy with rfl | hb
    · obtain ⟨e, he, ht⟩ := element?_of_matches hm
      have htag : t.tag? y = some "script" := by rw [tag?, he, Option.map_some, ht, ha.tag]
      exact not_isWidget_of_tag htag (by decide) hyi
    · obtain ⟨c, hc, hcy⟩ := Relation.TransGen.head'_iff.mp hb
      have ht := text?_of_matches hm hc
      rcases Relation.reflTransGen_iff_eq_or_transGen.mp hcy with rfl | hb
      · rw [hyi.text?] at ht
        cases ht
      · exact hl c y (.tail (.tail hr hxb) hc) ht hyi hb
  | new _ hle =>
    rcases hy with rfl | hb
    · obtain ⟨tag, -, ht⟩ := hyi
      obtain ⟨e, he, -⟩ := element?_of_tag? ht
      exact absurd (lt_size_of_element? he) (Nat.not_lt.mpr hle)
    · exact absurd (h.above_lt_size hb) (Nat.not_lt.mpr hle)

theorem Seated.standing_eq_nil {a : Template} {new : List (NodeId × Template)}
    (hx : t.Seated body a x new) (ha : a.IsSession) (hl : t.Leafy) (h : t.WellFormed)
    (hr : t.Below root body) : l.standing t (x :: t.descendants x) = [] := by
  refine Layout.standing_eq_nil fun y hy => hx.not_isWidget ha hl h hr ?_
  rwa [List.mem_cons, h.mem_descendants] at hy

namespace Compiled

variable (hc : t.Compiled body url ws l connection ready t') (hs : t.Sections html l.head body)
  (hm : ∀ id, t.Below root id ∧ t.IsWidget id ↔ ∃ w ∈ ws, w.node = id)
  (hn : ∀ v w, v ∈ ws → w ∈ ws → ¬ t.Below v.node w.node) (hl : t.Leafy)
include hc hs hm hn hl

/-- What stands where a node stood has in it, in order, what stands for the widgets. -/
theorem block_sublist (hp : t.Below root p) (hpa : p ∉ l.anchors) (hxp : x ∈ t.children p)
    (ih : x ∉ l.anchors → (l.standing t (t.descendants x)).Sublist (t'.descendants x)) :
    (l.standing t (x :: t.descendants x)).Sublist
      ((l.block x).flatMap fun y => y :: t'.descendants y) := by
  have hw := hs.wellFormed
  rw [Layout.standing]
  -- At an anchor there is one widget to stand for; any other child is still there to go on from.
  by_cases hxa : x ∈ l.anchors
  · obtain ⟨w, hwm, rfl⟩ := hc.mem_anchors.mp hxa
    obtain ⟨hwb, hwi⟩ := (hm w.node).mpr ⟨w, hwm, rfl⟩
    rw [hl.filter_anchor hw (hw.below_anchor hs.root hwb) hwi fun y hy hb => ?_, List.flatMap_singleton]
    · exact sublist_flatMap_cons _ _
    · obtain ⟨v, hv, rfl⟩ := (hm y).mp ⟨hwb.trans hb, hy⟩
      exact hn w v hwm hv hb
  · have hxi : ¬ t.IsWidget x := by
      intro hxi
      obtain ⟨w, hwm, rfl⟩ := (hm x).mp ⟨.tail hp hxp, hxi⟩
      have ha := hc.mem_anchors.mpr ⟨w, hwm, rfl⟩
      rcases t.anchor_cases w.node with e | ⟨hpa', -⟩
      · exact hxa (e ▸ ha)
      · rw [hw.consistent.parent_of_mem hxp] at hpa'
        exact hpa (Option.some.inj hpa' ▸ ha)
    rw [List.filter_cons_of_neg (by simpa using hxi)]
    exact (ih hxa).trans ((List.sublist_cons_self x _).trans
      (part_sublist_flatMap (fun y => y :: t'.descendants y) (Layout.self_mem_block hxa)))

theorem blocks_sublist (hp : t.Below root p) (hpa : p ∉ l.anchors) {cs : List NodeId}
    (hcs : ∀ x ∈ cs, x ∈ t.children p)
    (ih : ∀ x ∈ cs, x ∉ l.anchors → (l.standing t (t.descendants x)).Sublist (t'.descendants x)) :
    (l.standing t (cs.flatMap fun x => x :: t.descendants x)).Sublist
      ((cs.flatMap l.block).flatMap fun y => y :: t'.descendants y) := by
  rw [Layout.standing_flatMap, List.flatMap_assoc]
  exact List.Sublist.flatMap_right cs fun x hx =>
    hc.block_sublist hs hm hn hl hp hpa (hcs x hx) (ih x hx)

/-- Below a node that stays are, in order, the elements that stand for its widgets. -/
theorem standing_sublist (hb : t.Below body c) (hca : ∀ a, a ∈ l.anchors → c ≠ a ∧ ¬ t.Below a c) :
    (l.standing t (t.descendants c)).Sublist (t'.descendants c) := by
  have hw := hs.wellFormed
  have hg := hc.follows.laid.grown
  -- No anchor is above a node that stays, so this goes down through all children that stay.
  induction c using hw.child_induction with
  | step c ih =>
    have hcb : c ≠ body := fun e => hw.acyclic body (e ▸ hb)
    have hr : t.Below root c := (Relation.TransGen.head hs.html_mem (.single hs.body_mem)).trans hb
    rw [hg.wellFormed.descendants_eq, hg.children c (hw.below_lt_size hb), Layout.children,
      hc.follows.base c hcb, hw.descendants_eq c, List.flatMap_append]
    refine (hc.blocks_sublist hs hm hn hl hr (fun h => (hca c h).1 rfl) (fun _ hx => hx)
      fun x hx hxa => ih x hx (.tail hb hx) fun a ha => ⟨fun e => hxa (e ▸ ha), fun hax => ?_⟩).trans
        (List.sublist_append_left _ _)
    rcases hw.below_child hax hx with rfl | hac
    · exact (hca _ ha).1 rfl
    · exact (hca a ha).2 hac

omit hm hn in
theorem standing_body : l.standing t (t.descendants body) =
    l.standing t ((((t.children body).erase connection).erase ready).flatMap fun x =>
      x :: t.descendants x) := by
  obtain ⟨first, last, -, hcon, hready⟩ := hc.session
  have hw := hs.wellFormed
  have hr : t.Below root body := Relation.TransGen.head hs.html_mem (.single hs.body_mem)
  have erase {a x new} (cs : List NodeId) (hx : t.Seated body a x new) (ha : a.IsSession) :
      ((cs.erase x).flatMap fun c => l.standing t (c :: t.descendants c)) =
        cs.flatMap fun c => l.standing t (c :: t.descendants c) :=
    flatMap_erase (hx.standing_eq_nil ha hl hw hr)
  rw [hw.descendants_eq, Layout.standing_flatMap, Layout.standing_flatMap,
    erase _ hready .ready, erase _ hcon .connection]

/-- The body has all that stands for its widgets between the two scripts of the session. -/
theorem body_sublist (hca : ∀ a, a ∈ l.anchors → body ≠ a ∧ ¬ t.Below a body) :
    (connection :: (l.standing t (t.descendants body) ++ [ready])).Sublist (t'.descendants body) := by
  have hw := hs.wellFormed
  have hg : t.Grown l.children l.made t' := hc.follows.laid.grown
  have hr : t.Below root body := Relation.TransGen.head hs.html_mem (.single hs.body_mem)
  obtain ⟨first, last, -, hcon, hready⟩ := hc.session
  have hbc : l.block connection = [connection] := hc.follows.block_seated .connection hcon
  have hbr : l.block ready = [ready] := hc.follows.block_seated .ready hready
  have hmid {x : NodeId} (hx : x ∈ ((t.children body).erase connection).erase ready) :
      x ∈ t.children body :=
    List.mem_of_mem_erase (List.mem_of_mem_erase hx)
  have hsub := hc.blocks_sublist hs hm hn hl hr (fun h => (hca body h).1 rfl) (fun _ => hmid)
    fun x hx hxa => by
      refine hc.standing_sublist hs hm hn hl (.single (hmid hx)) fun a ha =>
        ⟨fun e => hxa (e ▸ ha), fun hax => ?_⟩
      rcases hw.below_child hax (hmid hx) with rfl | hab
      · exact (hca _ ha).1 rfl
      · exact (hca a ha).2 hab
  rw [hg.wellFormed.descendants_eq, hg.children body hs.body_lt, Layout.children, hc.ends,
    Layout.tail_of_ne hs.head_ne_body.symm, List.append_nil, hc.standing_body hs hl,
    List.flatMap_cons, List.flatMap_append, hbc, List.flatMap_singleton, List.flatMap_append,
    List.flatMap_singleton, hbr, List.flatMap_append, List.flatMap_singleton, List.cons_append]
  refine List.Sublist.cons_cons _ (List.Sublist.trans ?_ (List.sublist_append_right _ _))
  exact hsub.append (List.singleton_sublist.mpr List.mem_cons_self)

omit hs hm hn hl

theorem nodup_anchors (hw : t.WellFormed) (hd : (ws.map WidgetDescriptor.node).Nodup) :
    l.anchors.Nodup := by
  rw [hc.anchors_eq]
  refine (List.nodup_map_iff_inj_on hd.of_map).mpr fun v hv w hw' e => ?_
  have he := hw.anchor_injective (hc.follows.widgets v hv) (hc.follows.widgets w hw') e
  exact List.inj_on_of_nodup_map hd hv hw' he

/-- What stands for the widgets of a page is what has been placed, in the order of the widgets. -/
theorem standing_eq (hw : t.WellFormed) (hd : (ws.map WidgetDescriptor.node).Nodup)
    (hn : (t.descendants body).filter (fun id => t.IsWidget id) = ws.map WidgetDescriptor.node) :
    l.standing t (t.descendants body) = l.placedIds := by
  rw [← Layout.flatMap_block (hc.nodup_anchors hw hd) fun a ha =>
    hc.follows.laid.marker_ne (hc.follows.laid.anchors a ha), hc.anchors_eq, Layout.standing, hn,
    List.flatMap_map, List.flatMap_map]

omit hc in
theorem anchor_not_mem_block (hc : t.Compiled body url ws l connection ready t') (ha : a ∈ l.anchors) :
    a ∉ l.block a := by
  have h := hc.follows.laid
  have hn := h.not_new_of_lt (h.lt_of_anchor ha)
  exact Layout.anchor_not_mem_block (h.marker_ne (h.anchors a ha)) ha
    fun hp => hn (List.mem_append_right _ hp)

/-- What surrounds an anchor surrounds what stands in its place. -/
theorem around (hw : t.WellFormed) {P : NodeId → Bool} (hP : ∀ x, P x → x < t.size ∧ x ∉ l.anchors)
    (he : P connection = false ∧ P ready = false) (ha : a ∈ l.anchors) {before after : List NodeId}
    (hk : t.children p = before ++ a :: after) : ∃ before' after',
      t'.children p = before' ++ l.block a ++ after' ∧
        before'.filter P = before.filter P ∧ after'.filter P = after.filter P := by
  have hm : a ∈ t.children p := by simp [hk]
  obtain ⟨first, last, -, hcon, hready⟩ := hc.session
  have hac : connection ≠ a := by
    rintro rfl
    exact hc.anchor_not_mem_block ha (by simp [hc.follows.block_seated .connection hcon])
  have har : ready ≠ a := by
    rintro rfl
    exact hc.anchor_not_mem_block ha (by simp [hc.follows.block_seated .ready hready])
  obtain ⟨before', after', hb⟩ := List.append_of_mem (hc.follows.kept p a hm)
  have hs : (l.base p).filter (fun x => P x || x == a) =
      (t.children p).filter fun x => P x || x == a := by
    refine hc.filter_base ⟨?_, ?_⟩ p
    · simp [he.1, hac]
    · simp [he.2, har]
  have hd := hw.consistent.distinct p
  rw [hk, List.nodup_middle, List.nodup_cons, List.mem_append, not_or] at hd
  rw [hb, hk, eq_comm] at hs
  obtain ⟨hf, hf'⟩ := filter_around hd.1.1 hd.1.2 hs
  refine ⟨before'.flatMap l.block, after'.flatMap l.block ++ l.tail p, ?_, ?_, ?_⟩
  · rw [hc.follows.laid.grown.children p (hw.consistent.parent_lt_size hm), Layout.children, hb]
    simp
  · rw [hc.filter_blocks hP, hf]
  · rw [List.filter_append, hc.filter_blocks hP, hc.filter_tail hP, List.append_nil, hf']

omit hc in
theorem placed_split {e : NodeId × List (NodeId × Template)} {w : WidgetDescriptor}
    (h : e.2.map Prod.snd = w.templates) : ∃ container,
      e.2 = container ++ [(Layout.script e, w.instantiation.template)] ∧
        container.map Prod.snd = w.container?.toList := by
  obtain ⟨container, last, hk, hm, hl⟩ := List.map_eq_append_iff.mp h
  obtain ⟨x, rfl, hx⟩ := List.map_eq_singleton_iff.mp hl
  exact ⟨container, by rw [Layout.script_eq hk, hk, ← hx], hm⟩

theorem placed_forall₂ : List.Forall₂ (fun e w => e ∈ l.placed ∧ w ∈ ws ∧
    e.1 = t.anchor w.node ∧ e.2.map Prod.snd = w.templates) l.placed ws := by
  have h := hc.follows.placed
  rw [← List.forall₂_eq_eq_eq, List.forall₂_map_left_iff, List.forall₂_map_right_iff] at h
  refine List.forall₂_iff_zip.mpr ⟨h.length_eq, fun hz => ?_⟩
  exact ⟨(List.of_mem_zip hz).1, (List.of_mem_zip hz).2, Prod.mk.inj (List.forall₂_zip h hz)⟩

theorem mem_scripts {n : NodeId} {i : Instantiation} (hn : t.size ≤ n)
    (hm : t'.matchesTemplate n i.template) : n ∈ l.scripts := by
  have hg : t.Grown l.children l.made t' := hc.follows.laid.grown
  obtain ⟨e, he, -⟩ := element?_of_matches hm
  obtain ⟨⟨n, a⟩, hx, rfl⟩ := List.mem_map.mp (hg.complete n e hn he)
  have ha := (matches_iff_agrees (hg.new n a hx).2).mp hm
  rcases hc.made_cases hx with h | h | ⟨x, hxp, w, -, hx, -, ht⟩
  · exact absurd ha (i.not_agrees (.inl h))
  · exact absurd ha (i.not_agrees (.inr (.inl h)))
  · obtain ⟨container, hk, hcm⟩ := placed_split ht
    rw [hk] at hx
    rcases List.mem_append.mp hx with hx | hx
    · have hx : a ∈ container.map Prod.snd := List.mem_map_of_mem hx
      rw [hcm, Option.mem_toList] at hx
      exact absurd ha (i.not_agrees (.inr (.inr ⟨w, hx⟩)))
    · cases List.mem_singleton.mp hx
      exact List.mem_map_of_mem hxp

theorem matches_script {e : NodeId × List (NodeId × Template)} {w : WidgetDescriptor}
    (he : e ∈ l.placed) (ht : e.2.map Prod.snd = w.templates) : t.size ≤ Layout.script e ∧
      t'.matchesTemplate (Layout.script e) w.instantiation.template := by
  obtain ⟨container, hk, -⟩ := placed_split ht
  refine hc.follows.laid.grown.new _ _ (Laid.mem_made_of_placed e he ?_)
  rw [hk]
  exact List.mem_append_right _ (List.mem_singleton_self _)

end Compiled

end Tree

namespace Document

variable {d : Document} {url : PageUrl} {page : CompiledPage} {html connection ready x p : NodeId}
  {l : Layout} {w : WidgetDescriptor} {e : NodeId × List (NodeId × Template)} (hh : d.Holds page)
  (hs : d.full.Sections html l.head d.fullBody)
  (hc : d.full.Compiled d.fullBody url page.widgets l connection ready page.document.tree)
include hh hs hc

theorem block_eq (he : e ∈ l.placed) : l.block e.1 = e.2.map Prod.fst :=
  Layout.block_of_mem (hc.nodup_anchors hs.wellFormed (hh.nodup hs.wellFormed))
    (hc.follows.laid.marker_ne (hc.follows.laid.anchors _ (List.mem_map_of_mem he))) he

/-- Where texts have no widgets below them, the place of a widget's markup is never lost. -/
theorem not_removed_around (hl : d.full.Leafy) (hw : w ∈ page.widgets)
    (hp : d.full.anchor w.node ∈ d.full.children p) : ¬ d.Removed page p := by
  have hwf := hs.wellFormed
  refine (not_removed_iff hwf hc).mpr fun a ha => ?_
  obtain ⟨v, hv, rfl⟩ := hc.mem_anchors.mp ha
  have hn : ¬ d.full.Below (d.full.anchor v.node) (d.full.anchor w.node) := by
    intro hb
    have hbw : d.full.Below (d.full.anchor v.node) w.node := by
      rcases d.full.anchor_cases w.node with e | ⟨hpw, -⟩
      · exact e ▸ hb
      · exact hb.tail (hwf.consistent.mem_of_parent hpw)
    have hr := hwf.below_anchor hs.root (below_of_widget hh hs hv)
    rcases hl.below_of_below_anchor hr (isWidget_of_widget hh hs hw) hbw with e | hvw
    · exact hwf.acyclic _ (e ▸ hb)
    · exact hh.apart v w hv hw hvw
  exact ⟨fun e => hn (e ▸ .single hp), fun hb => hn (.tail hb hp)⟩

theorem below_of_placed (hl : d.full.Leafy) (he : e ∈ l.placed) (hw : w ∈ page.widgets)
    (ha : e.1 = d.full.anchor w.node) (hx : x ∈ e.2.map Prod.fst) :
    page.document.tree.Below Tree.root x := by
  have hwf := hs.wellFormed
  have hg : d.full.Grown l.children l.made page.document.tree := hc.follows.laid.grown
  have hb := hwf.below_anchor hs.root (below_of_widget hh hs hw)
  obtain ⟨p, hpt, hp⟩ := hwf.mem_of_below hb
  have hpa : d.full.Attached p := (hwf.below_child hb hp).imp_left Eq.symm
  have hm : x ∈ page.document.tree.children p := by
    rw [hg.children p hpt, Layout.children]
    refine List.mem_append_left _ (List.mem_flatMap.mpr ⟨e.1, ha ▸ hc.follows.kept p _ hp, ?_⟩)
    rwa [block_eq hh hs hc he]
  rcases (attached_iff hh hs hc hpa).mpr (not_removed_around hh hs hc hl hw hp) with rfl | hb
  · exact .single hm
  · exact .tail hb hm

end Document

end LivePages
