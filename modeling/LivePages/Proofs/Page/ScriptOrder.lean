import LivePages.Proofs.Page.Standing

namespace LivePages

namespace Tree

variable {t t' : Tree} {a b : NodeId}

theorem Extends.below (h : t.Extends t') (hw : t.WellFormed) (hb : t.Below a b) : t'.Below a b :=
  Relation.TransGen.mono (fun _ _ hm => h.mem_children hm (hw.consistent.parent_lt_size hm)) a b hb

theorem Extends.leafy (h : t.Extends t') (hw : t.WellFormed) (hl : t.Leafy) : t'.Leafy := by
  intro c id hr hc hi hb
  have hid : id < t.size := Nat.lt_of_not_le fun hle => h.plain hle hi
  have hb := h.below_old hb hid
  have hlt := hw.above_lt_size hb
  refine hl c id (h.below_old hr hlt) ?_ ((h.isWidget_iff hid).mp hi) hb
  rwa [← text?_congr (h.data c hlt)]

end Tree

namespace Document

variable {d : Document} {url : PageUrl} {s : Settings} {page : CompiledPage}

/-- All widgets of a page are in its body. -/
def WidgetsInBody (d : Document) : Prop :=
  ∃ body, d.body = some body ∧
    ∀ id, d.tree.Below Tree.root id → d.tree.IsWidget id → d.tree.Below body id

theorem WellFormed.widgetsInBody (hd : d.WellFormed) {body : NodeId} (hb : d.body = some body)
    (h : d.tree.elementsNamed Tree.root WidgetKind.tags ⊆ d.tree.descendants body) :
    d.WidgetsInBody := by
  refine ⟨body, hb, fun id hr hi => hd.tree.mem_descendants.mp (h ?_)⟩
  rw [Tree.elementsNamed_tags]
  exact List.mem_filter.mpr ⟨hd.tree.mem_descendants.mpr hr, decide_eq_true hi⟩

open Classical in
/-- A new script makes a widget. It stands where the widget's markup was, behind the widget's
container if there is one, and what surrounds it is what surrounded the markup. -/
structure Stands (d : Document) (page : CompiledPage) (w : WidgetDescriptor) (script : NodeId) :
    Prop where
  new : d.full.size ≤ script
  made : page.document.tree.matchesTemplate script w.instantiation.template
  place : ∃ p before after before' after' container,
    d.full.children p = before ++ d.full.anchor w.node :: after ∧
    page.document.tree.children p = before' ++ container ++ script :: after' ∧
    List.Forall₂ (fun id a => d.full.size ≤ id ∧ page.document.tree.matchesTemplate id a)
      container w.container?.toList ∧
    before'.filter (d.Kept page) = before.filter (d.Kept page) ∧
    after'.filter (d.Kept page) = after.filter (d.Kept page)

/-- The scripts of a page's widgets run between the two scripts of its session, in the order of the
widgets. -/
structure Scripted (d : Document) (page : CompiledPage) (connection : NodeId)
    (scripts : List NodeId) (ready : NodeId) : Prop where
  body : page.document.body = some d.fullBody
  first : (page.document.tree.children d.fullBody).head? = some connection
  last : (page.document.tree.children d.fullBody).getLast? = some ready
  connects : page.document.tree.matchesTemplate connection connectionScript
  completes : page.document.tree.matchesTemplate ready readyScript
  stands : List.Forall₂ (fun n w => d.Stands page w n) scripts page.widgets
  inserted : ∀ n, d.tree.size ≤ n →
    ((∃ i : Instantiation, page.document.tree.matchesTemplate n i.template) ↔ n ∈ scripts)
  distinct : scripts.Nodup
  order : (connection :: (scripts ++ [ready])).Sublist (page.document.tree.descendants Tree.root)

section Compiled

variable {html connection ready id : NodeId} {l : Layout} (hh : d.Holds page)
  (hs : d.full.Sections html l.head d.fullBody)
  (hc : d.full.Compiled d.fullBody url page.widgets l connection ready page.document.tree)
include hh hs hc

theorem stands_of_placed {e : NodeId × List (NodeId × Template)} {w : WidgetDescriptor}
    (he : e ∈ l.placed) (hw : w ∈ page.widgets) (ha : e.1 = d.full.anchor w.node)
    (ht : e.2.map Prod.snd = w.templates) : d.Stands page w (Layout.script e) := by
  have hg : d.full.Grown l.children l.made page.document.tree := hc.follows.laid.grown
  obtain ⟨container, hk, hcm⟩ := Tree.Compiled.placed_split ht
  have hnew (x) (hx : x ∈ e.2) := hg.new x.1 x.2 (Tree.Laid.mem_made_of_placed e he hx)
  have hscript := hc.matches_script he ht
  obtain ⟨p, -, hp⟩ := hs.wellFormed.mem_of_below
    (hs.wellFormed.below_anchor hs.root (below_of_widget hh hs hw))
  obtain ⟨before, after, hp⟩ := List.append_of_mem hp
  classical
  obtain ⟨before', after', hp', hb, hf⟩ := hc.around hs.wellFormed (P := fun id => d.Kept page id)
    (fun x hx => (of_kept hs hc (of_decide_eq_true hx)).1)
    ⟨decide_eq_false fun hk => (of_kept hs hc hk).2.1 rfl,
      decide_eq_false fun hk => (of_kept hs hc hk).2.2 rfl⟩
    (ha ▸ List.mem_map_of_mem he) hp
  refine ⟨hscript.1, hscript.2, p, before, after, before', after', container.map Prod.fst, hp, ?_, ?_,
    ?_, ?_⟩
  · rw [hp', ← ha, block_eq hh hs hc he, hk]
    simp
  · rw [← hcm, List.forall₂_map_left_iff, List.forall₂_map_right_iff, List.forall₂_same]
    exact fun x hx => hnew x (by simp [hk, hx])
  · convert hb
  · convert hf

omit hh hs in
theorem mem_scripts (he : d.tree.Extends d.full) {n : NodeId} {i : Instantiation}
    (hn : d.tree.size ≤ n) (hm : page.document.tree.matchesTemplate n i.template) :
    n ∈ l.scripts := by
  by_cases hlt : n < d.full.size
  · obtain ⟨e, hel, ht⟩ := Tree.element?_of_matches hm
    have htag : d.full.tag? n = some "script" := by
      rw [← Tree.tag?_congr (hc.follows.laid.grown.data n hlt), Tree.tag?, hel, Option.map_some, ht,
        Template.tag_instantiation]
    exact absurd (he.tags hn htag) (by decide)
  · exact hc.mem_scripts (Nat.le_of_not_lt hlt) hm

omit hh in
theorem body_stays (hb : ∀ w ∈ page.widgets, d.full.Below d.fullBody w.node) :
    ∀ a, a ∈ l.anchors → d.fullBody ≠ a ∧ ¬ d.full.Below a d.fullBody := by
  intro a ha
  obtain ⟨w, hw, rfl⟩ := hc.mem_anchors.mp ha
  have hwf := hs.wellFormed
  have hbw := hb w hw
  have hba : d.full.Below d.fullBody (d.full.anchor w.node) := by
    rcases d.full.anchor_cases w.node with e | ⟨hp, hn, -⟩
    · exact e.symm ▸ hbw
    · refine (hwf.below_child hbw (hwf.consistent.mem_of_parent hp)).resolve_left ?_
      exact (Tree.ne_of_tags (Tree.tag?_of_named hn) hs.body_tag (by decide)).symm
  exact ⟨fun e => hwf.acyclic _ (e ▸ hba), fun h => hwf.acyclic _ (hba.trans h)⟩

omit hc in
theorem filter_body (hb : ∀ w ∈ page.widgets, d.full.Below d.fullBody w.node) :
    ((d.full.descendants d.fullBody).filter fun id => d.full.IsWidget id) =
      page.widgets.map WidgetDescriptor.node := by
  have hwf := hs.wellFormed
  have hr : d.full.Below Tree.root d.fullBody := .head hs.html_mem (.single hs.body_mem)
  rw [hh.nodes, Tree.elementsNamed_tags]
  have hsub := ((List.sublist_cons_self _ _).trans (hwf.descendants_sublist hr)).filter
    fun id => decide (d.full.IsWidget id)
  -- The body has its widgets in the order of the page, and it has as many of them.
  refine hsub.eq_of_length_le (List.Subperm.length_le ?_)
  refine ((hwf.nodup_descendants Tree.root).filter _).subperm fun id hid => ?_
  rw [List.mem_filter, hwf.mem_descendants, decide_eq_true_iff] at hid ⊢
  obtain ⟨w, hw, rfl⟩ := (mem_widgets_iff hh hs).mp hid
  exact ⟨hb w hw, hid.2⟩

/-- In document order what stands for the widgets comes between the two scripts of the session. -/
theorem order_placed (hb : ∀ w ∈ page.widgets, d.full.Below d.fullBody w.node) (hl : d.full.Leafy) :
    (connection :: (l.placedIds ++ [ready])).Sublist (page.document.tree.descendants Tree.root) := by
  have hwf := hs.wellFormed
  have hg : d.full.Grown l.children l.made page.document.tree := hc.follows.laid.grown
  have hr : d.full.Below Tree.root d.fullBody := .head hs.html_mem (.single hs.body_mem)
  have hstays := body_stays hs hc hb
  have hbody := hc.body_sublist hs (fun id => mem_widgets_iff hh hs) hh.apart hl hstays
  rw [hc.standing_eq hwf (hh.nodup hwf) (filter_body hh hs hb)] at hbody
  have hr' := hc.below_of_old hs hr hstays
  exact hbody.trans ((List.sublist_cons_self _ _).trans (hg.wellFormed.descendants_sublist hr'))

/-- A script that stands for a widget is lost where the markup's parent gives way to something. -/
theorem Stands.not_removed {w : WidgetDescriptor} {n p : NodeId}
    (hw : w ∈ page.widgets) (hst : d.Stands page w n) (hn : page.document.tree.Below Tree.root n)
    (hp : d.full.parent? (d.full.anchor w.node) = some p) : ¬ d.Removed page p := by
  have hwf := hs.wellFormed
  have hg : d.full.Grown l.children l.made page.document.tree := hc.follows.laid.grown
  obtain ⟨q, before, after, before', after', container, hk, hk', -⟩ := hst.place
  have hm : d.full.anchor w.node ∈ d.full.children q := by simp [hk]
  cases Option.some.inj ((hwf.consistent.parent_of_mem hm).symm.trans hp)
  have hm' : n ∈ page.document.tree.children p := by simp [hk']
  have ha : d.full.Attached p := (hwf.below_child
    (hwf.below_anchor hs.root (below_of_widget hh hs hw)) hm).imp_left Eq.symm
  refine (attached_iff hh hs hc ha).mp ?_
  exact (hg.wellFormed.below_child hn hm').imp_left Eq.symm

end Compiled

/-- Where all widgets are in the body, and none below a text, a compiled page has one new script for
each of them, in place of its markup, and runs the scripts in the order of the widgets. -/
theorem scripted_compile (hd : d.WellFormed) (h : d.compile url s = .ok page)
    (hw : page.widgets ≠ []) (hb : d.WidgetsInBody) (hl : d.tree.Leafy) :
    ∃ connection scripts ready, d.Scripted page connection scripts ready := by
  obtain ⟨html, l, connection, ready, -, hs, hc⟩ := hd.compiled h hw
  obtain ⟨he, -⟩ := hd.extends_full
  have hh := hd.holds h hw
  have hg : d.full.Grown l.children l.made page.document.tree := hc.follows.laid.grown
  have hin (w) (hw : w ∈ page.widgets) : d.full.Below d.fullBody w.node := by
    obtain ⟨body, hdb, hin⟩ := hb
    have hm := List.mem_map_of_mem (f := WidgetDescriptor.node) hw
    rw [hh.nodes, he.elementsNamed_eq hd.tree hd.root, Tree.elementsNamed_tags, List.mem_filter,
      hd.tree.mem_descendants, decide_eq_true_iff] at hm
    rw [fullBody_of_some hdb]
    exact he.below hd.tree (hin w.node hm.1 hm.2)
  have horder := order_placed hh hs hc hin (he.leafy hd.tree hl)
  have hsub := Layout.scripts_sublist hc.follows.laid.filled
  obtain ⟨first, last, hls, hcon, hready⟩ := hc.session
  have hk : page.document.tree.children d.fullBody =
      connection :: ((((d.full.children d.fullBody).erase connection).erase ready).flatMap l.block ++
        [ready]) := by
    rw [hg.children _ hs.body_lt, Layout.children, hc.ends, Layout.tail_of_ne hs.head_ne_body.symm,
      List.append_nil, List.flatMap_cons, List.flatMap_append,
      hc.follows.block_seated .connection hcon, List.flatMap_singleton,
      hc.follows.block_seated .ready hready]
    rfl
  refine ⟨connection, l.scripts, ready, ?_, ?_, ?_, ?_, ?_, ?_, fun n hn => ⟨?_, ?_⟩, ?_, ?_⟩
  · obtain ⟨-, -, hp⟩ := of_compile h hw
    have hbody := congrArg (fun p : CompiledPage => p.document.body) hp
    exact hbody.trans (ensureStructure_known d).2.2
  · rw [hk]
    rfl
  · rw [hk, ← List.cons_append, List.getLast?_concat]
  · exact hc.follows.matches_seated hs hcon fun e he => hls ▸ List.mem_append_left _ he
  · exact hc.follows.matches_seated hs hready fun e he => hls ▸ List.mem_append_right _ he
  · refine List.forall₂_map_left_iff.mpr (hc.placed_forall₂.imp fun e w he => ?_)
    exact stands_of_placed hh hs hc he.1 he.2.1 he.2.2.1 he.2.2.2
  · rintro ⟨i, hm⟩
    exact mem_scripts hc he hn hm
  · intro hm
    obtain ⟨e, hep, rfl⟩ := List.mem_map.mp hm
    obtain ⟨w, -, -, ht⟩ := hc.follows.placed_cases hep
    exact ⟨w.instantiation, (hc.matches_script hep ht).2⟩
  · exact hsub.nodup (List.nodup_append.mp (List.nodup_append.mp hc.follows.laid.distinct).2.1).2.1
  · exact ((hsub.append (.refl _)).cons_cons _).trans horder

/-- A hidden widget, two in one paragraph and one alone in its own. -/
theorem scripted_labPage : ∃ page, labPage.compile .root .default = .ok page ∧
    page.widgets ≠ [] ∧ labPage.WidgetsInBody ∧ labPage.tree.Leafy ∧
    page.widgets.map (fun w => w.content.isHidden) = [true, false, false, false] ∧
    ∃ connection scripts ready, labPage.Scripted page connection scripts ready := by
  have hd : labPage.WellFormed := wellFormed_ofNodes "/" _
  obtain ⟨page, h, hw, hidden⟩ := compile_labPage
  have hbody : labPage.body = some 5 := by decide +kernel
  have hb : labPage.WidgetsInBody := hd.widgetsInBody hbody (by decide +kernel)
  have hl : labPage.tree.Leafy := hd.tree.leafy (by decide +kernel)
  exact ⟨page, h, hw, hb, hl, hidden, scripted_compile hd h hw hb hl⟩

/-- A page whose second button is below the blank text beside the first one. -/
def textPage : Document :=
  ofNodes "/" [(0, .element ⟨"html", []⟩), (1, .element ⟨"body", []⟩), (2, .element ⟨"p", []⟩),
    (3, .element ⟨"x-button",
      [("name", "a"), ("command", "ls"), ("image", "alpine"), ("label", "List")]⟩),
    (3, .text " "),
    (5, .element ⟨"x-button",
      [("name", "b"), ("command", "ls"), ("image", "alpine"), ("label", "List")]⟩)]

/-- The script of the second button stands in the blank text, which gives way to the first button
with the paragraph around both. -/
theorem not_below_textPage (h : textPage.compile url s = .ok page) (hw : page.widgets ≠ []) :
    ∃ w ∈ page.widgets, ∀ n, textPage.Stands page w n → ¬ page.document.tree.Below Tree.root n := by
  have hd : textPage.WellFormed := wellFormed_ofNodes "/" _
  obtain ⟨html, l, _, _, -, hs, hc⟩ := hd.compiled h hw
  have hh := hd.holds h hw
  have hnodes : page.widgets.map WidgetDescriptor.node = [4, 6] :=
    hh.nodes.trans (by decide +kernel)
  have hv : 4 ∈ page.widgets.map WidgetDescriptor.node := hnodes ▸ by decide
  have hw : 6 ∈ page.widgets.map WidgetDescriptor.node := hnodes ▸ by decide
  obtain ⟨v, hv, hvn⟩ := List.mem_map.mp hv
  obtain ⟨w, hw, hwn⟩ := List.mem_map.mp hw
  have hp : textPage.full.parent? (textPage.full.anchor w.node) = some 5 := by
    rw [hwn]
    decide +kernel
  have hgives : textPage.full.GivesWay v.node 3 := by
    rw [hvn]
    exact .inr ⟨by decide +kernel, by decide +kernel, Tree.isSoleContent_iff.mp (by decide +kernel)⟩
  have hc5 : 5 ∈ textPage.full.children 3 := by decide +kernel
  refine ⟨w, hw, fun n hst hb => ?_⟩
  exact hst.not_removed hh hs hc hw hb hp ⟨v, hv, 3, hgives, .inr (.single hc5)⟩

theorem not_scripted_textPage : ∃ page, textPage.WellFormed ∧
    textPage.compile .root .default = .ok page ∧ page.widgets ≠ [] ∧ textPage.WidgetsInBody ∧
    ¬ ∃ connection scripts ready, textPage.Scripted page connection scripts ready := by
  have hi : (textPage.compile .root .default).toOption.any CompiledPage.isInteractive := by
    decide +kernel
  have hd : textPage.WellFormed := wellFormed_ofNodes "/" _
  obtain ⟨page, h, hw⟩ := exists_compile hi
  have hbody : textPage.body = some 2 := by decide +kernel
  have hb : textPage.WidgetsInBody := hd.widgetsInBody hbody (by decide +kernel)
  refine ⟨page, hd, h, hw, hb, ?_⟩
  rintro ⟨connection, scripts, ready, hscr⟩
  obtain ⟨html, l, _, _, -, hs, hc⟩ := hd.compiled h hw
  obtain ⟨w, hw, hlost⟩ := not_below_textPage h hw
  obtain ⟨n, hn, hst⟩ := exists_of_forall₂ hscr.stands hw
  have hmem : n ∈ connection :: (scripts ++ [ready]) := by simp [hn]
  exact hlost n hst (hc.follows.laid.grown.wellFormed.mem_descendants.mp (hscr.order.mem hmem))

end Document

end LivePages
