import LivePages.Proofs.Page.HeadInsertions

namespace LivePages

namespace Layout

/-- The layout of a page on which nothing has been placed. -/
def start (t : Tree) (head : NodeId) : Layout :=
  ⟨head, t.findComment? head isMarkerComment, t.children, [], [], []⟩

theorem children_start (t : Tree) (head q : NodeId) : (start t head).children q = t.children q := by
  have hb (c) : (start t head).block c = [c] := by
    rw [block]
    split <;> rfl
  have ht : (start t head).tail q = [] := by
    rw [tail]
    split <;> rfl
  rw [children, ht, List.append_nil, List.flatMap_congr fun c _ => hb c, List.flatMap_singleton']
  rfl

end Layout

namespace Tree

variable {t : Tree} {html head body m : NodeId}

theorem WellFormed.mem_of_below (h : t.WellFormed) {p c : NodeId} (hb : t.Below p c) :
    ∃ q, q < t.size ∧ c ∈ t.children q := by
  cases hb with
  | single hm => exact ⟨_, h.consistent.parent_lt_size hm, hm⟩
  | tail _ hm => exact ⟨_, h.consistent.parent_lt_size hm, hm⟩

theorem findComment?_spec (h : t.WellFormed) {test : String → Bool} {top : NodeId}
    (hm : t.findComment? top test = some m) : t.Below top m ∧ (t.comment? m).isSome := by
  refine ⟨h.mem_descendants.mp (List.mem_of_find?_eq_some hm), ?_⟩
  have hs := List.find?_some hm
  revert hs
  cases t.comment? m with
  | none => exact fun hs => nomatch hs
  | some content => exact fun _ => rfl

theorem Sections.laid_start (hs : t.Sections html head body) : t.Laid (Layout.start t head) t where
  grown := (Grown.refl hs.wellFormed).congr fun q _ => (Layout.children_start t head q).symm
  head := hs.head_lt
  base _ _ hc := .inl (hs.wellFormed.consistent.lt_size hc)
  marker _ hm :=
    have hm := findComment?_spec hs.wellFormed hm
    ⟨hm.2, hs.wellFormed.mem_of_below hm.1⟩
  anchors _ ha := absurd ha List.not_mem_nil
  filled _ he := absurd he List.not_mem_nil

theorem Sections.follows_start (hs : t.Sections html head body) :
    (HeadCursor.mk t head (t.findComment? head isMarkerComment)).Follows t body [] []
      (Layout.start t head) where
  laid := hs.laid_start
  head := rfl
  last := rfl
  base _ _ := rfl
  kept _ _ hx := hx
  widgets _ hw := absurd hw List.not_mem_nil
  placed := rfl
  forHead _ ha := absurd ha List.not_mem_nil
  added := rfl

end Tree

namespace HeadCursor.Follows

variable {c : HeadCursor} {t : Tree} {html body : NodeId} {done : List WidgetDescriptor}
  {loaded : List Template} {l : Layout}

/-- One widget more is in place, and so is what it needs in the head. -/
theorem place (h : c.Follows t body done loaded l) (hs : t.Sections html l.head body)
    {w : WidgetDescriptor} (hw : t.IsWidget w.node) (hb : t.Below Tree.root w.node)
    (hn : ∀ v ∈ done, v.node ≠ w.node) :
    ∃ elements new, (c.place w).Follows t body (done ++ [w]) (loaded ++ w.headTemplates)
      { l with
        placed := l.placed ++ [(t.anchor w.node, elements)]
        added := l.added ++ new } := by
  have hwf := hs.wellFormed
  obtain ⟨p, -, hp⟩ := hwf.mem_of_below hb
  obtain ⟨q, hqt, hq⟩ := hwf.mem_of_below (hwf.below_anchor hs.root hb)
  have hwn : w.node ∉ l.anchors := by
    intro hm
    obtain ⟨v, hv, e⟩ := h.anchor_cases hm
    rcases t.anchor_cases v.node with ha | ⟨-, ha, -⟩
    · exact hn v hv (ha.symm.trans e.symm)
    · exact Tree.not_isWidget_paragraph ha (e ▸ hw)
  have han : t.anchor w.node ∉ l.anchors := by
    intro hm
    obtain ⟨v, hv, e⟩ := h.anchor_cases hm
    exact hn v hv (hwf.anchor_injective (h.widgets v hv) hw e.symm)
  have ha : c.tree.anchor w.node = t.anchor w.node := by
    refine h.laid.anchor_eq hwf hw hp (h.kept p _ hp) hwn fun hpp => ?_
    have ht := Tree.tag?_of_named hpp
    have hpb : p ≠ body := Tree.ne_of_tags ht hs.body_tag (by decide)
    exact ⟨Tree.ne_of_tags ht hs.head_tag (by decide), h.base p hpb⟩
  obtain ⟨elements, he, hl⟩ := h.laid.replaceMarkup ha (Tree.anchor_element hw) han
    hqt (h.kept q _ hq)
  have hf : (HeadCursor.mk (c.tree.replaceMarkup w) c.head c.last).Follows t body (done ++ [w]) loaded
      (l.place (t.anchor w.node) elements) :=
    { h with
      laid := hl
      widgets := fun v hv => by
        rcases List.mem_append.mp hv with hv | hv
        · exact h.widgets v hv
        · cases List.mem_singleton.mp hv
          exact hw
      placed := by
        rw [Layout.place, List.map_append, h.placed, List.map_append, List.map_singleton, he]
        rfl }
  obtain ⟨new, hf⟩ := hf.addAll hs fun a => WidgetDescriptor.isHead_of_mem_headTemplates
  exact ⟨elements, new, hf⟩

theorem placeAll (h : c.Follows t body done loaded l) (hs : t.Sections html l.head body)
    {ws : List WidgetDescriptor} (hw : ∀ w ∈ ws, t.IsWidget w.node ∧ t.Below Tree.root w.node)
    (hd : ((done ++ ws).map WidgetDescriptor.node).Nodup) :
    ∃ placed new, (ws.foldl HeadCursor.place c).Follows t body (done ++ ws)
      (loaded ++ ws.flatMap WidgetDescriptor.headTemplates)
      { l with placed := l.placed ++ placed, added := l.added ++ new } := by
  induction ws generalizing c done loaded l with
  | nil =>
    refine ⟨[], [], ?_⟩
    simp only [List.append_nil, List.flatMap_nil, List.foldl_nil]
    exact h
  | cons w ws ih =>
    rw [List.forall_mem_cons] at hw
    have hn (v) (hv : v ∈ done) : v.node ≠ w.node := by
      rw [List.map_append, List.nodup_append] at hd
      exact hd.2.2 _ (List.mem_map_of_mem hv) _ (List.mem_map_of_mem List.mem_cons_self)
    obtain ⟨elements, new, h⟩ := h.place hs hw.1.1 hw.1.2 hn
    obtain ⟨placed, new', h⟩ := ih h hs hw.2 (by rwa [List.append_assoc])
    refine ⟨(t.anchor w.node, elements) :: placed, new ++ new', ?_⟩
    simp only [List.append_assoc, List.singleton_append] at h
    rw [List.foldl_cons, List.flatMap_cons]
    exact h

end HeadCursor.Follows

end LivePages
