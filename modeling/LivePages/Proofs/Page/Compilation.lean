import LivePages.Proofs.Page.BodyScripts

namespace LivePages

namespace HeadCursor.Follows

variable {c : HeadCursor} {t : Tree} {html body x : NodeId} {done : List WidgetDescriptor}
  {loaded : List Template} {l : Layout} {a b : Template} {new : List (NodeId × Template)}

/-- Only the tree of a cursor is not known from the layout. -/
theorem normal (h : c.Follows t body done loaded l) :
    (HeadCursor.mk c.tree l.head l.last).Follows t body done loaded l :=
  { h with head := rfl, last := rfl }

section Body

variable (h : c.Follows t body done loaded l) (hs : t.Sections html l.head body) (ha : a.IsSession)
include h hs ha

theorem bodyScript?_start (hb : l.base body = t.children body) :
    c.tree.bodyScript? body a = t.bodyScript? body a := by
  rw [Tree.bodyScript?_eq, Tree.bodyScript?_eq, h.laid.grown.children body hs.body_lt,
    Layout.children, Layout.tail_of_ne hs.head_ne_body.symm, List.append_nil, hb]
  exact find?_flatMap fun x hx => h.find_block hs ha hx

omit ha in
theorem matches_seated (hx : t.Seated body a x new) (hn : ∀ e ∈ new, e ∈ l.session) :
    c.tree.matchesTemplate x a := by
  cases hx with
  | old hx =>
    obtain ⟨hx, hm⟩ := Tree.bodyScript?_spec hx
    rwa [h.laid.matches_old hs.wellFormed (hs.wellFormed.consistent.lt_size hx)
      (hs.not_head_of_body_child hx) (h.base x (hs.wellFormed.ne_of_child hx).symm)]
  | new =>
    have hm : (x, a) ∈ l.made := List.mem_append_left _ (List.mem_append_left _ (hn _ (by simp)))
    exact (h.laid.grown.new x a hm).2

omit hs in
theorem block_seated (hx : t.Seated body a x new) : l.block x = [x] := by
  cases hx with
  | old hx =>
    obtain ⟨-, hm⟩ := Tree.bodyScript?_spec hx
    obtain ⟨e, he, -⟩ := Tree.element?_of_matches hm
    exact Layout.block_other (h.laid.marker_ne (he ▸ rfl)) fun hxa =>
      h.anchor_not_matches hxa (.inl ha.tag) hm
  | new _ hx =>
    exact Layout.block_other (fun e => absurd (h.laid.marker_lt e) (Nat.not_lt.mpr hx)) fun e =>
      absurd (h.laid.lt_of_anchor e) (Nat.not_lt.mpr hx)

/-- The script that is looked for last is still the first of its kind. -/
theorem bodyScript?_end (hx : t.Seated body a x new) (hn : ∀ e ∈ new, e ∈ l.session)
    (hb : l.base body = x :: (t.children body).erase x) (hsb : b.IsSession) (hab : ¬ a.Agrees b) :
    c.tree.bodyScript? body b = t.bodyScript? body b := by
  have hm : c.tree.matchesTemplate x b = false := by
    rw [← Bool.not_eq_true, Tree.matches_iff_agrees (h.matches_seated hs hx hn)]
    exact hab
  have hm' : t.matchesTemplate x b = false := by
    rw [← Bool.not_eq_true]
    intro hm'
    cases hx with
    | old hx => exact hab ((Tree.matches_iff_agrees (Tree.bodyScript?_spec hx).2).mp hm')
    | new _ hx =>
      obtain ⟨e, he, -⟩ := Tree.element?_of_matches hm'
      exact absurd (Tree.lt_size_of_element? he) (Nat.not_lt.mpr hx)
  have hrest : (((t.children body).erase x).flatMap l.block).find?
      (fun id => c.tree.matchesTemplate id b) =
        ((t.children body).erase x).find? fun id => t.matchesTemplate id b :=
    find?_flatMap fun y hy => h.find_block hs hsb (List.mem_of_mem_erase hy)
  rw [Tree.bodyScript?_eq, Tree.bodyScript?_eq, h.laid.grown.children body hs.body_lt,
    Layout.children, Layout.tail_of_ne hs.head_ne_body.symm, List.append_nil, hb, List.flatMap_cons,
    h.block_seated ha hx, List.singleton_append, List.find?_cons, hm, hrest]
  exact find?_erase hm'

end Body

end HeadCursor.Follows

namespace Tree

variable {t t' : Tree} {html head body connection ready : NodeId} {url : PageUrl}
  {ws : List WidgetDescriptor} {l : Layout}

/-- A page whose widgets are all in place, with the session's scripts around them. -/
structure Compiled (t : Tree) (body : NodeId) (url : PageUrl) (ws : List WidgetDescriptor)
    (l : Layout) (connection ready : NodeId) (t' : Tree) : Prop where
  follows : (HeadCursor.mk t' l.head l.last).Follows t body ws
    (url.sessionScripts ++ ws.flatMap WidgetDescriptor.headTemplates) l
  marker : l.marker = t.findComment? l.head isMarkerComment
  ends : l.base body = connection :: (((t.children body).erase connection).erase ready ++ [ready])
  session : ∃ first last, l.session = first ++ last ∧
    t.Seated body connectionScript connection first ∧ t.Seated body readyScript ready last

theorem placeWidgets_eq (t : Tree) (head body : NodeId) (url : PageUrl) (ws : List WidgetDescriptor) :
    Document.placeWidgets t head body url ws =
      let c := (HeadCursor.mk t head (t.findComment? head isMarkerComment)).addAll url.sessionScripts
      let first := c.tree.existingOrNew body connectionScript
      let c := ws.foldl HeadCursor.place ⟨first.1.prependChild body first.2, c.head, c.last⟩
      let last := c.tree.existingOrNew body readyScript
      last.1.appendChild body last.2 := by
  rfl

/-- Before any widget is in place the head has the session's scripts and the body the first one. -/
theorem Sections.opened (hs : t.Sections html head body) (url : PageUrl) :
    let c := (HeadCursor.mk t head (t.findComment? head isMarkerComment)).addAll url.sessionScripts
    let first := c.tree.existingOrNew body connectionScript
    ∃ l, (HeadCursor.mk (first.1.prependChild body first.2) c.head c.last).Follows t body []
        url.sessionScripts l ∧
      l.head = head ∧ l.marker = t.findComment? head isMarkerComment ∧
      l.base body = first.2 :: (t.children body).erase first.2 ∧
      t.Seated body connectionScript first.2 l.session := by
  have hhead (a) (ha : a ∈ url.sessionScripts) : a.IsHead := isHead_of_mem_sessionScripts ha
  obtain ⟨added, h⟩ := hs.follows_start.addAll hs hhead
  obtain ⟨new, hx, m⟩ := h.movable hs .connection (h.bodyScript?_start hs .connection rfl)
  have h := h.seat (fun q => hx.not_mem hs.wellFormed) (fun k y => List.mem_cons)
    (m.front h.laid hs.body_lt hs.head_ne_body.symm)
  exact ⟨_, h, rfl, rfl, if_pos rfl, hx⟩

theorem Sections.compiled (hs : t.Sections html head body) (url : PageUrl)
    (hw : ∀ w ∈ ws, t.IsWidget w.node ∧ t.Below Tree.root w.node)
    (hd : (ws.map WidgetDescriptor.node).Nodup) :
    ∃ l connection ready, l.head = head ∧
      t.Compiled body url ws l connection ready (Document.placeWidgets t head body url ws) := by
  rw [placeWidgets_eq]
  obtain ⟨l, h, rfl, hm, hb, hx⟩ := hs.opened url
  -- From here on only what the layout says of the cursor counts.
  generalize (HeadCursor.mk t l.head (t.findComment? l.head isMarkerComment)).addAll
    url.sessionScripts = c at h hb hx ⊢
  dsimp only
  generalize c.tree.existingOrNew body connectionScript = first at h hb hx ⊢
  obtain ⟨placed, added, h⟩ := h.placeAll hs hw hd
  generalize ws.foldl HeadCursor.place _ = c' at h ⊢
  obtain ⟨new, hy, m⟩ := h.movable hs .ready
    (h.bodyScript?_end hs .connection hx (fun e he => he) hb .ready connection_not_agrees_ready)
  generalize c'.tree.existingOrNew body readyScript = last at hy m ⊢
  have h := h.seat (fun q => hy.not_mem hs.wellFormed)
    (fun k y => by rw [List.mem_append, List.mem_singleton, or_comm])
    (m.back h.laid hs.body_lt hs.head_ne_body.symm)
  have hne : first.2 ≠ last.2 := by
    intro e
    have hc := h.matches_seated hs hx fun e he => List.mem_append_left _ he
    have hr := h.matches_seated hs hy fun e he => List.mem_append_right _ he
    exact connection_not_agrees_ready ((matches_iff_agrees hc).mp (e ▸ hr))
  have he : (first.2 :: (t.children body).erase first.2).erase last.2 =
      first.2 :: ((t.children body).erase first.2).erase last.2 :=
    List.erase_cons_tail (by simpa using hne)
  refine ⟨_, first.2, last.2, ?_,
    { follows := h.normal, marker := hm, ends := ?_, session := ⟨_, _, rfl, hx, hy⟩ }⟩
  · rfl
  · rw [Layout.seat]
    dsimp only
    rw [if_pos rfl, hb, he]
    rfl

end Tree

end LivePages
