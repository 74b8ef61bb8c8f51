import LivePages.Proofs.Page.Placement

namespace LivePages

theorem find?_flatMap {α : Type} {l : List α} {f : α → List α} {p q : α → Bool}
    (h : ∀ c ∈ l, (f c).find? p = if q c then some c else none) : (l.flatMap f).find? p = l.find? q := by
  induction l with
  | nil => rfl
  | cons c l ih =>
    rw [List.forall_mem_cons] at h
    rw [List.flatMap_cons, List.find?_append, h.1, List.find?_cons, ih h.2]
    cases q c <;> rfl

theorem find?_erase {α : Type} [BEq α] [LawfulBEq α] {l : List α} {a : α} {q : α → Bool}
    (h : q a = false) : (l.erase a).find? q = l.find? q := by
  induction l with
  | nil => rfl
  | cons c l ih =>
    by_cases hc : c = a
    · rw [hc, List.erase_cons_head, List.find?_cons, h]
    · rw [List.erase_cons_tail (by simpa using hc), List.find?_cons, List.find?_cons, ih]

/-- A script of the session, at an end of the body. -/
inductive Template.IsSession : Template → Prop where
  | connection : IsSession connectionScript
  | ready : IsSession readyScript

namespace Template.IsSession

variable {a : Template}

theorem opening (h : a.IsSession) : a.opening = ['c', 'o'] ∨ a.opening = ['r', 'o'] := by
  cases h with
  | connection => exact .inl opening_connection
  | ready => exact .inr opening_ready

theorem tag (h : a.IsSession) : a.tag = "script" := by
  cases h <;> decide

theorem distinct (h : a.IsSession) : (a.attributes.map Prod.fst).Nodup := by
  cases h <;> decide

theorem head_not_agrees {b : Template} (h : a.IsSession) (hb : b.IsHead) : ¬ b.Agrees a := by
  refine not_agrees_of_opening ?_
  rcases hb.opening with e | e <;> rcases h.opening with e' | e' <;> simp [e, e']

theorem widget_not_agrees {b : Template} {w : WidgetDescriptor} (h : a.IsSession)
    (hb : b ∈ w.templates) : ¬ b.Agrees a := by
  refine not_agrees_of_opening ?_
  rcases WidgetDescriptor.opening_of_mem_templates hb with e | e <;>
    rcases h.opening with e' | e' <;> simp [e, e']

end Template.IsSession

/-- A script that makes a widget is like nothing else that pages get. -/
theorem Instantiation.not_agrees {a : Template} (i : Instantiation)
    (h : a.IsSession ∨ a.IsHead ∨ ∃ w : WidgetDescriptor, w.container? = some a) :
    ¬ a.Agrees i.template := by
  refine Template.not_agrees_of_opening ?_
  rw [Template.opening_instantiation]
  rcases h with h | h | ⟨w, h⟩
  · rcases h.opening with e | e <;> simp [e]
  · rcases h.opening with e | e <;> simp [e]
  · simp [Template.opening_container h]

namespace Tree

variable {t t' t'' : Tree} {l : Layout} {html head body x : NodeId} {a : Template}

/-- The script of the session that a page has already. -/
def bodyScript? (t : Tree) (body : NodeId) (template : Template) : Option NodeId :=
  (t.elementChildren body).find? fun id => t.matchesTemplate id template

theorem bodyScript?_eq (t : Tree) (body : NodeId) (template : Template) :
    t.bodyScript? body template = (t.children body).find? fun id => t.matchesTemplate id template := by
  rw [bodyScript?, elementChildren, List.find?_filter]
  refine congrArg (List.find? · _) (funext fun id => ?_)
  cases hm : t.matchesTemplate id template with
  | false => simp
  | true =>
    obtain ⟨e, he, -⟩ := element?_of_matches hm
    simp [he]

/-- A script of the session is one that the page has, or a new one. -/
inductive Seated (t : Tree) (body : NodeId) (template : Template) :
    NodeId → List (NodeId × Template) → Prop where
  | old {x : NodeId} : t.bodyScript? body template = some x → Seated t body template x []
  | new {x : NodeId} : t.bodyScript? body template = none → t.size ≤ x →
      Seated t body template x [(x, template)]

theorem existingOrNew_of_some (h : t.bodyScript? body a = some x) :
    t.existingOrNew body a = (t, x) := by
  unfold bodyScript? at h
  unfold existingOrNew
  rw [h]

theorem existingOrNew_of_none (h : t.bodyScript? body a = none) :
    t.existingOrNew body a = t.instantiate a := by
  unfold bodyScript? at h
  unfold existingOrNew
  rw [h]

theorem bodyScript?_spec (h : t.bodyScript? body a = some x) :
    x ∈ t.children body ∧ t.matchesTemplate x a := by
  rw [bodyScript?_eq] at h
  have hm := List.find?_some h
  exact ⟨List.mem_of_find?_eq_some h, hm⟩

theorem Seated.not_mem {new : List (NodeId × Template)} (h : t.Seated body a x new)
    (hw : t.WellFormed) {q : NodeId} (hq : q ≠ body) : x ∉ t.children q := by
  intro hm
  cases h with
  | old h => exact hq (hw.parent_eq hm (bodyScript?_spec h).1)
  | new _ h => exact absurd (hw.consistent.lt_size hm) (Nat.not_lt.mpr h)

theorem Seated.template {new : List (NodeId × Template)} (h : t.Seated body a x new)
    {e : NodeId × Template} (he : e ∈ new) : e.2 = a := by
  cases h with
  | old => cases he
  | new => rw [List.mem_singleton.mp he]

theorem Seated.mem_of_lt {new : List (NodeId × Template)} (h : t.Seated body a x new)
    (hx : x < t.size) : x ∈ t.children body := by
  cases h with
  | old h => exact (bodyScript?_spec h).1
  | new _ h => exact absurd hx (Nat.not_lt.mpr h)

/-- A node that can go to an end of the body without leaving anything out of place. -/
structure Laid.Movable (t : Tree) (l : Layout) (body x : NodeId) (new : List (NodeId × Template))
    (t' : Tree) : Prop where
  grown : t.Grown l.children (l.made ++ new) t'
  known : x < t.size ∨ x ∈ new.map Prod.fst
  ne : body ≠ x
  below : ¬ t'.Below x body
  marker : l.marker ≠ some x
  anchors : x ∉ l.anchors
  unplaced : x ∉ l.addedIds ++ l.placedIds

theorem Laid.Movable.front {new : List (NodeId × Template)} (m : Laid.Movable t l body x new t'')
    (h : t.Laid l t') (hb : body < t.size) (hh : body ≠ l.head) :
    t.Laid (l.seat body x new (x :: ·)) (t''.prependChild body x) := by
  have hx : l.block x = [x] := Layout.block_other m.marker m.anchors
  have hk : x < t.size ∨ x ∈ (l.made ++ new).map Prod.fst :=
    m.known.imp_right fun hm => by rw [List.map_append]; exact List.mem_append_right _ hm
  refine h.seat hh m.known m.marker m.anchors m.unplaced (fun k c => List.mem_cons) (fun k => ?_)
    (m.grown.prependChild hb hk m.ne m.below)
  rw [List.flatMap_cons, hx, List.singleton_append]

theorem Laid.Movable.back {new : List (NodeId × Template)} (m : Laid.Movable t l body x new t'')
    (h : t.Laid l t') (hb : body < t.size) (hh : body ≠ l.head) :
    t.Laid (l.seat body x new (· ++ [x])) (t''.appendChild body x) := by
  have hx : l.block x = [x] := Layout.block_other m.marker m.anchors
  have hk : x < t.size ∨ x ∈ (l.made ++ new).map Prod.fst :=
    m.known.imp_right fun hm => by rw [List.map_append]; exact List.mem_append_right _ hm
  refine h.seat hh m.known m.marker m.anchors m.unplaced (fun k c => ?_) (fun k => ?_)
    (m.grown.appendChild hb hk m.ne m.below)
  · rw [List.mem_append, List.mem_singleton, or_comm]
  · rw [List.flatMap_append, List.flatMap_singleton, hx]

end Tree

namespace HeadCursor.Follows

variable {c : HeadCursor} {t t'' : Tree} {html body x : NodeId} {done : List WidgetDescriptor}
  {loaded : List Template} {l : Layout} {a : Template}

theorem new_not_session (h : c.Follows t body done loaded l) (ha : a.IsSession)
    (hx : x ∈ l.addedIds ∨ x ∈ l.placedIds) : ¬ c.tree.matchesTemplate x a := by
  rcases hx with hx | hx
  · obtain ⟨b, hb, hm⟩ := h.added_matches hx
    rw [Tree.matches_iff_agrees hm]
    exact ha.head_not_agrees hb
  · obtain ⟨w, b, -, hb, hm⟩ := h.placed_matches hx
    rw [Tree.matches_iff_agrees hm]
    exact ha.widget_not_agrees hb

section Body

variable (h : c.Follows t body done loaded l) (hs : t.Sections html l.head body) (ha : a.IsSession)
include h hs ha

/-- Of what stands in the place of a child of the body only the child itself can match. -/
theorem find_block (hx : x ∈ t.children body) :
    ((l.block x).find? fun id => c.tree.matchesTemplate id a) =
      if t.matchesTemplate x a then some x else none := by
  have hold : c.tree.matchesTemplate x a = t.matchesTemplate x a :=
    h.laid.matches_old hs.wellFormed (hs.wellFormed.consistent.lt_size hx)
      (hs.not_head_of_body_child hx) (h.base x (hs.wellFormed.ne_of_child hx).symm) a
  have others (y) (hy : y ∈ l.block x) (hne : y ≠ x) : ¬ c.tree.matchesTemplate y a :=
    h.new_not_session ha ((Layout.mem_block hy).resolve_left hne)
  by_cases hm : t.matchesTemplate x a
  · have hxa : x ∉ l.anchors := fun hxa => h.anchor_not_matches hxa (.inl ha.tag) hm
    obtain ⟨e, he, -⟩ := Tree.element?_of_matches hm
    rw [Layout.block_other (h.laid.marker_ne (he ▸ rfl)) hxa, List.find?_singleton, hold]
  · rw [if_neg hm, List.find?_eq_none]
    intro y hy
    by_cases hyx : y = x
    · rwa [hyx, hold]
    · exact others y hy hyx

/-- Whichever script the session gets, it can go to an end of the body. -/
theorem movable (hf : c.tree.bodyScript? body a = t.bodyScript? body a) :
    ∃ new, t.Seated body a (c.tree.existingOrNew body a).2 new ∧
      Tree.Laid.Movable t l body (c.tree.existingOrNew body a).2 new
        (c.tree.existingOrNew body a).1 := by
  have hg := h.laid.grown
  cases hb : c.tree.bodyScript? body a with
  | some x =>
    rw [Tree.existingOrNew_of_some hb]
    obtain ⟨hx, hm⟩ := Tree.bodyScript?_spec (hf.symm.trans hb)
    have hlt := hs.wellFormed.consistent.lt_size hx
    have hxa : x ∉ l.anchors := fun hxa => h.anchor_not_matches hxa (.inl ha.tag) hm
    obtain ⟨e, he, -⟩ := Tree.element?_of_matches hm
    have hel : (t.element? x).isSome := he ▸ rfl
    have hc : x ∈ c.tree.children body := by
      rw [hg.children body hs.body_lt]
      exact Layout.mem_children hxa (h.kept body x hx)
    refine ⟨[], .old (hf.symm.trans hb), ?_⟩
    exact {
      grown := by rw [List.append_nil]; exact hg
      known := .inl hlt
      ne := hs.wellFormed.ne_of_child hx
      below := fun hb => hg.wellFormed.acyclic x (.tail hb hc)
      marker := h.laid.marker_ne hel
      anchors := hxa
      unplaced := h.laid.not_new_of_lt hlt }
  | none =>
    have hgi := hg.instantiate ha.distinct
    have hm : c.tree.size ∈ (l.made ++ [(c.tree.size, a)]).map Prod.fst := by simp
    rw [Tree.existingOrNew_of_none hb, Tree.instantiate_id]
    refine ⟨[(c.tree.size, a)], .new (hf.symm.trans hb) hg.size_le, ?_⟩
    exact {
      grown := hgi
      known := .inr (by simp)
      ne := Nat.ne_of_lt (Nat.lt_of_lt_of_le hs.body_lt hg.size_le)
      below := hgi.not_below_old hm hs.body_lt
      marker := fun e => absurd (h.laid.marker_lt e) (Nat.not_lt.mpr hg.size_le)
      anchors := fun e => absurd (h.laid.lt_of_anchor e) (Nat.not_lt.mpr hg.size_le)
      unplaced := fun e => by
        have hmade : c.tree.size ∈ l.made.map Prod.fst := by
          rw [l.map_made, List.append_assoc]
          exact List.mem_append_right _ e
        exact Nat.lt_irrefl _ (hg.lt_of_made hmade) }

end Body

/-- A script of the session at an end of the body leaves everything else as it was. -/
theorem seat (h : c.Follows t body done loaded l) {new : List (NodeId × Template)}
    {put : List NodeId → List NodeId} (hx : ∀ q, q ≠ body → x ∉ t.children q)
    (hp : ∀ k y, y ∈ put k ↔ y = x ∨ y ∈ k) (hl : t.Laid (l.seat body x new put) t'') :
    (HeadCursor.mk t'' c.head c.last).Follows t body done loaded (l.seat body x new put) :=
  { h with
    laid := hl
    base := fun q hq => by
      rw [Layout.seat]
      dsimp only
      rw [if_neg hq, h.base q hq, List.erase_of_not_mem (hx q hq)]
    kept := fun q y hy => by
      rw [Layout.seat]
      dsimp only
      by_cases hq : q = body
      · rw [if_pos hq, hp]
        by_cases hyx : y = x
        · exact .inl hyx
        · exact .inr ((List.mem_erase_of_ne hyx).mpr (h.kept body y (hq ▸ hy)))
      · have hyx : y ≠ x := fun e => hx q hq (e ▸ hy)
        rw [if_neg hq]
        exact (List.mem_erase_of_ne hyx).mpr (h.kept q y hy) }

end HeadCursor.Follows

end LivePages
