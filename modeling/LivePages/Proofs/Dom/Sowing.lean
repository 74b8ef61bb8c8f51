import LivePages.Proofs.Dom.Markup
import LivePages.Proofs.Dom.Planting

namespace LivePages

namespace Markup

/-- Siblings followed by more siblings. -/
def append : Markup → Markup → Markup
  | nil, m => m
  | node data inner rest, m => node data inner (rest.append m)

end Markup

namespace Tree

variable {t t' t'' : Tree} {p q id : NodeId} {data : NodeData} {m : Markup}

/-- Nodes as siblings, each with what is below it. -/
def markupOf (t : Tree) (ids : List NodeId) : Markup :=
  ids.foldr (fun c rest =>
    match t.data? c with
    | some data => .node data (t.markup c) rest
    | none => rest) .nil

theorem WellFormed.markup_eq_markupOf (h : t.WellFormed) (p : NodeId) :
    t.markup p = t.markupOf (t.children p) :=
  h.markup_eq p

theorem markupOf_cons (t : Tree) (a : NodeId) (as : List NodeId) : t.markupOf (a :: as) =
    match t.data? a with
    | some data => .node data (t.markup a) (t.markupOf as)
    | none => t.markupOf as :=
  rfl

theorem markupOf_append (t : Tree) (as bs : List NodeId) :
    t.markupOf (as ++ bs) = (t.markupOf as).append (t.markupOf bs) := by
  induction as with
  | nil => rfl
  | cons a as ih =>
    rw [List.cons_append, markupOf_cons, markupOf_cons, ih]
    cases t.data? a <;> rfl

theorem markupOf_congr {ids : List NodeId} (hd : ∀ id ∈ ids, t'.data? id = t.data? id)
    (hm : ∀ id ∈ ids, t'.markup id = t.markup id) : t'.markupOf ids = t.markupOf ids := by
  refine List.foldr_ext _ _ _ fun id hid rest => ?_
  rw [hd id hid, hm id hid]

/-- A tree in which new nodes have been added in one place, as the last children of a node. -/
structure Sown (t : Tree) (p : NodeId) (m : Markup) (t' : Tree) : Prop where
  wellFormed : t'.WellFormed
  size_le : t.size ≤ t'.size
  data : ∀ id < t.size, t'.data? id = t.data? id
  children : ∀ q < t.size, q ≠ p → t'.children q = t.children q
  added : ∃ ids, t'.children p = t.children p ++ ids ∧ (∀ id ∈ ids, t.size ≤ id) ∧ t'.markupOf ids = m

namespace Sown

theorem refl (h : t.WellFormed) (p : NodeId) : t.Sown p .nil t where
  wellFormed := h
  size_le := Nat.le_refl _
  data _ _ := rfl
  children _ _ _ := rfl
  added := ⟨[], (List.append_nil _).symm, fun _ h => absurd h List.not_mem_nil, rfl⟩

/-- What is below a node stays the same, unless the place of the new nodes is there. -/
theorem markup_eq (h : t.WellFormed) (hs : t.Sown p m t') {id : NodeId} (hid : id < t.size)
    (hne : id ≠ p) (hb : ¬ t.Below id p) : t'.markup id = t.markup id := by
  induction id using h.child_induction with
  | step id ih =>
  rw [hs.wellFormed.markup_eq_markupOf, h.markup_eq_markupOf, hs.children id hid hne]
  refine markupOf_congr (fun c hc => hs.data c (h.consistent.lt_size hc)) fun c hc => ?_
  refine ih c hc (h.consistent.lt_size hc) ?_ fun hbc => hb (.head hc hbc)
  rintro rfl
  exact hb (.single hc)

theorem trans (h : t.Sown p m t') {m' : Markup} (h' : t'.Sown p m' t'') (hp : p < t.size) :
    t.Sown p (m.append m') t'' where
  wellFormed := h'.wellFormed
  size_le := Nat.le_trans h.size_le h'.size_le
  data id hid := by rw [h'.data id (Nat.lt_of_lt_of_le hid h.size_le), h.data id hid]
  children q hq hne := by rw [h'.children q (Nat.lt_of_lt_of_le hq h.size_le) hne, h.children q hq hne]
  added := by
    obtain ⟨ids, hk, hn, hm⟩ := h.added
    obtain ⟨ids', hk', hn', hm'⟩ := h'.added
    refine ⟨ids ++ ids', by rw [hk', hk, List.append_assoc], fun id hid => ?_, ?_⟩
    · rcases List.mem_append.mp hid with hid | hid
      · exact hn id hid
      · exact Nat.le_trans h.size_le (hn' id hid)
    · have child {id : NodeId} (hid : id ∈ ids) : id ∈ t'.children p := hk ▸ List.mem_append_right _ hid
      have old {id : NodeId} (hid : id ∈ ids) : id < t'.size := h.wellFormed.consistent.lt_size (child hid)
      have same : t''.markupOf ids = t'.markupOf ids := by
        refine markupOf_congr (fun id hid => h'.data id (old hid)) fun id hid => ?_
        refine h'.markup_eq h.wellFormed (old hid) ?_ fun hb => ?_
        · exact Nat.ne_of_gt (Nat.lt_of_lt_of_le hp (hn id hid))
        · exact h.wellFormed.acyclic p (.head (child hid) hb)
      rw [markupOf_append, hm', same, hm]

/-- A node that has been added is the last child. -/
theorem lastChild? {inner : Markup} (h : t.Sown p (.node data inner .nil) t') :
    ∃ id, t'.lastChild? p = some id ∧ t'.data? id = some data := by
  obtain ⟨ids, hk, -, hm⟩ := h.added
  have known {id : NodeId} (hid : id ∈ ids) : ∃ data, t'.data? id = some data :=
    Option.isSome_iff_exists.mp (data?_isSome.mpr
      (h.wellFormed.consistent.lt_size (hk ▸ List.mem_append_right _ hid)))
  rw [h.wellFormed.consistent.last, hk]
  cases ids with
  | nil => cases hm
  | cons id ids =>
    obtain ⟨data', hd⟩ := known List.mem_cons_self
    rw [markupOf_cons, hd] at hm
    obtain ⟨rfl, -, hn⟩ := Markup.node.inj hm
    cases ids with
    | nil => exact ⟨id, List.getLast?_concat, hd⟩
    | cons id' ids =>
      obtain ⟨data', hd'⟩ := known (List.mem_cons_of_mem _ List.mem_cons_self)
      rw [markupOf_cons, hd'] at hn
      cases hn

end Sown

/-- A tree with one new node, the last child of another one. -/
structure Planted (t : Tree) (p : NodeId) (data : NodeData) (t' : Tree) : Prop where
  wellFormed : t'.WellFormed
  data? : ∀ id, t'.data? id = if id = t.size then some data else t.data? id
  children : ∀ q, t'.children q = if q = p then t.children p ++ [t.size] else t.children q

theorem WellFormed.children_create (h : t.WellFormed) (data : NodeData) (q : NodeId) :
    (t.create data).1.children q = t.children q :=
  congrFun (h.consistent.linked_create data).children_eq q

theorem WellFormed.children_size (h : t.WellFormed) : t.children t.size = [] :=
  h.consistent.eq_nil_of_size_le (Nat.le_refl _)

theorem WellFormed.size_not_mem (h : t.WellFormed) (q : NodeId) : t.size ∉ t.children q :=
  h.consistent.not_mem_of_size_le (Nat.le_refl _)

/-- A node that has just been created can be put at the end of any list. -/
theorem planted_appendChild (h : t.WellFormed) (hp : p < t.size) (hw : t'.WellFormed)
    (hd : ∀ id, t'.data? id = if id = t.size then some data else t.data? id)
    (hk : ∀ q, t'.children q = t.children q) : t.Planted p data (t'.appendChild p t.size) := by
  have new : t'.data? t.size = some data := (hd t.size).trans (if_pos rfl)
  have old : (t'.data? p).isSome := by
    rw [hd, if_neg (Nat.ne_of_lt hp)]
    exact data?_isSome.mpr hp
  have hs := lt_size_of_data? new
  have hps := data?_isSome.mp old
  have hb : ¬ t'.Below t.size p := by
    rw [Below, funext hk]
    exact fun hb => Nat.lt_irrefl _ (h.above_lt_size hb)
  refine ⟨hw.appendChild (Nat.ne_of_lt hp) hps hs hb, fun id => ?_, fun q => ?_⟩
  · rw [data?_appendChild, hd]
  · rw [hw.children_appendChild (Nat.ne_of_lt hp) hps hs, hk, hk, List.erase_of_not_mem (h.size_not_mem p),
      List.erase_of_not_mem (h.size_not_mem q)]

theorem WellFormed.planted (h : t.WellFormed) (hp : p < t.size) (data : NodeData) :
    t.Planted p data (t.plant p data) :=
  planted_appendChild h hp (h.create data) (data?_create t data) (h.children_create data)

namespace Planted

theorem size (h : t.Planted p data t') : t'.size = t.size + 1 := by
  have hi (j : Nat) : j < t'.size ↔ j < t.size + 1 := by
    rw [← data?_isSome, h.data?]
    split
    next e => simp [e]
    next hne =>
      rw [data?_isSome, Nat.lt_succ_iff_lt_or_eq, or_iff_left hne]
  have h₁ := hi t.size
  have h₂ := hi (t.size + 1)
  omega

/-- A node and what is added below it are added as one. -/
theorem sown (h : t.Planted p data t') (ht : t.WellFormed) (hp : p < t.size) {inner : Markup}
    (hs : t'.Sown t.size inner t'') : t.Sown p (.node data inner .nil) t'' where
  wellFormed := hs.wellFormed
  size_le := Nat.le_trans (h.size ▸ Nat.le_succ _) hs.size_le
  data id hid := by
    rw [hs.data id (h.size ▸ Nat.lt_succ_of_lt hid), h.data?, if_neg (Nat.ne_of_lt hid)]
  children q hq hne := by
    rw [hs.children q (h.size ▸ Nat.lt_succ_of_lt hq) (Nat.ne_of_lt hq), h.children, if_neg hne]
  added := by
    have hk : t''.children p = t.children p ++ [t.size] := by
      rw [hs.children p (h.size ▸ Nat.lt_succ_of_lt hp) (Nat.ne_of_lt hp), h.children, if_pos rfl]
    refine ⟨[t.size], hk, fun id hid => Nat.le_of_eq (List.mem_singleton.mp hid).symm, ?_⟩
    obtain ⟨ids, hn, -, hm⟩ := hs.added
    have empty : t'.children t.size = [] := by
      rw [h.children, if_neg (Nat.ne_of_gt hp), ht.children_size]
    have new : t''.data? t.size = some data := by
      rw [hs.data t.size (h.size ▸ Nat.lt_succ_self _), h.data?, if_pos rfl]
    have below : t''.markup t.size = inner := by
      rw [hs.wellFormed.markup_eq_markupOf, hn, empty, List.nil_append, hm]
    rw [markupOf_cons, new, below]
    rfl

theorem sown_leaf (h : t.Planted p data t') (ht : t.WellFormed) (hp : p < t.size) :
    t.Sown p (.node data .nil .nil) t' :=
  h.sown ht hp (.refl h.wellFormed _)

end Planted

/-! Growing texts. -/

/-- Changing what a node is leaves the links as they are. -/
theorem WellFormed.update_data (h : t.WellFormed) (id : NodeId) (data : NodeData) :
    (t.update id fun n => { n with data }).WellFormed ∧
      ∀ q, (t.update id fun n => { n with data }).children q = t.children q := by
  have same {g : Node → Option NodeId} (hg : ∀ n, g { n with data } = g n) :
      (fun j => ((t.update id fun n => { n with data }).node? j).bind g) = fun j => (t.node? j).bind g := by
    funext j
    rw [bind_node?_update]
    split
    next => exact congrArg _ (funext hg)
    next => rfl
  have hl : (t.update id fun n => { n with data }).Linked t.children :=
    Linked.congr h.consistent (same (g := Node.parent) fun _ => rfl) (same (g := Node.firstChild) fun _ => rfl)
      (same (g := Node.lastChild) fun _ => rfl) (same (g := Node.prev) fun _ => rfl)
      (same (g := Node.next) fun _ => rfl)
  refine ⟨⟨hl.consistent, ?_⟩, congrFun hl.children_eq⟩
  rw [Below, hl.children_eq]
  exact h.acyclic

theorem data?_update_data (t : Tree) (id : NodeId) (data : NodeData) (j : NodeId) :
    (t.update id fun n => { n with data }).data? j =
      if j = id then (t.data? id).map fun _ => data else t.data? j := by
  have hu : (t.update id fun n => { n with data }).node? j =
      if id = j then (t.node? j).map fun n => { n with data } else t.node? j := by
    rw [node?, update, Array.getElem?_modify]
    rfl
  rw [Tree.data?, hu]
  split
  next e =>
    rw [if_pos e.symm, Tree.data?, e]
    cases t.node? j <;> rfl
  next hne => rw [if_neg (Ne.symm hne), Tree.data?]

/-- A text that has just been added can be made longer. -/
theorem Planted.extend {old : String} (h : t.Planted p (.text old) t') (new : String) :
    t.Planted p (.text new) (t'.update t.size fun n => { n with data := .text new }) where
  wellFormed := (h.wellFormed.update_data _ _).1
  data? id := by
    rw [data?_update_data, h.data?, if_pos rfl]
    split
    next => rfl
    next hne => rw [h.data?, if_neg hne]
  children q := by rw [(h.wellFormed.update_data _ _).2, h.children]

theorem Planted.lastChild? (h : t.Planted p data t') : t'.lastChild? p = some t.size := by
  rw [h.wellFormed.consistent.last, h.children, if_pos rfl, List.getLast?_concat]

end Tree

end LivePages
