import LivePages.Proofs.Dom.Forest
import LivePages.Proofs.Dom.Matching

namespace LivePages

namespace Tree

variable {t : Tree} {p q : NodeId} {data : NodeData}

theorem blank_wellFormed : blank.WellFormed := by
  have none {f : Node → Option NodeId} (hf : f { data := .document } = none) (id : NodeId) :
      (blank.node? id).bind f = none := by
    rw [node?, blank, List.getElem?_toArray, List.getElem?_singleton]
    split
    next => exact hf
    next => rfl
  have hl : blank.Linked fun _ => [] :=
    { first := none rfl
      last := none rfl
      entry := fun hk => by simp at hk
      distinct := fun _ => .nil
      loose := fun _ => ⟨none rfl _, none rfl _, none rfl _⟩ }
  refine ⟨hl.consistent, fun id hb => ?_⟩
  obtain ⟨c, hc, -⟩ := Relation.TransGen.head'_iff.mp hb
  rw [hl.children_eq] at hc
  cases hc

/-- Adds a new node at the end of a list. -/
def plant (t : Tree) (parent : NodeId) (data : NodeData) : Tree :=
  (t.create data).1.appendChild parent t.size

/-- A page node by node: each is the last child of an earlier one at the time. -/
def ofNodes (nodes : List (NodeId × NodeData)) : Tree :=
  nodes.foldl (fun t e => t.plant e.1 e.2) blank

theorem data?_plant (t : Tree) (p : NodeId) (data : NodeData) (q : NodeId) :
    (t.plant p data).data? q = if q = t.size then some data else t.data? q := by
  rw [plant, data?_appendChild, data?_create]

theorem WellFormed.create (h : t.WellFormed) (data : NodeData) : (t.create data).1.WellFormed where
  consistent := (h.consistent.linked_create data).consistent
  acyclic := by
    rw [Below, (h.consistent.linked_create data).children_eq]
    exact h.acyclic

theorem WellFormed.plant (h : t.WellFormed) (p : NodeId) (data : NodeData) :
    (t.plant p data).WellFormed := by
  have hc := h.create data
  have hs := size_create t data
  by_cases hp : p < t.size
  · have hb : ¬ (t.create data).1.Below t.size p := by
      rw [Below, (h.consistent.linked_create data).children_eq]
      exact fun hb => Nat.lt_irrefl _ (h.above_lt_size hb)
    exact hc.appendChild (Nat.ne_of_lt hp) (hs ▸ Nat.lt_succ_of_lt hp) (hs ▸ Nat.lt_succ_self _) hb
  · have hn : p = t.size ∨ ((t.create data).1.node? p).isNone ∨
        ((t.create data).1.node? t.size).isNone := by
      rcases Nat.lt_or_eq_of_le (Nat.le_of_not_lt hp) with hlt | e
      · refine .inr (.inl ?_)
        rw [node?_create, if_neg (Nat.ne_of_gt hlt), node?, Option.isNone_iff_eq_none]
        exact Array.getElem?_eq_none (Nat.le_of_lt hlt)
      · exact .inl e.symm
    rw [Tree.plant, Tree.appendChild, if_pos hn]
    exact hc

/-- However a page is put together, its links agree. -/
theorem ofNodes_wellFormed (nodes : List (NodeId × NodeData)) : (ofNodes nodes).WellFormed := by
  have fold {t : Tree} (h : t.WellFormed) :
      (nodes.foldl (fun t e => t.plant e.1 e.2) t).WellFormed := by
    induction nodes generalizing t with
    | nil => exact h
    | cons e nodes ih => exact ih (h.plant e.1 e.2)
  exact fold blank_wellFormed

theorem data?_root_ofNodes (nodes : List (NodeId × NodeData)) :
    (ofNodes nodes).data? root = some .document := by
  have fold {t : Tree} (h : t.data? root = some .document) :
      (nodes.foldl (fun t e => t.plant e.1 e.2) t).data? root = some .document := by
    induction nodes generalizing t with
    | nil => exact h
    | cons e nodes ih =>
      refine ih ?_
      rw [data?_plant, if_neg (Nat.ne_of_lt (lt_size_of_data? h)), h]
  exact fold rfl

end Tree

end LivePages
