import LivePages.Proofs.Dom.Planting

namespace LivePages

/-- A change of a tree's links. It may name any nodes: the same one twice, one below another, or
numbers that no node has. -/
inductive TreeEdit where
  | appendChild (parent child : NodeId)
  | prependChild (parent child : NodeId)
  | insertBefore (reference new : NodeId)
  | insertAfter (reference new : NodeId)
  | replace (old new : NodeId)
  | detach (id : NodeId)

def TreeEdit.apply (t : Tree) : TreeEdit → Tree
  | appendChild parent child => t.appendChild parent child
  | prependChild parent child => t.prependChild parent child
  | insertBefore reference new => t.insertBefore reference new
  | insertAfter reference new => t.insertAfter reference new
  | replace old new => t.replace old new
  | detach id => t.detach id

inductive TreeStep where
  | create (data : NodeData)
  | edit (e : TreeEdit)

namespace Tree

variable {t : Tree} {kids : NodeId → List NodeId} {p : NodeId}

def step (t : Tree) : TreeStep → Tree
  | .create data => (t.create data).1
  | .edit e => e.apply t

def run (t : Tree) (steps : List TreeStep) : Tree :=
  steps.foldl step t

/-- The nodes met on the way along the links to the next sibling, from a node to where the way ends. -/
inductive Walk (t : Tree) : Option NodeId → List NodeId → Prop where
  | done : Walk t none []
  | lost {c : NodeId} : t.node? c = none → Walk t (some c) []
  | next {c : NodeId} {node : Node} {rest : List NodeId} : t.node? c = some node →
      Walk t node.next rest → Walk t (some c) (c :: rest)

/-- The links of a tree are those of given child lists, which share no node and can be walked to
their ends. -/
structure Forest (t : Tree) (kids : NodeId → List NodeId) : Prop extends t.Linked kids where
  bounded : ∀ id v, t.parent? id = some v ∨ t.firstChild? id = some v ∨ t.lastChild? id = some v ∨
    t.prev? id = some v ∨ t.next? id = some v → v < t.size
  empty : ∀ p, t.size ≤ p → kids p = []
  once : ((List.range t.size).flatMap kids).Nodup
  walk : ∀ p, t.Walk (t.firstChild? p) (kids p)

namespace Linked

theorem link_lt_size (h : t.Linked kids) {id v : NodeId}
    (hv : t.parent? id = some v ∨ t.firstChild? id = some v ∨ t.lastChild? id = some v ∨
      t.prev? id = some v ∨ t.next? id = some v) : v < t.size := by
  rcases hv with hv | hv | hv | hv | hv
  · exact h.parent_lt_size (h.mem_of_parent hv)
  · exact h.lt_size (List.mem_of_mem_head? ((h.first id).symm.trans hv))
  · exact h.lt_size (List.mem_of_getLast? ((h.last id).symm.trans hv))
  · obtain ⟨q, -, hm⟩ := h.prev_mem hv
    exact h.lt_size hm
  · obtain ⟨q, -, hm⟩ := h.next_mem hv
    exact h.lt_size hm

/-- No node is in two lists, or twice in one. -/
theorem nodup_flatMap_range (h : t.Linked kids) : ((List.range t.size).flatMap kids).Nodup := by
  rw [List.nodup_flatMap]
  refine ⟨fun p _ => h.distinct p, List.nodup_range.imp fun {p q} hne => ?_⟩
  intro c hp hq
  exact hne (h.eq_of_mem hp hq)

theorem walk_suffix (h : t.Linked kids) {before rest : List NodeId} (hk : kids p = before ++ rest) :
    t.Walk rest.head? rest := by
  induction rest generalizing before with
  | nil => exact .done
  | cons c rest ih =>
    have hc : c ∈ kids p := by simp [hk]
    obtain ⟨node, hn⟩ := Option.isSome_iff_exists.mp (node?_isSome.mpr (h.lt_size hc))
    have hx : node.next = rest.head? := by
      have hx := (h.entry hk).2.2
      rwa [next?, hn, Option.bind_some] at hx
    refine .next hn ?_
    rw [hx]
    exact ih (show kids p = (before ++ [c]) ++ rest by simp [hk])

theorem forest (h : t.Linked kids) : t.Forest kids where
  toLinked := h
  bounded _ _ hv := h.link_lt_size hv
  empty _ hp := h.eq_nil_of_size_le hp
  once := h.nodup_flatMap_range
  walk p := by
    rw [h.first]
    exact h.walk_suffix (List.nil_append _).symm

end Linked

theorem not_isNone_node? {id : NodeId} : ¬ (t.node? id).isNone ↔ id < t.size := by
  rw [Option.isNone_iff_eq_none, ← ne_eq, ← Option.isSome_iff_ne_none, node?_isSome]

namespace Consistent

theorem create (h : t.Consistent) (data : NodeData) : (t.create data).1.Consistent :=
  (Linked.linked_create h data).consistent

theorem detach (h : t.Consistent) (id : NodeId) : (t.detach id).Consistent :=
  (Linked.linked_detach h id).consistent

theorem appendChild (h : t.Consistent) (p c : NodeId) : (t.appendChild p c).Consistent := by
  by_cases hg : p = c ∨ (t.node? p).isNone ∨ (t.node? c).isNone
  · rw [Tree.appendChild, if_pos hg]
    exact h
  · rw [not_or, not_or, not_isNone_node?, not_isNone_node?] at hg
    exact (Linked.linked_appendChild h hg.1 hg.2.1 hg.2.2).consistent

/-- A node put beside its own child becomes its own parent; the links agree even then. -/
theorem insertBefore (h : t.Consistent) (r n : NodeId) : (t.insertBefore r n).Consistent := by
  by_cases hg : r = n ∨ (t.node? n).isNone
  · rw [Tree.insertBefore, if_pos hg]
    exact h
  · cases hp : t.parent? r with
    | none =>
      rw [Tree.insertBefore, if_neg hg, hp]
      exact h
    | some p =>
      rw [not_or, not_isNone_node?] at hg
      exact (Linked.linked_insertBefore h hg.1 hg.2 (h.mem_of_parent hp)).consistent

theorem prependChild (h : t.Consistent) (p c : NodeId) : (t.prependChild p c).Consistent := by
  rw [Tree.prependChild]
  split
  next first _ => exact h.insertBefore first c
  next => exact h.appendChild p c

theorem insertAfter (h : t.Consistent) (r n : NodeId) : (t.insertAfter r n).Consistent := by
  rw [Tree.insertAfter]
  split_ifs with hne
  · exact h
  · split
    next next _ =>
      split_ifs
      · exact h
      · exact h.insertBefore next n
    next =>
      split
      next p _ => exact h.appendChild p n
      next => exact h

theorem replace (h : t.Consistent) (old new : NodeId) : (t.replace old new).Consistent := by
  rw [Tree.replace]
  split_ifs
  · exact h
  · exact (h.insertBefore old new).detach old

theorem apply (h : t.Consistent) (e : TreeEdit) : (e.apply t).Consistent := by
  cases e with
  | appendChild p c => exact h.appendChild p c
  | prependChild p c => exact h.prependChild p c
  | insertBefore r n => exact h.insertBefore r n
  | insertAfter r n => exact h.insertAfter r n
  | replace old new => exact h.replace old new
  | detach id => exact h.detach id

theorem step (h : t.Consistent) (s : TreeStep) : (t.step s).Consistent := by
  cases s with
  | create data => exact h.create data
  | edit e => exact h.apply e

theorem run (h : t.Consistent) (steps : List TreeStep) : (t.run steps).Consistent := by
  induction steps generalizing t with
  | nil => exact h
  | cons s steps ih => exact ih (h.step s)

end Consistent

/-- However a tree is put together and changed, its links are those of child lists. -/
theorem forest_run (steps : List TreeStep) :
    (blank.run steps).Forest (blank.run steps).children :=
  (blank_wellFormed.consistent.run steps).forest

end Tree

end LivePages
