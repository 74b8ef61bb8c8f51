import LivePages.Proofs.Dom.Built
import LivePages.Proofs.Dom.ListEdits

namespace LivePages

namespace TreeEdit

/-- An edit that names one node twice, or a number that no node has. -/
def Void (t : Tree) (e : TreeEdit) : Prop :=
  ¬ e.nodes.Nodup ∨ ∃ id ∈ e.nodes, t.size ≤ id

/-- The void edits that are carried out nevertheless: a node with other children put before its own
first child, and a node that is replaced by none. -/
def Slips (t : Tree) : TreeEdit → Prop
  | prependChild parent child => parent = child ∧ ∃ first ≠ parent, t.firstChild? parent = some first
  | replace old new => t.size ≤ new ∧ t.parent? old ≠ none
  | _ => False

end TreeEdit

namespace Tree

variable {t t' : Tree} {e : TreeEdit} {p c r n id old new : NodeId}

/-- Every node has the same links. -/
structure SameLinks (t t' : Tree) : Prop where
  parent : t'.parent? = t.parent?
  first : t'.firstChild? = t.firstChild?
  last : t'.lastChild? = t.lastChild?
  prev : t'.prev? = t.prev?
  next : t'.next? = t.next?

theorem SameLinks.refl (t : Tree) : t.SameLinks t :=
  ⟨rfl, rfl, rfl, rfl, rfl⟩

theorem node?_eq_none (h : t.size ≤ id) : t.node? id = none :=
  Array.getElem?_eq_none h

theorem bind_node?_eq_none (h : t.size ≤ id) (f : Node → Option NodeId) :
    (t.node? id).bind f = none := by
  rw [node?_eq_none h, Option.bind_none]

theorem appendChild_of_void (h : p = c ∨ t.size ≤ p ∨ t.size ≤ c) : t.appendChild p c = t := by
  refine if_pos (h.imp_right fun h => ?_)
  exact h.imp (fun h => by rw [node?_eq_none h]; rfl) fun h => by rw [node?_eq_none h]; rfl

theorem insertBefore_of_void (h : r = n ∨ t.size ≤ r ∨ t.size ≤ n) : t.insertBefore r n = t := by
  rcases h with h | h | h
  · exact if_pos (.inl h)
  · exact insertBefore_of_loose (bind_node?_eq_none h _) n
  · exact if_pos (.inr (by rw [node?_eq_none h]; rfl))

theorem insertAfter_of_void (h : r = n ∨ t.size ≤ r ∨ t.size ≤ n) : t.insertAfter r n = t := by
  rw [insertAfter]
  split_ifs with hne
  · rfl
  · replace h := h.resolve_left hne
    split
    next next hx =>
      split_ifs
      · rfl
      · refine insertBefore_of_void (.inr (.inr (h.resolve_left fun hr => ?_)))
        rw [next?, bind_node?_eq_none hr] at hx
        cases hx
    next =>
      split
      next p hp =>
        refine appendChild_of_void (.inr (.inr (h.resolve_left fun hr => ?_)))
        rw [parent?, bind_node?_eq_none hr] at hp
        cases hp
      next => rfl

theorem prependChild_of_void (h : p = c ∨ t.size ≤ p ∨ t.size ≤ c)
    (hs : ¬ (TreeEdit.prependChild p c).Slips t) : t.prependChild p c = t := by
  rw [prependChild]
  split
  next first hf =>
    rcases h with rfl | h | h
    · by_cases hp : first = p
      · exact insertBefore_of_void (.inl hp)
      · exact absurd ⟨rfl, first, hp, hf⟩ hs
    · rw [firstChild?, bind_node?_eq_none h] at hf
      cases hf
    · exact insertBefore_of_void (.inr (.inr h))
  next => exact appendChild_of_void h

theorem replace_of_void (h : old = new ∨ t.size ≤ old ∨ t.size ≤ new)
    (hs : ¬ (TreeEdit.replace old new).Slips t) : t.replace old new = t := by
  cases hp : t.parent? old with
  | none => exact replace_of_loose hp new
  | some p =>
    rcases h with h | h | h
    · exact if_pos (.inl h)
    · rw [parent?, bind_node?_eq_none h] at hp
      cases hp
    · refine absurd ⟨h, ?_⟩ hs
      rw [hp]
      exact Option.some_ne_none p

theorem apply_of_void (hv : e.Void t) (hs : ¬ e.Slips t) : e.apply t = t := by
  have pair {a b : NodeId} (h : ¬ [a, b].Nodup ∨ ∃ id ∈ [a, b], t.size ≤ id) :
      a = b ∨ t.size ≤ a ∨ t.size ≤ b := by
    simpa using h
  cases e with
  | appendChild p c => exact appendChild_of_void (pair hv)
  | prependChild p c => exact prependChild_of_void (pair hv) hs
  | insertBefore r n => exact insertBefore_of_void (pair hv)
  | insertAfter r n => exact insertAfter_of_void (pair hv)
  | replace old new => exact replace_of_void (pair hv) hs
  | detach id =>
    have h : t.size ≤ id := by simpa [TreeEdit.Void, TreeEdit.nodes] using hv
    exact detach_of_parent_eq_none (bind_node?_eq_none h _)

/-- What is left of a node that is replaced by none is a node taken out. -/
theorem replace_of_unknown (hn : t.size ≤ new) (hp : t.parent? old ≠ none) :
    t.replace old new = t.detach old := by
  have hne : old ≠ new := by
    rintro rfl
    exact hp (bind_node?_eq_none hn _)
  rw [replace, if_neg, insertBefore_of_void (.inr (.inr hn))]
  rw [not_or, Option.isNone_iff_eq_none]
  exact ⟨hne, hp⟩

/-- A void edit leaves all links of all nodes alone, whatever nodes it names, with two exceptions.
Put before its own first child, a node leaves its place and becomes a child of its own; and a node
that is replaced by none is taken out. -/
theorem sameLinks_apply_iff (h : t.Built) (hv : e.Void t) :
    (t.SameLinks (e.apply t) ↔ ¬ e.Slips t) ∧
    (∀ p, e = .prependChild p p → e.Slips t →
      (e.apply t).parent? p = some p ∧ (e.apply t).children p = p :: (t.children p).erase p) ∧
    ∀ old new, e = .replace old new → e.Slips t → e.apply t = t.detach old := by
  have prepended {p first : NodeId} (hf : t.firstChild? p = some first) :=
    h.consistent.linked_prependChild_of_first hf (lt_size_of_bind hf)
  refine ⟨⟨fun hs => ?_, fun hs => ?_⟩, ?_, ?_⟩
  -- Both exceptions are seen in the links: the first child is another, or the parent is gone.
  · cases e with
    | prependChild p c =>
      rintro ⟨rfl, first, hne, hf⟩
      have hfirst := (prepended hf).first p
      rw [if_pos rfl, List.head?_cons] at hfirst
      exact hne (Option.some.inj (hf.symm.trans ((congrFun hs.first p).symm.trans hfirst)))
    | replace old new =>
      rintro ⟨hn, hp⟩
      have hout : (t.replace old new).parent? old = none := by
        rw [replace_of_unknown hn hp, (h.consistent.unlinks_detach old).parent, if_pos rfl]
      exact hp ((congrFun hs.parent old).symm.trans hout)
    | appendChild => exact id
    | insertBefore => exact id
    | insertAfter => exact id
    | detach => exact id
  · rw [apply_of_void hv hs]
    exact .refl t
  · rintro p rfl ⟨-, first, -, hf⟩
    have hk := congrFun (prepended hf).children_eq p
    rw [if_pos rfl] at hk
    exact ⟨(prepended hf).parent_of_mem (by rw [if_pos rfl]; exact List.mem_cons_self), hk⟩
  · rintro old new rfl ⟨hn, hp⟩
    exact replace_of_unknown hn hp

/-- A list with one item. -/
def itemTree : Tree :=
  (((blank.createElement "ul").1.createElement "li").1.appendChild root 1).appendChild 1 2

theorem built_itemTree : itemTree.Built := by
  have elements := (Built.blank.createElement "ul").createElement "li"
  exact .edit (.appendChild 1 2) (.edit (.appendChild root 1) elements)

theorem sameLinks_itemTree :
    (TreeEdit.appendChild 1 1).Void itemTree ∧ itemTree.SameLinks (itemTree.appendChild 1 1) ∧
    (TreeEdit.prependChild 1 1).Void itemTree ∧ (itemTree.prependChild 1 1).children 1 = [1, 2] ∧
    (TreeEdit.replace 2 9).Void itemTree ∧ itemTree.replace 2 9 = itemTree.detach 2 := by
  have appended : (TreeEdit.appendChild 1 1).Void itemTree := .inl (by decide)
  have prepended : (TreeEdit.prependChild 1 1).Void itemTree := .inl (by decide)
  have replaced : (TreeEdit.replace 2 9).Void itemTree := .inr ⟨9, by simp [TreeEdit.nodes], by decide⟩
  have first : (TreeEdit.prependChild 1 1).Slips itemTree := ⟨rfl, 2, by decide, by decide⟩
  have second : (TreeEdit.replace 2 9).Slips itemTree := ⟨by decide, by decide⟩
  refine ⟨appended, (sameLinks_apply_iff built_itemTree appended).1.mpr id, prepended, ?_,
    replaced, (sameLinks_apply_iff built_itemTree replaced).2.2 2 9 rfl second⟩
  exact ((sameLinks_apply_iff built_itemTree prepended).2.1 1 rfl first).2.trans (by decide)

end Tree

end LivePages
