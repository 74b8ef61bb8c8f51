import LivePages.Proofs.Dom.DocumentOrder
import LivePages.Proofs.Dom.Templates

namespace LivePages

/-- One more edge makes no cycle unless its end already led to its start. -/
theorem acyclic_of_edge {α : Type} {r s : α → α → Prop} {p n : α}
    (edge : ∀ a b, s a b → r a b ∨ a = p ∧ b = n) (acyclic : ∀ a, ¬ Relation.TransGen r a a)
    (hn : ¬ Relation.ReflTransGen r n p) (a : α) : ¬ Relation.TransGen s a a := by
  have path {a b : α} (h : Relation.TransGen s a b) :
      Relation.TransGen r a b ∨ Relation.ReflTransGen r a p ∧ Relation.ReflTransGen r n b := by
    induction h with
    | single h =>
      rcases edge _ _ h with h | ⟨rfl, rfl⟩
      · exact .inl (.single h)
      · exact .inr ⟨.refl, .refl⟩
    | tail _ h ih =>
      rcases edge _ _ h with h | ⟨rfl, rfl⟩
      · exact ih.imp (·.tail h) fun ⟨ha, hb⟩ => ⟨ha, hb.tail h⟩
      · rcases ih with ih | ⟨ha, -⟩
        · exact .inr ⟨ih.to_reflTransGen, .refl⟩
        · exact .inr ⟨ha, .refl⟩
  intro h
  rcases path h with h | ⟨ha, hb⟩
  · exact acyclic a h
  · exact hn (hb.trans ha)

namespace Tree

variable {t t' : Tree} {kids : NodeId → List NodeId} {p c : NodeId}

theorem not_reaches (hne : p ≠ c) (hb : ¬ t.Below c p) :
    ¬ Relation.ReflTransGen (fun a b => b ∈ t.children a) c p := by
  intro hr
  rcases Relation.reflTransGen_iff_eq_or_transGen.mp hr with e | hr
  · exact hne e
  · exact hb hr

namespace WellFormed

/-- A tree stays well formed when its lists lose entries and one gets a node that is not above. -/
theorem of_linked (h : t.WellFormed) (hl : t'.Linked kids) (hne : p ≠ c) (hb : ¬ t.Below c p)
    (edge : ∀ a b, b ∈ kids a → b ∈ t.children a ∨ a = p ∧ b = c) : t'.WellFormed where
  consistent := hl.consistent
  acyclic := by
    rw [Below, hl.children_eq]
    exact acyclic_of_edge edge h.acyclic (not_reaches hne hb)

theorem children_detach (h : t.WellFormed) (id q : NodeId) :
    (t.detach id).children q = (t.children q).erase id := by
  rw [(h.consistent.linked_detach id).children_eq]

theorem detach (h : t.WellFormed) (id : NodeId) : (t.detach id).WellFormed where
  consistent := (h.consistent.linked_detach id).consistent
  acyclic id' hb := by
    refine h.acyclic id' (Relation.TransGen.mono (fun q c hm => ?_) id' id' hb)
    rw [h.children_detach] at hm
    exact List.mem_of_mem_erase hm

theorem children_appendChild (h : t.WellFormed) (hne : p ≠ c) (hp : p < t.size) (hc : c < t.size)
    (q : NodeId) : (t.appendChild p c).children q =
      if q = p then (t.children p).erase c ++ [c] else (t.children q).erase c := by
  rw [(h.consistent.linked_appendChild hne hp hc).children_eq]

theorem appendChild (h : t.WellFormed) (hne : p ≠ c) (hp : p < t.size) (hc : c < t.size)
    (hb : ¬ t.Below c p) : (t.appendChild p c).WellFormed := by
  refine h.of_linked (h.consistent.linked_appendChild hne hp hc) hne hb fun a b hm => ?_
  split at hm
  next e =>
    rcases List.mem_append.mp hm with hm | hm
    · exact .inl (e ▸ List.mem_of_mem_erase hm)
    · exact .inr ⟨e, List.mem_singleton.mp hm⟩
  next => exact .inl (List.mem_of_mem_erase hm)

theorem children_prependChild (h : t.WellFormed) (hne : p ≠ c) (hp : p < t.size) (hc : c < t.size)
    (q : NodeId) : (t.prependChild p c).children q =
      if q = p then c :: (t.children p).erase c else (t.children q).erase c := by
  rw [(h.consistent.linked_prependChild hne hp hc).children_eq]

theorem prependChild (h : t.WellFormed) (hne : p ≠ c) (hp : p < t.size) (hc : c < t.size)
    (hb : ¬ t.Below c p) : (t.prependChild p c).WellFormed := by
  refine h.of_linked (h.consistent.linked_prependChild hne hp hc) hne hb fun a b hm => ?_
  split at hm
  next e =>
    rcases List.mem_cons.mp hm with hm | hm
    · exact .inr ⟨e, hm⟩
    · exact .inl (e ▸ List.mem_of_mem_erase hm)
  next => exact .inl (List.mem_of_mem_erase hm)

theorem children_insertBefore (h : t.WellFormed) {r n : NodeId} (hne : r ≠ n) (hn : n < t.size)
    (hr : r ∈ t.children p) (q : NodeId) :
    (t.insertBefore r n).children q = splice r [n, r] ((t.children q).erase n) := by
  rw [(h.consistent.linked_insertBefore hne hn hr).children_eq]

theorem insertBefore (h : t.WellFormed) {r n : NodeId} (hne : r ≠ n) (hn : n < t.size)
    (hr : r ∈ t.children p) (hpn : p ≠ n) (hb : ¬ t.Below n p) :
    (t.insertBefore r n).WellFormed := by
  refine h.of_linked (h.consistent.linked_insertBefore hne hn hr) hpn hb fun a b hm => ?_
  rcases mem_splice.mp hm with ⟨hm, -⟩ | ⟨hm, hb⟩
  · exact .inl (List.mem_of_mem_erase hm)
  · have ha := List.mem_of_mem_erase hm
    rcases List.mem_cons.mp hb with rfl | hb
    · exact .inr ⟨h.parent_eq ha hr, rfl⟩
    · exact .inl (List.mem_singleton.mp hb ▸ ha)

theorem children_insertAfter (h : t.WellFormed) {r n : NodeId} (hne : r ≠ n) (hn : n < t.size)
    (hr : r ∈ t.children p) (hpn : p ≠ n) (q : NodeId) :
    (t.insertAfter r n).children q = splice r [r, n] ((t.children q).erase n) := by
  rw [(h.consistent.linked_insertAfter hne hn hr hpn).children_eq]

theorem insertAfter (h : t.WellFormed) {r n : NodeId} (hne : r ≠ n) (hn : n < t.size)
    (hr : r ∈ t.children p) (hpn : p ≠ n) (hb : ¬ t.Below n p) : (t.insertAfter r n).WellFormed := by
  refine h.of_linked (h.consistent.linked_insertAfter hne hn hr hpn) hpn hb fun a b hm => ?_
  rcases mem_splice.mp hm with ⟨hm, -⟩ | ⟨hm, hb⟩
  · exact .inl (List.mem_of_mem_erase hm)
  · have ha := List.mem_of_mem_erase hm
    rcases List.mem_cons.mp hb with rfl | hb
    · exact .inl ha
    · exact .inr ⟨h.parent_eq ha hr, List.mem_singleton.mp hb⟩

theorem children_replace (h : t.WellFormed) {old new : NodeId} (hne : old ≠ new) (hn : new < t.size)
    (ho : old ∈ t.children p) (q : NodeId) :
    (t.replace old new).children q = splice old [new] ((t.children q).erase new) := by
  rw [(h.consistent.linked_replace hne hn ho).children_eq]

theorem replace (h : t.WellFormed) {old new : NodeId} (hne : old ≠ new) (hn : new < t.size)
    (ho : old ∈ t.children p) (hpn : p ≠ new) (hb : ¬ t.Below new p) :
    (t.replace old new).WellFormed := by
  refine h.of_linked (h.consistent.linked_replace hne hn ho) hpn hb fun a b hm => ?_
  rcases mem_splice.mp hm with ⟨hm, -⟩ | ⟨hm, hb⟩
  · exact .inl (List.mem_of_mem_erase hm)
  · exact .inr ⟨h.parent_eq (List.mem_of_mem_erase hm) ho, List.mem_singleton.mp hb⟩

theorem children_instantiate (h : t.WellFormed) (template : Template) (q : NodeId) :
    (t.instantiate template).1.children q =
      if q = t.size then t.textIds template else t.children q := by
  rw [(h.consistent.linked_instantiate template).children_eq]

theorem instantiate (h : t.WellFormed) (template : Template) :
    (t.instantiate template).1.WellFormed := by
  have hne : t.size ≠ t.size + 1 := by omega
  have hb : ¬ t.Below (t.size + 1) t.size := fun hb => Nat.lt_irrefl _ (h.below_lt_size hb)
  refine h.of_linked (h.consistent.linked_instantiate template) hne hb fun a b hm => ?_
  split at hm
  next e =>
    rw [textIds, Option.mem_toList, Option.map_eq_some_iff] at hm
    obtain ⟨_, _, rfl⟩ := hm
    exact .inr ⟨e, rfl⟩
  next => exact .inl hm

end WellFormed
end Tree

end LivePages
