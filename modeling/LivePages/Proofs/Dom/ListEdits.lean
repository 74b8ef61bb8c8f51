import LivePages.Proofs.Dom.EditRuns

namespace LivePages

namespace TreeEdit

def nodes : TreeEdit → List NodeId
  | appendChild parent child => [parent, child]
  | prependChild parent child => [parent, child]
  | insertBefore reference new => [reference, new]
  | insertAfter reference new => [reference, new]
  | replace old new => [old, new]
  | detach id => [id]

/-- The node that leaves its list. -/
def moved : TreeEdit → NodeId
  | appendChild _ child => child
  | prependChild _ child => child
  | insertBefore _ new => new
  | insertAfter _ new => new
  | replace _ new => new
  | detach id => id

/-- The node whose place decides where the moved one goes. -/
def reference? : TreeEdit → Option NodeId
  | insertBefore reference _ => some reference
  | insertAfter reference _ => some reference
  | replace old _ => some old
  | _ => none

/-- The node whose list the moved one enters. -/
def destination? (t : Tree) : TreeEdit → Option NodeId
  | appendChild parent _ => some parent
  | prependChild parent _ => some parent
  | insertBefore reference _ => t.parent? reference
  | insertAfter reference _ => t.parent? reference
  | replace old _ => t.parent? old
  | detach _ => none

/-- The list that the moved node enters, before and after. -/
def enter : TreeEdit → List NodeId → List NodeId
  | appendChild _ child, l => l ++ [child]
  | prependChild _ child, l => child :: l
  | insertBefore reference new, l => splice reference [new, reference] l
  | insertAfter reference new, l => splice reference [reference, new] l
  | replace old new, l => splice old [new] l
  | detach _, l => l

/-- The child lists after an edit: the moved node is taken from wherever it was and enters the list
of its destination. -/
def onLists (t : Tree) (e : TreeEdit) (q : NodeId) : List NodeId :=
  let rest := (t.children q).erase e.moved
  if e.destination? t = some q then e.enter rest else rest

/-- The node that is in no list after an edit. -/
def removed? : TreeEdit → Option NodeId
  | replace old _ => some old
  | detach id => some id
  | _ => none

/-- The nodes of an edit exist, and it puts none beside itself or below itself. -/
structure Fits (t : Tree) (e : TreeEdit) : Prop where
  known : ∀ id ∈ e.nodes, id < t.size
  apart : e.reference? ≠ some e.moved
  above : ∀ p, e.destination? t = some p → p ≠ e.moved ∧ ¬ t.Below e.moved p

/-- The reference of an edit, if it has one, is in some list. -/
def Placed (t : Tree) (e : TreeEdit) : Prop :=
  ∀ r, e.reference? = some r → t.parent? r ≠ none

end TreeEdit

namespace Tree

variable {t t' : Tree} {e : TreeEdit} {p r : NodeId} {block : List NodeId}

/-- What an edit does to a tree is what it does to the child lists. -/
structure Refines (t : Tree) (e : TreeEdit) (t' : Tree) : Prop where
  wellFormed : t'.WellFormed
  data : t'.data? = t.data?
  children : ∀ q, t'.children q = e.onLists t q
  others : ∀ q, e.destination? t ≠ some q → e.moved ∉ t.children q → t'.children q = t.children q
  removed : ∀ c, e.removed? = some c → t'.parent? c = none

theorem Refines.of_children (hw : t'.WellFormed) (hd : t'.data? = t.data?)
    (hk : ∀ q, t'.children q = e.onLists t q)
    (hr : ∀ c, e.removed? = some c → ∀ q, c ∉ t'.children q) : t.Refines e t' where
  wellFormed := hw
  data := hd
  children := hk
  others q hq hm := by
    rw [hk, TreeEdit.onLists, if_neg hq, List.erase_of_not_mem hm]
  removed c hc := (hw.consistent.loose (hr c hc)).1

theorem onLists_eq_ite (hd : e.destination? t = some p) (q : NodeId) : e.onLists t q =
    if q = p then e.enter ((t.children p).erase e.moved) else (t.children q).erase e.moved := by
  rw [TreeEdit.onLists, hd]
  by_cases hq : q = p
  · rw [hq, if_pos rfl, if_pos rfl]
  · rw [if_neg hq, if_neg fun e => hq (Option.some.inj e).symm]

namespace WellFormed

/-- No list but that of the destination holds the reference. -/
theorem onLists_eq_splice (h : t.WellFormed) (hr : r ∈ t.children p)
    (hd : e.destination? t = some p) (he : ∀ l, e.enter l = splice r block l) (q : NodeId) :
    e.onLists t q = splice r block ((t.children q).erase e.moved) := by
  rw [onLists_eq_ite hd]
  split
  next hq => rw [hq, he]
  next hq =>
    exact (splice_of_not_mem fun hm => hq (h.parent_eq (List.mem_of_mem_erase hm) hr)).symm

variable {c n old new : NodeId}

theorem refines_appendChild (h : t.WellFormed) (hf : (TreeEdit.appendChild p c).Fits t) :
    t.Refines (.appendChild p c) (t.appendChild p c) := by
  obtain ⟨hne, hb⟩ : p ≠ c ∧ ¬ t.Below c p := hf.above p rfl
  have hp : p < t.size := hf.known p (by simp [TreeEdit.nodes])
  have hc : c < t.size := hf.known c (by simp [TreeEdit.nodes])
  refine .of_children (h.appendChild hne hp hc hb) (data?_appendChild t p c) (fun q => ?_)
    fun _ hr => nomatch hr
  rw [h.children_appendChild hne hp hc, onLists_eq_ite rfl]
  rfl

theorem refines_prependChild (h : t.WellFormed) (hf : (TreeEdit.prependChild p c).Fits t) :
    t.Refines (.prependChild p c) (t.prependChild p c) := by
  obtain ⟨hne, hb⟩ : p ≠ c ∧ ¬ t.Below c p := hf.above p rfl
  have hp : p < t.size := hf.known p (by simp [TreeEdit.nodes])
  have hc : c < t.size := hf.known c (by simp [TreeEdit.nodes])
  refine .of_children (h.prependChild hne hp hc hb) (data?_prependChild t p c) (fun q => ?_)
    fun _ hr => nomatch hr
  rw [h.children_prependChild hne hp hc, onLists_eq_ite rfl]
  rfl

theorem refines_insertBefore (h : t.WellFormed) (hf : (TreeEdit.insertBefore r n).Fits t)
    (hp : t.parent? r = some p) : t.Refines (.insertBefore r n) (t.insertBefore r n) := by
  obtain ⟨hpn, hb⟩ : p ≠ n ∧ ¬ t.Below n p := hf.above p hp
  have hr := h.consistent.mem_of_parent hp
  have hne : r ≠ n := fun e => hf.apart (congrArg some e)
  have hn : n < t.size := hf.known n (by simp [TreeEdit.nodes])
  have hl := h.onLists_eq_splice (e := .insertBefore r n) hr hp fun _ => rfl
  refine .of_children (h.insertBefore hne hn hr hpn hb) (data?_insertBefore t r n) (fun q => ?_)
    fun _ hr => nomatch hr
  rw [hl]
  exact h.children_insertBefore hne hn hr q

theorem refines_insertAfter (h : t.WellFormed) (hf : (TreeEdit.insertAfter r n).Fits t)
    (hp : t.parent? r = some p) : t.Refines (.insertAfter r n) (t.insertAfter r n) := by
  obtain ⟨hpn, hb⟩ : p ≠ n ∧ ¬ t.Below n p := hf.above p hp
  have hr := h.consistent.mem_of_parent hp
  have hne : r ≠ n := fun e => hf.apart (congrArg some e)
  have hn : n < t.size := hf.known n (by simp [TreeEdit.nodes])
  have hl := h.onLists_eq_splice (e := .insertAfter r n) hr hp fun _ => rfl
  refine .of_children (h.insertAfter hne hn hr hpn hb) (data?_insertAfter t r n) (fun q => ?_)
    fun _ hr => nomatch hr
  rw [hl]
  exact h.children_insertAfter hne hn hr hpn q

theorem refines_replace (h : t.WellFormed) (hf : (TreeEdit.replace old new).Fits t)
    (hp : t.parent? old = some p) : t.Refines (.replace old new) (t.replace old new) := by
  obtain ⟨hpn, hb⟩ : p ≠ new ∧ ¬ t.Below new p := hf.above p hp
  have ho := h.consistent.mem_of_parent hp
  have hne : old ≠ new := fun e => hf.apart (congrArg some e)
  have hn : new < t.size := hf.known new (by simp [TreeEdit.nodes])
  have hl := h.onLists_eq_splice (e := .replace old new) ho hp fun _ => rfl
  have hk := h.children_replace hne hn ho
  refine .of_children (h.replace hne hn ho hpn hb) (data?_replace t old new) (fun q => ?_) ?_
  · rw [hl]
    exact hk q
  · rintro c hc q hm
    cases Option.some.inj hc
    rw [hk, mem_splice] at hm
    rcases hm with ⟨-, hm⟩ | ⟨-, hm⟩
    · exact hm rfl
    · exact hne (List.mem_singleton.mp hm)

theorem refines_detach (h : t.WellFormed) (c : NodeId) : t.Refines (.detach c) (t.detach c) := by
  have hk := h.children_detach c
  refine .of_children (h.detach c) (data?_detach t c) hk ?_
  rintro d hd q hm
  cases Option.some.inj hd
  rw [hk] at hm
  exact ((h.consistent.distinct q).mem_erase_iff.mp hm).1 rfl

end WellFormed

section Loose

variable (h : t.parent? r = none) (n : NodeId)
include h

theorem insertBefore_of_loose : t.insertBefore r n = t := by
  rw [insertBefore, h]
  exact ite_self t

theorem replace_of_loose : t.replace r n = t := by
  rw [replace, h]
  exact if_pos (.inr rfl)

theorem insertAfter_of_loose (hw : t.Consistent) : t.insertAfter r n = t := by
  have hx := (hw.loose (hw.not_mem_of_parent_eq_none h)).2.2
  rw [insertAfter, hx, h]
  exact ite_self t

end Loose

/-- An edit takes the moved node from its list and puts it where it belongs, and changes nothing
else; beside a node that is in no list it does nothing at all. -/
theorem refines_apply (h : t.WellFormed) (hf : e.Fits t) :
    (e.Placed t → t.Refines e (e.apply t)) ∧ (¬ e.Placed t → e.apply t = t) := by
  have loose {r : NodeId} (hr : e.reference? = some r) (hn : ¬ e.Placed t) : t.parent? r = none := by
    by_contra hp
    refine hn fun r' hr' => ?_
    cases Option.some.inj (hr.symm.trans hr')
    exact hp
  have placed {r : NodeId} (hr : e.reference? = some r) (hp : e.Placed t) :
      ∃ p, t.parent? r = some p :=
    Option.ne_none_iff_exists'.mp (hp r hr)
  cases e with
  | appendChild p c =>
    exact ⟨fun _ => h.refines_appendChild hf, fun hn => absurd (fun _ hr => nomatch hr) hn⟩
  | prependChild p c =>
    exact ⟨fun _ => h.refines_prependChild hf, fun hn => absurd (fun _ hr => nomatch hr) hn⟩
  | insertBefore r n =>
    refine ⟨fun hp => ?_, fun hn => insertBefore_of_loose (loose rfl hn) n⟩
    obtain ⟨p, hp⟩ := placed rfl hp
    exact h.refines_insertBefore hf hp
  | insertAfter r n =>
    refine ⟨fun hp => ?_, fun hn => insertAfter_of_loose (loose rfl hn) n h.consistent⟩
    obtain ⟨p, hp⟩ := placed rfl hp
    exact h.refines_insertAfter hf hp
  | replace old new =>
    refine ⟨fun hp => ?_, fun hn => replace_of_loose (loose rfl hn) new⟩
    obtain ⟨p, hp⟩ := placed rfl hp
    exact h.refines_replace hf hp
  | detach id =>
    exact ⟨fun _ => h.refines_detach id, fun hn => absurd (fun _ hr => nomatch hr) hn⟩

/-- Three empty elements side by side. -/
def threeSiblings : Tree :=
  ofNodes [(0, .element ⟨"h1", []⟩), (0, .element ⟨"p", []⟩), (0, .element ⟨"ul", []⟩)]

theorem refines_threeSiblings : threeSiblings.WellFormed ∧
    (TreeEdit.replace 1 2).Fits threeSiblings ∧ (TreeEdit.replace 1 2).Placed threeSiblings ∧
    threeSiblings.children 0 = [1, 2, 3] ∧ (threeSiblings.replace 1 2).children 0 = [2, 3] ∧
    (threeSiblings.replace 1 2).parent? 1 = none := by
  have hw : threeSiblings.WellFormed := ofNodes_wellFormed _
  have hb : ¬ threeSiblings.Below 2 0 := by
    intro hb
    obtain ⟨c, hc, -⟩ := Relation.TransGen.head'_iff.mp hb
    have hk : threeSiblings.children 2 = [] := by decide
    simp [hk] at hc
  have hf : (TreeEdit.replace 1 2).Fits threeSiblings := by
    refine ⟨by decide, by decide, fun p hp => ?_⟩
    have hd : (TreeEdit.replace 1 2).destination? threeSiblings = some 0 := by decide
    cases Option.some.inj (hd.symm.trans hp)
    exact ⟨by decide, hb⟩
  have hp : (TreeEdit.replace 1 2).Placed threeSiblings := by
    intro r hr
    cases Option.some.inj hr
    decide
  have hr := (refines_apply hw hf).1 hp
  refine ⟨hw, hf, hp, by decide, ?_, hr.removed 1 rfl⟩
  exact (hr.children 0).trans (by decide)

end Tree

end LivePages
