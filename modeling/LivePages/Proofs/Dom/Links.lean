import LivePages.Dom.Edit
import LivePages.Dom.Traversal
import Mathlib.Data.List.Nodup

namespace LivePages

theorem erase_middle {α : Type} [BEq α] [LawfulBEq α] {l r : List α} {a : α}
    (hd : (l ++ a :: r).Nodup) : (l ++ a :: r).erase a = l ++ r := by
  rw [List.nodup_middle] at hd
  have ha : a ∉ l := fun h => (List.nodup_cons.mp hd).1 (List.mem_append_left _ h)
  rw [List.erase_append_right _ ha, List.erase_cons_head]

theorem getLast?_ne {α : Type} {l : List α} {a : α} (h : a ∉ l) : l.getLast? ≠ some a :=
  fun e => h (List.mem_of_getLast? e)

theorem head?_ne {α : Type} {l : List α} {a : α} (h : a ∉ l) : l.head? ≠ some a :=
  fun e => h (List.mem_of_mem_head? e)

theorem getLast?_cons_concat {α : Type} (l m : List α) (a b : α) :
    (l ++ a :: m.concat b).getLast? = some b := by
  rw [show l ++ a :: m.concat b = (l ++ a :: m) ++ [b] by simp, List.getLast?_concat]

theorem append_eq_middle {α : Type} {l r before after : List α} {c : α}
    (e : l ++ r = before ++ c :: after) :
    (∃ m, r = m ++ c :: after ∧ before = l ++ m) ∨
      ∃ m, l = before ++ c :: m ∧ after = m ++ r := by
  rcases List.append_eq_append_iff.mp e with ⟨m, hb, hr⟩ | ⟨m, hl, hm⟩
  · exact .inl ⟨m, hr, hb⟩
  · cases m with
    | nil => exact .inl ⟨[], by simpa using hm.symm, by simpa using hl.symm⟩
    | cons d m =>
      obtain ⟨rfl, rfl⟩ := List.cons.inj hm
      exact .inr ⟨m, hl, rfl⟩

namespace Tree

variable {t t' : Tree} {kids : NodeId → List NodeId} {p c id : NodeId}

/-- The links of a tree are those of given child lists, one for every node. -/
structure Linked (t : Tree) (kids : NodeId → List NodeId) : Prop where
  first : ∀ p, t.firstChild? p = (kids p).head?
  last : ∀ p, t.lastChild? p = (kids p).getLast?
  entry : ∀ {p before c after}, kids p = before ++ c :: after →
    t.parent? c = some p ∧ t.prev? c = before.getLast? ∧ t.next? c = after.head?
  distinct : ∀ p, (kids p).Nodup
  loose : ∀ {c}, (∀ p, c ∉ kids p) → t.parent? c = none ∧ t.prev? c = none ∧ t.next? c = none

/-- What changes in the links when a node is taken out. -/
structure Unlinks (t : Tree) (id : NodeId) (t' : Tree) : Prop where
  parent : ∀ c, t'.parent? c = if c = id then none else t.parent? c
  prev : ∀ c, t'.prev? c =
    if c = id then none else if t.next? id = some c then t.prev? id else t.prev? c
  next : ∀ c, t'.next? c =
    if c = id then none else if t.prev? id = some c then t.next? id else t.next? c
  first : ∀ p, t'.firstChild? p =
    if t.parent? id = some p ∧ t.prev? id = none then t.next? id else t.firstChild? p
  last : ∀ p, t'.lastChild? p =
    if t.parent? id = some p ∧ t.next? id = none then t.prev? id else t.lastChild? p

/-- What changes in the links when a loose node is put between two neighbours. -/
structure Links (t : Tree) (p : NodeId) (before : Option NodeId) (new : NodeId)
    (after : Option NodeId) (t' : Tree) : Prop where
  parent : ∀ c, t'.parent? c = if c = new then some p else t.parent? c
  prev : ∀ c, t'.prev? c = if c = new then before else if after = some c then some new else t.prev? c
  next : ∀ c, t'.next? c = if c = new then after else if before = some c then some new else t.next? c
  first : ∀ q, t'.firstChild? q = if q = p ∧ before = none then some new else t.firstChild? q
  last : ∀ q, t'.lastChild? q = if q = p ∧ after = none then some new else t.lastChild? q

namespace Linked

theorem parent_of_mem (h : t.Linked kids) (hc : c ∈ kids p) : t.parent? c = some p := by
  obtain ⟨before, after, e⟩ := List.append_of_mem hc
  exact (h.entry e).1

theorem mem_of_parent (h : t.Linked kids) (hp : t.parent? c = some p) : c ∈ kids p := by
  by_contra hn
  by_cases hm : ∃ q, c ∈ kids q
  · obtain ⟨q, hq⟩ := hm
    have e := (h.parent_of_mem hq).symm.trans hp
    exact hn (Option.some.inj e ▸ hq)
  · have e := (h.loose (fun q hq => hm ⟨q, hq⟩)).1
    simp [e] at hp

theorem eq_of_mem (h : t.Linked kids) {q : NodeId} (hp : c ∈ kids p) (hq : c ∈ kids q) : p = q :=
  Option.some.inj ((h.parent_of_mem hp).symm.trans (h.parent_of_mem hq))

theorem not_mem_of_parent_eq_none (h : t.Linked kids) (hc : t.parent? c = none) (p : NodeId) :
    c ∉ kids p := by
  intro hm
  simp [h.parent_of_mem hm] at hc

theorem split_of_mem (h : t.Linked kids) (hm : id ∈ kids p) :
    ∃ before after, kids p = before ++ id :: after ∧ t.prev? id = before.getLast? ∧
      t.next? id = after.head? ∧ (kids p).erase id = before ++ after := by
  obtain ⟨before, after, e⟩ := List.append_of_mem hm
  have hd := h.distinct p
  rw [e] at hd
  exact ⟨before, after, e, (h.entry e).2.1, (h.entry e).2.2, by rw [e, erase_middle hd]⟩

theorem next_mem (h : t.Linked kids) (hn : t.next? id = some c) : ∃ p, id ∈ kids p ∧ c ∈ kids p := by
  by_cases hi : ∃ p, id ∈ kids p
  · obtain ⟨p, hp⟩ := hi
    obtain ⟨before, after, e, -, hx, -⟩ := h.split_of_mem hp
    have hc := List.mem_of_mem_head? (hx.symm.trans hn)
    exact ⟨p, hp, by simp [e, hc]⟩
  · have e := (h.loose (fun p hp => hi ⟨p, hp⟩)).2.2
    simp [e] at hn

theorem prev_mem (h : t.Linked kids) (hn : t.prev? id = some c) : ∃ p, id ∈ kids p ∧ c ∈ kids p := by
  by_cases hi : ∃ p, id ∈ kids p
  · obtain ⟨p, hp⟩ := hi
    obtain ⟨before, after, e, hv, -, -⟩ := h.split_of_mem hp
    have hc := List.mem_of_getLast? (hv.symm.trans hn)
    exact ⟨p, hp, by simp [e, hc]⟩
  · have e := (h.loose (fun p hp => hi ⟨p, hp⟩)).2.1
    simp [e] at hn

/-- The links of a node are untouched where no neighbour was in its list. -/
theorem not_neighbor (h : t.Linked kids) (hm : ∀ p, c ∈ kids p → id ∉ kids p) :
    t.next? id ≠ some c ∧ t.prev? id ≠ some c := by
  refine ⟨fun hn => ?_, fun hn => ?_⟩
  · obtain ⟨p, hi, hc⟩ := h.next_mem hn
    exact hm p hc hi
  · obtain ⟨p, hi, hc⟩ := h.prev_mem hn
    exact hm p hc hi

theorem unlink_entry (h : t.Linked kids) (u : t.Unlinks id t') {l r before after : List NodeId}
    (hk : kids p = l ++ id :: r) (e : l ++ r = before ++ c :: after) :
    t'.parent? c = some p ∧ t'.prev? c = before.getLast? ∧ t'.next? c = after.head? := by
  have hd := h.distinct p
  rw [hk, List.nodup_middle, e] at hd
  obtain ⟨hid, hn⟩ := List.nodup_cons.mp hd
  have hci : c ≠ id := by rintro rfl; simp at hid
  obtain ⟨-, hl, hr⟩ := h.entry hk
  rw [u.parent, u.prev, u.next, if_neg hci, if_neg hci, if_neg hci, hl, hr]
  -- The entry was behind the node that is taken out, perhaps next to it, or before it.
  rcases append_eq_middle e with ⟨m, rfl, rfl⟩ | ⟨m, rfl, rfl⟩
  · obtain ⟨hp, hv, hx⟩ := h.entry (show kids p = (l ++ id :: m) ++ c :: after by simp [hk])
    have hc : l.getLast? ≠ some c := getLast?_ne (by grind)
    rw [hp, hv, hx, if_neg hc]
    cases m <;> grind
  · obtain ⟨hp, hv, hx⟩ := h.entry (show kids p = before ++ c :: (m ++ id :: r) by simp [hk])
    have hc : r.head? ≠ some c := head?_ne (by grind)
    rw [hp, hv, hx, if_neg hc]
    rcases List.eq_nil_or_concat m with rfl | ⟨m, d, rfl⟩
    · simp
    · have hdc : d ≠ c := by grind
      rw [getLast?_cons_concat]
      simp [hdc]

/-- Taking a node out removes it from the one list that holds it. -/
theorem unlink (h : t.Linked kids) (u : t.Unlinks id t') :
    t'.Linked fun q => (kids q).erase id where
  first p := by
    rw [u.first]
    by_cases hm : id ∈ kids p
    · obtain ⟨l, r, hk, hv, hx, he⟩ := h.split_of_mem hm
      rw [h.first, h.parent_of_mem hm, hv, hx, he, hk]
      cases l <;> simp
    · have hp : t.parent? id ≠ some p := fun hp => hm (h.mem_of_parent hp)
      rw [if_neg (fun hh => hp hh.1), List.erase_of_not_mem hm, h.first]
  last p := by
    rw [u.last]
    by_cases hm : id ∈ kids p
    · obtain ⟨l, r, hk, hv, hx, he⟩ := h.split_of_mem hm
      rw [h.last, h.parent_of_mem hm, hv, hx, he, hk]
      cases r <;> simp
    · have hp : t.parent? id ≠ some p := fun hp => hm (h.mem_of_parent hp)
      rw [if_neg (fun hh => hp hh.1), List.erase_of_not_mem hm, h.last]
  entry {p before c after} e := by
    by_cases hm : id ∈ kids p
    · obtain ⟨l, r, hk, -, -, he⟩ := h.split_of_mem hm
      exact h.unlink_entry u hk (he.symm.trans e)
    · rw [List.erase_of_not_mem hm] at e
      have hc : c ∈ kids p := by simp [e]
      have hci : c ≠ id := fun he => hm (he ▸ hc)
      obtain ⟨hx, hv⟩ := h.not_neighbor (fun q hq => h.eq_of_mem hc hq ▸ hm)
      rw [u.parent, u.prev, u.next, if_neg hci, if_neg hci, if_neg hci, if_neg hx, if_neg hv]
      exact h.entry e
  distinct p := (h.distinct p).erase id
  loose {c} hc := by
    rw [u.parent, u.prev, u.next]
    by_cases hci : c = id
    · simp [hci]
    have hm (p) : c ∉ kids p := fun hm => hc p ((List.mem_erase_of_ne hci).mpr hm)
    have hn (q) (hq : c ∈ kids q) : id ∉ kids q := absurd hq (hm q)
    obtain ⟨hx, hv⟩ := h.not_neighbor hn
    simpa [hci, hx, hv] using h.loose hm

theorem link_entry (h : t.Linked kids) {new : NodeId} (hnew : ∀ q, new ∉ kids q) {l r : List NodeId}
    (hk : kids p = l ++ r) (u : t.Links p l.getLast? new r.head? t') {before after : List NodeId}
    (e : l ++ new :: r = before ++ c :: after) :
    t'.parent? c = some p ∧ t'.prev? c = before.getLast? ∧ t'.next? c = after.head? := by
  have hd := h.distinct p
  have hn := hnew p
  rw [hk] at hd hn
  rw [u.parent, u.prev, u.next]
  -- Behind the entries before the gap comes the new node itself, then those after the gap.
  rcases append_eq_middle e with ⟨m, hr, rfl⟩ | ⟨m, rfl, rfl⟩
  · cases m with
    | nil =>
      obtain ⟨rfl, rfl⟩ := List.cons.inj hr
      simp
    | cons d m =>
      obtain ⟨rfl, rfl⟩ := List.cons.inj hr
      obtain ⟨hp, hv, hx⟩ := h.entry (show kids p = (l ++ m) ++ c :: after by simp [hk])
      have hc : l.getLast? ≠ some c := getLast?_ne (by grind)
      have hcn : c ≠ new := by grind
      rw [if_neg hcn, if_neg hcn, if_neg hcn, if_neg hc, hp, hv, hx]
      cases m <;> grind
  · obtain ⟨hp, hv, hx⟩ := h.entry (show kids p = before ++ c :: (m ++ r) by simp [hk])
    have hc : r.head? ≠ some c := head?_ne (by grind)
    have hcn : c ≠ new := by grind
    rw [if_neg hcn, if_neg hcn, if_neg hcn, if_neg hc, hp, hv, hx]
    rcases List.eq_nil_or_concat m with rfl | ⟨m, d, rfl⟩
    · simp
    · have hdc : d ≠ c := by grind
      rw [getLast?_cons_concat]
      simp [hdc]

/-- Putting a loose node between two neighbours puts it between them in their list. -/
theorem link (h : t.Linked kids) {new : NodeId} (hnew : ∀ q, new ∉ kids q) {l r : List NodeId}
    (hk : kids p = l ++ r) (u : t.Links p l.getLast? new r.head? t') :
    t'.Linked fun q => if q = p then l ++ new :: r else kids q where
  first q := by
    rw [u.first]
    by_cases hq : q = p
    · subst hq
      rw [h.first, hk]
      cases l <;> simp
    · simp [hq, h.first]
  last q := by
    rw [u.last]
    by_cases hq : q = p
    · subst hq
      rw [h.last, hk]
      cases r <;> simp
    · simp [hq, h.last]
  entry {q before c after} e := by
    split at e
    next hq => exact hq ▸ h.link_entry hnew hk u e
    next hq =>
      have hc : c ∈ kids q := by simp [e]
      have hcn : c ≠ new := fun he => hnew q (he ▸ hc)
      have hcp : c ∉ l ++ r := fun hm => hq (h.eq_of_mem hc (hk ▸ hm))
      have hl : l.getLast? ≠ some c := fun he => hcp (by simp [List.mem_of_getLast? he])
      have hr : r.head? ≠ some c := fun he => hcp (by simp [List.mem_of_mem_head? he])
      simpa [u.parent, u.prev, u.next, hcn, hl, hr] using h.entry e
  distinct q := by
    have hd := h.distinct p
    have hn := hnew p
    rw [hk] at hd hn
    split
    next => exact List.nodup_middle.mpr (List.nodup_cons.mpr ⟨hn, hd⟩)
    next => exact h.distinct q
  loose {c} hc := by
    have hcn : c ≠ new := by
      rintro rfl
      simpa using hc p
    have hcp : c ∉ l ++ r := by
      have := hc p
      simp_all
    have hl : l.getLast? ≠ some c := fun he => hcp (by simp [List.mem_of_getLast? he])
    have hr : r.head? ≠ some c := fun he => hcp (by simp [List.mem_of_mem_head? he])
    have hm (q) : c ∉ kids q := by
      by_cases hq : q = p
      · exact hq ▸ hk ▸ hcp
      · simpa [hq] using hc q
    simpa [u.parent, u.prev, u.next, hcn, hl, hr] using h.loose hm

end Linked
end Tree
end LivePages
