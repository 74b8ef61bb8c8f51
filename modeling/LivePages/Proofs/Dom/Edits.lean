import LivePages.Proofs.Dom.ChildLists

namespace LivePages

/-- The place before an entry is the place after the one in front of it. -/
theorem splice_before_eq_after {l r : List NodeId} {a b n : NodeId} (hd : (l ++ a :: b :: r).Nodup) :
    splice b [n, b] (l ++ a :: b :: r) = splice a [a, n] (l ++ a :: b :: r) := by
  have e : l ++ a :: b :: r = (l ++ [a]) ++ b :: r := by simp
  rw [splice_middle hd, e, splice_middle (e ▸ hd)]
  simp

theorem erase_splice {l block : List NodeId} {a : NodeId} (hd : l.Nodup) (hb : a ∈ block) :
    (splice a block l).erase a = splice a (block.erase a) l := by
  by_cases ha : a ∈ l
  · obtain ⟨b, r, rfl⟩ := List.append_of_mem ha
    rw [splice_middle hd, splice_middle hd]
    rw [List.nodup_middle] at hd
    have hn : a ∉ b := fun h => (List.nodup_cons.mp hd).1 (List.mem_append_left r h)
    rw [List.append_assoc, List.append_assoc, List.erase_append_right _ hn, List.erase_append_left _ hb]
  · rw [splice_of_not_mem ha, splice_of_not_mem ha, List.erase_of_not_mem ha]

theorem erase_neighbors {l r : List NodeId} {a b n : NodeId} (ha : a ≠ n) (hb : b ≠ n) :
    ∃ l' r', (l ++ a :: b :: r).erase n = l' ++ a :: b :: r' := by
  by_cases hn : n ∈ l
  · exact ⟨l.erase n, r, List.erase_append_left _ hn⟩
  · refine ⟨l, r.erase n, ?_⟩
    rw [List.erase_append_right _ hn, List.erase_cons_tail (by simpa using ha),
      List.erase_cons_tail (by simpa using hb)]

theorem erase_concat_of_ne {l : List NodeId} {a n : NodeId} (ha : a ≠ n) :
    (l ++ [a]).erase n = l.erase n ++ [a] := by
  by_cases hn : n ∈ l
  · exact List.erase_append_left _ hn
  · rw [List.erase_append_right _ hn, List.erase_of_not_mem hn,
      List.erase_cons_tail (by simpa using ha), List.erase_nil]

/-- An entry that is moved behind the one in front of it stays where it is. -/
theorem splice_erase_next {l r : List NodeId} {a n : NodeId} (hd : (l ++ a :: n :: r).Nodup) :
    splice a [a, n] ((l ++ a :: n :: r).erase n) = l ++ a :: n :: r := by
  have e : l ++ a :: n :: r = (l ++ [a]) ++ n :: r := by simp
  have e' : l ++ [a] ++ r = l ++ a :: r := by simp
  have others : (l ++ a :: r).Nodup := by
    rw [e, List.nodup_middle] at hd
    exact e' ▸ (List.nodup_cons.mp hd).2
  rw [e, erase_middle (e ▸ hd), e', splice_middle others]
  simp

namespace Tree

variable {t : Tree} {kids : NodeId → List NodeId} {p c : NodeId}

@[simp] theorem data?_prependChild (t : Tree) (p c : NodeId) :
    (t.prependChild p c).data? = t.data? := by
  unfold prependChild
  split <;> simp

@[simp] theorem data?_insertAfter (t : Tree) (r n : NodeId) :
    (t.insertAfter r n).data? = t.data? := by
  unfold insertAfter
  split_ifs
  · rfl
  · split
    · split <;> simp
    · split <;> simp

@[simp] theorem data?_replace (t : Tree) (old new : NodeId) :
    (t.replace old new).data? = t.data? := by
  unfold replace
  split <;> simp

namespace Linked

/-- Where there is a first child, the new one may even be its parent. -/
theorem linked_prependChild_of_first (h : t.Linked kids) {first : NodeId}
    (hf : t.firstChild? p = some first) (hc : c < t.size) :
    (t.prependChild p c).Linked fun q =>
      if q = p then c :: (kids p).erase c else (kids q).erase c := by
  have e : t.prependChild p c = t.insertBefore first c := by rw [prependChild, hf]
  obtain ⟨rest, hk⟩ := List.head?_eq_some_iff.mp ((h.first p).symm.trans hf)
  have hm : first ∈ kids p := by simp [hk]
  rw [e]
  by_cases hfc : first = c
  · subst hfc
    have hu : t.insertBefore first first = t := by simp [insertBefore]
    rw [hu]
    refine (congrArg _ (funext fun q => ?_)).mp h
    split
    next hq => rw [hq, hk, List.erase_cons_head]
    next hq => rw [List.erase_of_not_mem fun hm' => hq (h.eq_of_mem hm' hm)]
  · refine (congrArg _ (funext fun q => ?_)).mp (h.linked_insertBefore hfc hc hm)
    split
    next hq =>
      have hd := (h.distinct p).erase c
      rw [hk, List.erase_cons_tail (by simpa using hfc)] at hd
      rw [hq, hk, List.erase_cons_tail (by simpa using hfc)]
      exact splice_middle (l := []) hd
    next hq =>
      exact splice_of_not_mem fun hm' => hq (h.eq_of_mem (List.mem_of_mem_erase hm') hm)

theorem linked_prependChild (h : t.Linked kids) (hne : p ≠ c) (hp : p < t.size) (hc : c < t.size) :
    (t.prependChild p c).Linked fun q =>
      if q = p then c :: (kids p).erase c else (kids q).erase c := by
  cases hf : t.firstChild? p with
  | none =>
    have hk : kids p = [] := List.head?_eq_none_iff.mp ((h.first p).symm.trans hf)
    have e : t.prependChild p c = t.appendChild p c := by rw [prependChild, hf]
    rw [e]
    simpa [hk] using h.linked_appendChild hne hp hc
  | some first => exact h.linked_prependChild_of_first hf hc

theorem linked_insertAfter (h : t.Linked kids) {r n : NodeId} (hne : r ≠ n) (hn : n < t.size)
    (hr : r ∈ kids p) (hpn : p ≠ n) :
    (t.insertAfter r n).Linked fun q => splice r [r, n] ((kids q).erase n) := by
  obtain ⟨before, after, hk, -, hx, -⟩ := h.split_of_mem hr
  have hd := h.distinct p
  have off (q) (hq : q ≠ p) : splice r [r, n] ((kids q).erase n) = (kids q).erase n :=
    splice_of_not_mem fun hm => hq (h.eq_of_mem (List.mem_of_mem_erase hm) hr)
  rw [insertAfter, if_neg hne, hx, h.parent_of_mem hr]
  cases after with
  | nil =>
    refine (congrArg _ (funext fun q => ?_)).mp
      (h.linked_appendChild hpn (h.parent_lt_size hr) hn)
    split
    next hq =>
      have he : (kids p).erase n = before.erase n ++ [r] := hk ▸ erase_concat_of_ne hne
      have hde := hd.erase n
      rw [he] at hde
      rw [hq, he, splice_middle hde]
      simp
    next hq => exact (off q hq).symm
  | cons x after =>
    simp only [List.head?_cons]
    split
    next hxn =>
      subst hxn
      refine (congrArg _ (funext fun q => ?_)).mp h
      by_cases hq : q = p
      · rw [hq, hk, splice_erase_next (hk ▸ hd)]
      · have hx : x ∈ kids p := by simp [hk]
        rw [off q hq, List.erase_of_not_mem fun hm => hq (h.eq_of_mem hm hx)]
    next hxn =>
      have hm : x ∈ kids p := by simp [hk]
      refine (congrArg _ (funext fun q => ?_)).mp (h.linked_insertBefore hxn hn hm)
      by_cases hq : q = p
      · obtain ⟨l, r', he⟩ := erase_neighbors (l := before) (r := after) hne hxn
        have hde := hd.erase n
        rw [hk, he] at hde
        rw [hq, hk, he, splice_before_eq_after hde]
      · rw [off q hq, splice_of_not_mem fun hm' => hq (h.eq_of_mem (List.mem_of_mem_erase hm') hm)]

theorem linked_replace (h : t.Linked kids) {old new : NodeId} (hne : old ≠ new) (hn : new < t.size)
    (ho : old ∈ kids p) :
    (t.replace old new).Linked fun q => splice old [new] ((kids q).erase new) := by
  have hp := h.parent_of_mem ho
  rw [replace, if_neg (by simp [hne, hp])]
  refine (congrArg _ (funext fun q => ?_)).mp ((h.linked_insertBefore hne hn ho).linked_detach old)
  rw [erase_splice ((h.distinct q).erase new) (by simp), List.erase_cons_tail (by simpa using hne.symm),
    List.erase_cons_head]

end Linked

end Tree

end LivePages
