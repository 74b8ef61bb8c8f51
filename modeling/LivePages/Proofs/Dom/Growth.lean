import LivePages.Proofs.Dom.Forest
import LivePages.Proofs.Dom.Matching

namespace LivePages

/-- A tree and what has become of it: the lists of the old nodes are given, and each new element is
made from a template and has nothing but texts below it. -/
structure Tree.Grown (t : Tree) (kids : NodeId → List NodeId) (made : List (NodeId × Template))
    (t' : Tree) : Prop where
  wellFormed : t'.WellFormed
  size_le : t.size ≤ t'.size
  data : ∀ j, j < t.size → t'.data? j = t.data? j
  children : ∀ q, q < t.size → t'.children q = kids q
  texts : ∀ q c, t.size ≤ q → c ∈ t'.children q → t.size ≤ c ∧ (t'.text? c).isSome
  fresh : ∀ n template, (n, template) ∈ made → t.size ≤ n ∧ t'.MadeFrom n template
  distinct : (made.map Prod.fst).Nodup
  complete : ∀ n e, t.size ≤ n → t'.element? n = some e → n ∈ made.map Prod.fst
  silent : ∀ n, t.size ≤ n → t'.comment? n = none

namespace Tree.Grown

variable {t t' t'' : Tree} {kids : NodeId → List NodeId} {made : List (NodeId × Template)}
  {p q c n r : NodeId}

theorem refl (h : t.WellFormed) : t.Grown t.children [] t where
  wellFormed := h
  size_le := Nat.le_refl _
  data _ _ := rfl
  children _ _ := rfl
  texts _ _ hq hc := absurd (h.consistent.parent_lt_size hc) (Nat.not_lt.mpr hq)
  fresh _ _ hm := absurd hm List.not_mem_nil
  distinct := .nil
  complete _ _ hn he := absurd (lt_size_of_element? he) (Nat.not_lt.mpr hn)
  silent n hn := by
    rw [comment?, data?_eq_none hn]
    rfl

theorem new (h : t.Grown kids made t') (n : NodeId) (template : Template) (hm : (n, template) ∈ made) :
    t.size ≤ n ∧ t'.matchesTemplate n template := by
  obtain ⟨hs, ha⟩ := h.fresh n template hm
  exact ⟨hs, ha.matches⟩

theorem le_of_made (h : t.Grown kids made t') (hn : n ∈ made.map Prod.fst) : t.size ≤ n := by
  obtain ⟨⟨n, template⟩, hm, rfl⟩ := List.mem_map.mp hn
  exact (h.new n template hm).1

theorem element_of_made (h : t.Grown kids made t') (hn : n ∈ made.map Prod.fst) :
    ∃ e, t'.element? n = some e := by
  obtain ⟨⟨n, template⟩, hm, rfl⟩ := List.mem_map.mp hn
  obtain ⟨e, he, -⟩ := element?_of_matches (h.new n template hm).2
  exact ⟨e, he⟩

theorem lt_of_made (h : t.Grown kids made t') (hn : n ∈ made.map Prod.fst) : n < t'.size := by
  obtain ⟨e, he⟩ := h.element_of_made hn
  exact lt_size_of_element? he

theorem text_of_below (h : t.Grown kids made t') (hq : t.size ≤ q) (hb : t'.Below q c) :
    t.size ≤ c ∧ (t'.text? c).isSome := by
  induction hb with
  | single hc => exact h.texts q _ hq hc
  | tail _ hc ih => exact h.texts _ _ ih.1 hc

theorem not_below_old (h : t.Grown kids made t') (hn : n ∈ made.map Prod.fst) (hp : p < t.size) :
    ¬ t'.Below n p := by
  intro hb
  exact absurd hp (Nat.not_lt.mpr (h.text_of_below (h.le_of_made hn) hb).1)

theorem lt_size_of_mem (h : t.Grown kids made t') (hq : q < t.size) (hc : c ∈ kids q) :
    c < t'.size :=
  h.wellFormed.consistent.lt_size (h.children q hq ▸ hc)

theorem not_mem_new (h : t.Grown kids made t') (hq : t.size ≤ q)
    (hc : c < t.size ∨ c ∈ made.map Prod.fst) : c ∉ t'.children q := by
  intro hm
  obtain ⟨hs, ht⟩ := h.texts q c hq hm
  rcases hc with hc | hc
  · exact absurd hc (Nat.not_lt.mpr hs)
  · obtain ⟨e, he⟩ := h.element_of_made hc
    rw [text?_of_element? he] at ht
    exact Bool.false_ne_true ht

theorem not_mem_of_unplaced (h : t.Grown kids made t') (hn : n ∈ made.map Prod.fst)
    (hk : ∀ q < t.size, n ∉ kids q) (q : NodeId) : n ∉ t'.children q := by
  by_cases hq : q < t.size
  · rw [h.children q hq]
    exact hk q hq
  · exact h.not_mem_new (Nat.le_of_not_lt hq) (.inr hn)

/-- Moving nodes among the lists of the old nodes makes nothing new. -/
theorem edit (h : t.Grown kids made t') {kids' : NodeId → List NodeId} (hw : t''.WellFormed)
    (hd : t''.data? = t'.data?) (ho : ∀ q, q < t.size → t''.children q = kids' q)
    (hn : ∀ q, t.size ≤ q → t''.children q = t'.children q) : t.Grown kids' made t'' where
  wellFormed := hw
  size_le := size_eq_of_data?_eq hd ▸ h.size_le
  data j hj := by rw [hd, h.data j hj]
  children := ho
  texts q c hq hc := by
    rw [text?_congr (congrFun hd c)]
    exact h.texts q c hq (hn q hq ▸ hc)
  fresh n template hm := by
    obtain ⟨hs, ha⟩ := h.fresh n template hm
    exact ⟨hs, ha.congr (congrFun hd n) (hn n hs) fun c _ => congrFun hd c⟩
  distinct := h.distinct
  complete n e hs he := h.complete n e hs (element?_congr (congrFun hd n) ▸ he)
  silent n hs := (comment?_congr (congrFun hd n)).trans (h.silent n hs)

theorem perm (h : t.Grown kids made t') {made' : List (NodeId × Template)} (hp : made.Perm made') :
    t.Grown kids made' t' :=
  { h with
    fresh := fun n template hm => h.fresh n template (hp.mem_iff.mpr hm)
    distinct := (hp.map Prod.fst).nodup_iff.mp h.distinct
    complete := fun n e hn he => (hp.map Prod.fst).mem_iff.mp (h.complete n e hn he) }

theorem congr (h : t.Grown kids made t') {kids' : NodeId → List NodeId}
    (hk : ∀ q, q < t.size → kids q = kids' q) : t.Grown kids' made t' :=
  { h with children := fun q hq => (h.children q hq).trans (hk q hq) }

theorem instantiate (h : t.Grown kids made t') {template : Template}
    (ht : (template.attributes.map Prod.fst).Nodup) :
    t.Grown kids (made ++ [(t'.size, template)]) (t'.instantiate template).1 where
  wellFormed := h.wellFormed.instantiate template
  size_le := by
    have hs := size_instantiate t' template
    have hle := h.size_le
    omega
  data j hj := by
    rw [data?_instantiate_of_lt ht (Nat.lt_of_lt_of_le hj h.size_le), h.data j hj]
  children q hq := by
    have hne : q ≠ t'.size := Nat.ne_of_lt (Nat.lt_of_lt_of_le hq h.size_le)
    rw [h.wellFormed.children_instantiate, if_neg hne, h.children q hq]
  texts q c hq hc := by
    rw [h.wellFormed.children_instantiate] at hc
    split at hc
    next =>
      refine ⟨?_, text?_instantiate ht hc⟩
      rw [(mem_textIds.mp hc).2]
      exact Nat.le_succ_of_le h.size_le
    next =>
      have hlt := h.wellFormed.consistent.lt_size hc
      rw [text?_congr (data?_instantiate_of_lt ht hlt)]
      exact h.texts q c hq hc
  fresh n a hm := by
    rcases List.mem_append.mp hm with hm | hm
    · obtain ⟨hs, ha⟩ := h.fresh n a hm
      have hn := h.lt_of_made (List.mem_map_of_mem hm)
      have hk : (t'.instantiate template).1.children n = t'.children n := by
        rw [h.wellFormed.children_instantiate, if_neg (Nat.ne_of_lt hn)]
      exact ⟨hs, ha.congr (data?_instantiate_of_lt ht hn) hk fun c hc =>
        data?_instantiate_of_lt ht (h.wellFormed.consistent.lt_size hc)⟩
    · cases List.mem_singleton.mp hm
      exact ⟨h.size_le, madeFrom_instantiate ht⟩
  distinct := by
    rw [List.map_append, List.nodup_append]
    refine ⟨h.distinct, List.nodup_singleton _, fun a ha b hb => ?_⟩
    rw [List.map_singleton, List.mem_singleton] at hb
    exact hb ▸ Nat.ne_of_lt (h.lt_of_made ha)
  complete n e hn he := by
    rw [List.map_append, List.mem_append]
    rcases element?_instantiate ht he with rfl | he
    · exact .inr (by simp)
    · exact .inl (h.complete n e hn he)
  silent n hn := (comment?_instantiate ht n).elim id fun e => e.trans (h.silent n hn)

section Unplaced

variable (h : t.Grown kids made t') (hp : p < t.size) (hr : r ∈ kids p)
  (hn : n ∈ made.map Prod.fst) (hk : ∀ q < t.size, n ∉ kids q)
include h hp hr hn hk

/-- An edit beside an old entry with a new element that is in no list yet. -/
theorem splice_new {block : List NodeId} (hw : t''.WellFormed) (hd : t''.data? = t'.data?)
    (hc : ∀ q, t''.children q = splice r block ((t'.children q).erase n)) :
    t.Grown (fun q => splice r block (kids q)) made t'' := by
  have hr' : r ∈ t'.children p := (h.children p hp).symm ▸ hr
  -- New nodes keep their lists, as the entry is in the list of an old one.
  refine h.edit hw hd (fun q hq => ?_) fun q hq => ?_
  · rw [hc, h.children q hq, List.erase_of_not_mem (hk q hq)]
  · have hrq : r ∉ t'.children q := fun hm =>
      absurd hp (h.wellFormed.parent_eq hm hr' ▸ Nat.not_lt.mpr hq)
    rw [hc, List.erase_of_not_mem (h.not_mem_of_unplaced hn hk q), splice_of_not_mem hrq]

theorem insertAfter : t.Grown (fun q => splice r [r, n] (kids q)) made (t'.insertAfter r n) := by
  have hne : r ≠ n := fun e => hk p hp (e ▸ hr)
  have hr' : r ∈ t'.children p := (h.children p hp).symm ▸ hr
  have hpn : p ≠ n := Nat.ne_of_lt (Nat.lt_of_lt_of_le hp (h.le_of_made hn))
  have hw := h.wellFormed.insertAfter hne (h.lt_of_made hn) hr' hpn (h.not_below_old hn hp)
  exact h.splice_new hp hr hn hk hw (data?_insertAfter _ _ _)
    (h.wellFormed.children_insertAfter hne (h.lt_of_made hn) hr' hpn)

theorem replace : t.Grown (fun q => splice r [n] (kids q)) made (t'.replace r n) := by
  have hne : r ≠ n := fun e => hk p hp (e ▸ hr)
  have hr' : r ∈ t'.children p := (h.children p hp).symm ▸ hr
  have hpn : p ≠ n := Nat.ne_of_lt (Nat.lt_of_lt_of_le hp (h.le_of_made hn))
  have hw := h.wellFormed.replace hne (h.lt_of_made hn) hr' hpn (h.not_below_old hn hp)
  exact h.splice_new hp hr hn hk hw (data?_replace _ _ _)
    (h.wellFormed.children_replace hne (h.lt_of_made hn) hr')

end Unplaced

theorem detach (h : t.Grown kids made t') (hc : c < t.size) :
    t.Grown (fun q => (kids q).erase c) made (t'.detach c) := by
  refine h.edit (h.wellFormed.detach c) (data?_detach _ _) (fun q hq => ?_) fun q hq => ?_
  · rw [h.wellFormed.children_detach, h.children q hq]
  · rw [h.wellFormed.children_detach, List.erase_of_not_mem (h.not_mem_new hq (.inl hc))]

section Ends

variable (h : t.Grown kids made t') (hp : p < t.size) (hc : c < t.size ∨ c ∈ made.map Prod.fst)
  (hne : p ≠ c) (hb : ¬ t'.Below c p)
include h hp hc hne hb

theorem appendChild : t.Grown
    (fun q => if q = p then (kids p).erase c ++ [c] else (kids q).erase c) made
    (t'.appendChild p c) := by
  have hps := Nat.lt_of_lt_of_le hp h.size_le
  have hcs : c < t'.size := hc.elim (Nat.lt_of_lt_of_le · h.size_le) h.lt_of_made
  have hk := h.wellFormed.children_appendChild hne hps hcs
  refine h.edit (h.wellFormed.appendChild hne hps hcs hb) (data?_appendChild _ _ _)
    (fun q hq => ?_) fun q hq => ?_
  · rw [hk, h.children q hq, h.children p hp]
  · rw [hk, if_neg (Nat.ne_of_gt (Nat.lt_of_lt_of_le hp hq)), List.erase_of_not_mem (h.not_mem_new hq hc)]

theorem prependChild : t.Grown
    (fun q => if q = p then c :: (kids p).erase c else (kids q).erase c) made
    (t'.prependChild p c) := by
  have hps := Nat.lt_of_lt_of_le hp h.size_le
  have hcs : c < t'.size := hc.elim (Nat.lt_of_lt_of_le · h.size_le) h.lt_of_made
  have hk := h.wellFormed.children_prependChild hne hps hcs
  refine h.edit (h.wellFormed.prependChild hne hps hcs hb) (data?_prependChild _ _ _)
    (fun q hq => ?_) fun q hq => ?_
  · rw [hk, h.children q hq, h.children p hp]
  · rw [hk, if_neg (Nat.ne_of_gt (Nat.lt_of_lt_of_le hp hq)), List.erase_of_not_mem (h.not_mem_new hq hc)]

end Ends

end Tree.Grown

end LivePages
