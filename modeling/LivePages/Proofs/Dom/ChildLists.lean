import LivePages.Proofs.Dom.Links
import Mathlib.Data.List.Perm.Subperm

namespace LivePages

theorem length_le_of_nodup {l : List NodeId} {n : Nat} (hd : l.Nodup) (h : ∀ c ∈ l, c < n) :
    l.length ≤ n := by
  have hs : l ⊆ List.range n := fun c hc => List.mem_range.mpr (h c hc)
  have hl := (hd.subperm hs).length_le
  rwa [List.length_range] at hl

/-- A list with a block in the place of an entry. -/
def splice (a : NodeId) (block l : List NodeId) : List NodeId :=
  l.flatMap fun c => if c = a then block else [c]

theorem splice_of_not_mem {a : NodeId} {block l : List NodeId} (h : a ∉ l) :
    splice a block l = l := by
  induction l with
  | nil => rfl
  | cons c l ih =>
    obtain ⟨hc, hl⟩ := List.ne_and_not_mem_of_not_mem_cons h
    have hs : splice a block l = l := ih hl
    rw [splice, List.flatMap_cons, if_neg hc.symm, ← splice, hs, List.singleton_append]

theorem splice_append (a : NodeId) (block l r : List NodeId) :
    splice a block (l ++ r) = splice a block l ++ splice a block r :=
  List.flatMap_append

theorem splice_middle {a : NodeId} {block l r : List NodeId} (hd : (l ++ a :: r).Nodup) :
    splice a block (l ++ a :: r) = l ++ block ++ r := by
  rw [List.nodup_middle] at hd
  have ha := (List.nodup_cons.mp hd).1
  have hl : splice a block l = l := splice_of_not_mem fun h => ha (List.mem_append_left r h)
  have hr : splice a block r = r := splice_of_not_mem fun h => ha (List.mem_append_right l h)
  rw [← List.singleton_append, splice_append, splice_append, hl, hr, List.append_assoc]
  simp [splice]

theorem mem_splice {a c : NodeId} {block l : List NodeId} :
    c ∈ splice a block l ↔ c ∈ l ∧ c ≠ a ∨ a ∈ l ∧ c ∈ block := by
  simp only [splice, List.mem_flatMap]
  constructor
  · rintro ⟨d, hd, hm⟩
    split at hm
    next e => exact .inr ⟨e ▸ hd, hm⟩
    next e => exact .inl (List.mem_singleton.mp hm ▸ ⟨hd, e⟩)
  · rintro (⟨hc, hne⟩ | ⟨ha, hm⟩)
    · exact ⟨c, hc, by simp [hne]⟩
    · exact ⟨a, ha, by simpa using hm⟩

namespace Tree

variable {t : Tree} {kids : NodeId → List NodeId} {p c id : NodeId}

theorem bind_node?_update (t : Tree) (i j : NodeId) (f : Node → Node) (g : Node → Option NodeId) :
    ((t.update i f).node? j).bind g =
      if i = j then (t.node? j).bind fun n => g (f n) else (t.node? j).bind g := by
  by_cases h : i = j
  · subst h
    cases hn : t.nodes[i]? <;> simp [update, node?, Array.getElem?_modify, hn]
  · simp [update, node?, Array.getElem?_modify, h]

theorem node?_isSome {j : NodeId} : (t.node? j).isSome ↔ j < t.size := by
  simp [node?, size]

theorem lt_size_of_bind {j : NodeId} {g : Node → Option NodeId} {v : NodeId}
    (h : (t.node? j).bind g = some v) : j < t.size := by
  obtain ⟨n, hn, -⟩ := Option.bind_eq_some_iff.mp h
  exact node?_isSome.mp (by simp [hn])

namespace Linked

theorem lt_size (h : t.Linked kids) (hc : c ∈ kids p) : c < t.size :=
  lt_size_of_bind (h.parent_of_mem hc)

theorem parent_lt_size (h : t.Linked kids) (hc : c ∈ kids p) : p < t.size := by
  have hf := h.first p
  cases hk : kids p with
  | nil => simp [hk] at hc
  | cons d rest => exact lt_size_of_bind (hf.trans (by rw [hk]; rfl))

theorem eq_nil_of_size_le (h : t.Linked kids) (hp : t.size ≤ p) : kids p = [] := by
  by_contra hn
  obtain ⟨d, hd⟩ := List.exists_mem_of_ne_nil _ hn
  exact absurd (h.parent_lt_size hd) (Nat.not_lt.mpr hp)

theorem not_mem_of_size_le (h : t.Linked kids) (hc : t.size ≤ c) : c ∉ kids p :=
  fun hm => absurd (h.lt_size hm) (Nat.not_lt.mpr hc)

theorem length_le_size (h : t.Linked kids) (p : NodeId) : (kids p).length ≤ t.size :=
  length_le_of_nodup (h.distinct p) fun _ => h.lt_size

theorem siblingsFrom_eq (h : t.Linked kids) {before rest : List NodeId} {bound : Nat}
    (hk : kids p = before ++ rest) (hb : rest.length ≤ bound) :
    t.siblingsFrom bound rest.head? = rest := by
  induction rest generalizing before bound with
  | nil => cases bound <;> rfl
  | cons c rest ih =>
    cases bound with
    | zero => simp at hb
    | succ bound =>
      have hx := (h.entry hk).2.2
      have hc : c ∈ kids p := by simp [hk]
      obtain ⟨n, hn⟩ := Option.isSome_iff_exists.mp (node?_isSome.mpr (h.lt_size hc))
      have hnx : n.next = rest.head? := by simpa [next?, hn] using hx
      have hr := ih (show kids p = (before ++ [c]) ++ rest by simp [hk]) (Nat.le_of_succ_le_succ hb)
      simp only [List.head?_cons, siblingsFrom, hn, hnx, hr]

/-- The child lists that a tree is linked by are the ones that reading the links gives. -/
theorem children_eq (h : t.Linked kids) : t.children = kids := by
  funext p
  rw [children, h.first]
  have hk : kids p = [] ++ kids p := rfl
  exact h.siblingsFrom_eq hk (h.length_le_size p)

end Linked

/-- The links of a tree agree with one another. -/
def Consistent (t : Tree) : Prop :=
  t.Linked t.children

theorem Linked.consistent (h : t.Linked kids) : t.Consistent :=
  (congrArg t.Linked h.children_eq).mpr h

theorem detach_of_parent_eq_none (h : t.parent? id = none) : t.detach id = t := by
  unfold detach
  split
  next => rfl
  next n hn =>
    have hp : n.parent = none := by simpa [parent?, hn] using h
    rw [hp]

theorem detach_of_parent (hp : t.parent? id = some p) :
    t.detach id =
      let before := match t.prev? id with
        | some l => t.update l fun n => { n with next := t.next? id }
        | none => t.update p fun n => { n with firstChild := t.next? id }
      let after := match t.next? id with
        | some r => before.update r fun n => { n with prev := t.prev? id }
        | none => before.update p fun n => { n with lastChild := t.prev? id }
      after.update id fun n => { n with parent := none, prev := none, next := none } := by
  obtain ⟨n, hn, hnp⟩ := Option.bind_eq_some_iff.mp hp
  unfold detach prev? next?
  rw [hn]
  cases n
  cases hnp
  rfl

theorem Linked.unlinks_detach (h : t.Linked kids) (id : NodeId) : t.Unlinks id (t.detach id) := by
  cases hp : t.parent? id with
  | none =>
    obtain ⟨-, hv, hx⟩ := h.loose (h.not_mem_of_parent_eq_none hp)
    rw [detach_of_parent_eq_none hp]
    constructor <;> intro c <;> grind
  | some p =>
    have hi := node?_isSome.mpr (h.lt_size (h.mem_of_parent hp))
    have hps := node?_isSome.mpr (h.parent_lt_size (h.mem_of_parent hp))
    have hv (l) (e : t.prev? id = some l) : (t.node? l).isSome := by
      obtain ⟨q, -, hm⟩ := h.prev_mem e
      exact node?_isSome.mpr (h.lt_size hm)
    have hx (r) (e : t.next? id = some r) : (t.node? r).isSome := by
      obtain ⟨q, -, hm⟩ := h.next_mem e
      exact node?_isSome.mpr (h.lt_size hm)
    rw [detach_of_parent hp]
    cases hl : t.prev? id <;> cases hr : t.next? id <;> constructor <;> intro c <;>
      simp only [parent?, prev?, next?, firstChild?, lastChild?] at hp hl hr hv hx ⊢ <;>
      simp only [bind_node?_update, hp, hl, hr, ite_self] <;>
      cases hn : t.node? c <;> grind

theorem Linked.linked_detach (h : t.Linked kids) (id : NodeId) :
    (t.detach id).Linked fun q => (kids q).erase id :=
  h.unlink (h.unlinks_detach id)

theorem data?_update (t : Tree) (i : NodeId) {f : Node → Node} (hf : ∀ n, (f n).data = n.data) :
    (t.update i f).data? = t.data? := by
  funext j
  have e : ((t.update i f).node? j) = if i = j then (t.node? j).map f else t.node? j := by
    simp [update, node?, Array.getElem?_modify]
  rw [data?, data?, e]
  split
  next => cases t.node? j <;> simp [hf]
  next => rfl

theorem data?_isSome {j : NodeId} : (t.data? j).isSome ↔ j < t.size := by
  simp [data?, node?_isSome]

theorem size_eq_of_data?_eq {t' : Tree} (h : t'.data? = t.data?) : t'.size = t.size := by
  have hi (j : Nat) : j < t'.size ↔ j < t.size := by
    rw [← data?_isSome, ← data?_isSome, h]
  have h₁ := hi t.size
  have h₂ := hi t'.size
  omega

@[simp] theorem data?_detach (t : Tree) (id : NodeId) : (t.detach id).data? = t.data? := by
  cases hp : t.parent? id with
  | none => rw [detach_of_parent_eq_none hp]
  | some p =>
    rw [detach_of_parent hp]
    cases t.prev? id <;> cases t.next? id <;> simp [data?_update]

theorem Linked.detach_detach (h : t.Linked kids) (c : NodeId) :
    (t.detach c).detach c = t.detach c :=
  detach_of_parent_eq_none (by simp [(h.unlinks_detach c).parent])

theorem size_detach (t : Tree) (id : NodeId) : (t.detach id).size = t.size :=
  size_eq_of_data?_eq (data?_detach t id)

theorem appendChild_of_lt (hne : p ≠ c) (hp : p < t.size) (hc : c < t.size) :
    t.appendChild p c =
      let linked := (t.detach c).update c fun n =>
        { n with parent := some p, prev := (t.detach c).lastChild? p }
      let joined := match (t.detach c).lastChild? p with
        | some l => linked.update l fun n => { n with next := some c }
        | none => linked.update p fun n => { n with firstChild := some c }
      joined.update p fun n => { n with lastChild := some c } := by
  have hps := node?_isSome.mpr hp
  have hcs := node?_isSome.mpr hc
  rw [Option.isSome_iff_ne_none] at hps hcs
  unfold appendChild
  exact if_neg (by simp [hne, hps, hcs])

theorem Linked.appendChild_detach (h : t.Linked kids) (hne : p ≠ c) (hp : p < t.size)
    (hc : c < t.size) : (t.detach c).appendChild p c = t.appendChild p c := by
  have hs := size_detach t c
  rw [appendChild_of_lt hne hp hc, appendChild_of_lt hne (hs ▸ hp) (hs ▸ hc), h.detach_detach]

theorem Linked.links_appendChild (h : t.Linked kids) (hne : p ≠ c) (hp : p < t.size)
    (hc : c < t.size) (hl : t.parent? c = none) :
    t.Links p (kids p).getLast? c none (t.appendChild p c) := by
  have hm := h.not_mem_of_parent_eq_none hl
  obtain ⟨-, hv, hx⟩ := h.loose hm
  have hlast (l) (e : (kids p).getLast? = some l) : (t.node? l).isSome ∧ l ≠ c := by
    have hk := List.mem_of_getLast? e
    exact ⟨node?_isSome.mpr (h.lt_size hk), fun he => hm p (he ▸ hk)⟩
  rw [appendChild_of_lt hne hp hc, detach_of_parent_eq_none hl, h.last p]
  rw [← node?_isSome] at hp hc
  cases hk : (kids p).getLast? <;> constructor <;> intro d <;>
    simp only [parent?, prev?, next?, firstChild?, lastChild?] at hl hx hv ⊢ <;>
    simp only [bind_node?_update, ite_self] <;>
    cases hn : t.node? d <;> grind

@[simp] theorem data?_appendChild (t : Tree) (p c : NodeId) : (t.appendChild p c).data? = t.data? := by
  unfold appendChild
  split
  next => rfl
  next =>
    dsimp only
    split <;> simp [data?_update]

theorem Linked.linked_appendChild (h : t.Linked kids) (hne : p ≠ c) (hp : p < t.size) (hc : c < t.size) :
    (t.appendChild p c).Linked fun q =>
      if q = p then (kids p).erase c ++ [c] else (kids q).erase c := by
  have hd := h.linked_detach c
  have hs := size_detach t c
  have hl : (t.detach c).parent? c = none := by simp [(h.unlinks_detach c).parent]
  have u := hd.links_appendChild hne (hs ▸ hp) (hs ▸ hc) hl
  rw [h.appendChild_detach hne hp hc] at u
  exact hd.link (hd.not_mem_of_parent_eq_none hl) (r := []) (List.append_nil _).symm u

theorem insertBefore_of_parent {r n : NodeId} (hne : r ≠ n) (hn : n < t.size)
    (hp : t.parent? r = some p) :
    t.insertBefore r n =
      let linked := (t.detach n).update n fun m =>
        { m with parent := some p, prev := (t.detach n).prev? r, next := some r }
      let joined := linked.update r fun m => { m with prev := some n }
      match (t.detach n).prev? r with
      | some l => joined.update l fun m => { m with next := some n }
      | none => joined.update p fun m => { m with firstChild := some n } := by
  have hns := node?_isSome.mpr hn
  rw [Option.isSome_iff_ne_none] at hns
  unfold insertBefore
  rw [hp]
  exact if_neg (by simp [hne, hns])

theorem Linked.insertBefore_detach (h : t.Linked kids) {r n : NodeId} (hne : r ≠ n)
    (hn : n < t.size) (hp : t.parent? r = some p) :
    (t.detach n).insertBefore r n = t.insertBefore r n := by
  have hs := size_detach t n
  have hp' : (t.detach n).parent? r = some p := by
    rw [(h.unlinks_detach n).parent, if_neg hne, hp]
  rw [insertBefore_of_parent hne hn hp, insertBefore_of_parent hne (hs ▸ hn) hp', h.detach_detach]

theorem Linked.links_insertBefore (h : t.Linked kids) {r n : NodeId} {before after : List NodeId}
    (hk : kids p = before ++ r :: after) (hn : n < t.size) (hl : t.parent? n = none) :
    t.Links p before.getLast? n (some r) (t.insertBefore r n) := by
  have hm := h.not_mem_of_parent_eq_none hl
  have hr : r ∈ kids p := by simp [hk]
  have hne : r ≠ n := fun he => hm p (he ▸ hr)
  obtain ⟨hp, hv, -⟩ := h.entry hk
  have hd := h.distinct p
  have hlast (l) (e : before.getLast? = some l) : (t.node? l).isSome ∧ l ≠ n ∧ l ≠ r := by
    have hb := List.mem_of_getLast? e
    have hmem : l ∈ kids p := by simp [hk, hb]
    refine ⟨node?_isSome.mpr (h.lt_size hmem), fun he => hm p (he ▸ hmem), ?_⟩
    rintro rfl
    rw [hk, List.nodup_middle] at hd
    exact (List.nodup_cons.mp hd).1 (List.mem_append_left _ hb)
  have hps := node?_isSome.mpr (h.parent_lt_size hr)
  have hrs := node?_isSome.mpr (h.lt_size hr)
  rw [insertBefore_of_parent hne hn hp, detach_of_parent_eq_none hl, hv]
  rw [← node?_isSome] at hn
  cases hb : before.getLast? <;> constructor <;> intro d <;>
    simp only [parent?, prev?, next?, firstChild?, lastChild?] at hl hv ⊢ <;>
    simp only [bind_node?_update, ite_self] <;>
    cases hn : t.node? d <;> grind

@[simp] theorem data?_insertBefore (t : Tree) (r n : NodeId) :
    (t.insertBefore r n).data? = t.data? := by
  unfold insertBefore
  split
  next => rfl
  next =>
    split
    next => rfl
    next =>
      dsimp only
      split <;> simp [data?_update]

theorem Linked.linked_insertBefore (h : t.Linked kids) {r n : NodeId} (hne : r ≠ n) (hn : n < t.size)
    (hr : r ∈ kids p) :
    (t.insertBefore r n).Linked fun q => splice r [n, r] ((kids q).erase n) := by
  have hd := h.linked_detach n
  have hs := size_detach t n
  have hl : (t.detach n).parent? n = none := by simp [(h.unlinks_detach n).parent]
  have hm : r ∈ (kids p).erase n := (List.mem_erase_of_ne hne).mpr hr
  obtain ⟨before, after, hk, -⟩ := hd.split_of_mem hm
  have u := hd.links_insertBefore hk (hs ▸ hn) hl
  rw [h.insertBefore_detach hne hn (h.parent_of_mem hr)] at u
  have hx := hd.link (hd.not_mem_of_parent_eq_none hl) (r := r :: after) hk u
  refine (congrArg _ (funext fun q => ?_)).mp hx
  have hdq := hd.distinct q
  split
  next hq =>
    subst hq
    rw [hk] at hdq ⊢
    rw [splice_middle hdq]
    simp
  next hq => rw [splice_of_not_mem fun hm' => hq (hd.eq_of_mem hm' hm)]

end Tree

end LivePages
