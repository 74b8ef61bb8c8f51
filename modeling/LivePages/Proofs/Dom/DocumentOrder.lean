import LivePages.Proofs.Dom.ChildLists
import Mathlib.Data.Finset.Card
import Mathlib.Logic.Relation

namespace LivePages

namespace Tree

variable {t : Tree} {p q c id top : NodeId}

/-- A node is a child of another one, a child of its child, and so on. -/
def Below (t : Tree) : NodeId → NodeId → Prop :=
  Relation.TransGen fun p c => c ∈ t.children p

/-- The links agree, and no node is below itself. -/
structure WellFormed (t : Tree) : Prop where
  consistent : t.Consistent
  acyclic : ∀ id, ¬ t.Below id id

namespace WellFormed

theorem parent_eq (h : t.WellFormed) (hc : c ∈ t.children p) (hq : c ∈ t.children q) : p = q :=
  h.consistent.eq_of_mem hc hq

theorem ne_of_child (h : t.WellFormed) (hc : c ∈ t.children p) : p ≠ c :=
  fun e => h.acyclic c (.single (e ▸ hc))

theorem below_child (h : t.WellFormed) (hb : t.Below id c) (hc : c ∈ t.children p) :
    id = p ∨ t.Below id p := by
  cases hb with
  | single hm => exact .inl (h.parent_eq hm hc)
  | tail hb hm => exact .inr (h.parent_eq hm hc ▸ hb)

theorem below_total (h : t.WellFormed) {a b : NodeId} (ha : t.Below a c) (hb : t.Below b c) :
    a = b ∨ t.Below a b ∨ t.Below b a := by
  induction ha with
  | single hm => exact (h.below_child hb hm).elim (.inl ·.symm) (.inr ∘ .inr)
  | tail ha hm ih =>
    rcases h.below_child hb hm with rfl | hb
    · exact .inr (.inl ha)
    · exact ih hb

theorem not_below_sibling (h : t.WellFormed) {d : NodeId} (hc : c ∈ t.children p)
    (hd : d ∈ t.children p) : ¬ t.Below c d := by
  intro hb
  rcases h.below_child hb hd with rfl | hb
  · exact h.acyclic c (.single hc)
  · exact h.acyclic p (.head hc hb)

theorem below_lt_size (h : t.WellFormed) (hb : t.Below p c) : c < t.size := by
  cases hb with
  | single hm => exact h.consistent.lt_size hm
  | tail _ hm => exact h.consistent.lt_size hm

theorem above_lt_size (h : t.WellFormed) (hb : t.Below p c) : p < t.size := by
  induction hb with
  | single hm => exact h.consistent.parent_lt_size hm
  | tail _ _ ih => exact ih

end WellFormed

open Classical in
/-- How many nodes are below a node. -/
noncomputable def weight (t : Tree) (id : NodeId) : Nat :=
  ((Finset.range t.size).filter (t.Below id)).card

open Classical in
/-- How many nodes are above a node. -/
noncomputable def level (t : Tree) (id : NodeId) : Nat :=
  ((Finset.range t.size).filter (t.Below · id)).card

theorem weight_le_size (t : Tree) (id : NodeId) : t.weight id ≤ t.size := by
  classical
  simpa [weight] using Finset.card_filter_le (Finset.range t.size) (t.Below id)

namespace WellFormed

theorem weight_lt (h : t.WellFormed) (hc : c ∈ t.children p) : t.weight c < t.weight p := by
  classical
  apply Finset.card_lt_card
  refine ⟨fun x hx => ?_, fun hs => ?_⟩
  · rw [Finset.mem_filter] at hx ⊢
    exact ⟨hx.1, .head hc hx.2⟩
  · have hm := hs (Finset.mem_filter.mpr
      ⟨Finset.mem_range.mpr (h.consistent.lt_size hc), .single hc⟩)
    exact h.acyclic c (Finset.mem_filter.mp hm).2

theorem level_lt (h : t.WellFormed) (hc : c ∈ t.children p) : t.level p < t.level c := by
  classical
  apply Finset.card_lt_card
  refine ⟨fun x hx => ?_, fun hs => ?_⟩
  · rw [Finset.mem_filter] at hx ⊢
    exact ⟨hx.1, .tail hx.2 hc⟩
  · have hm := hs (Finset.mem_filter.mpr
      ⟨Finset.mem_range.mpr (h.consistent.parent_lt_size hc), .single hc⟩)
    exact h.acyclic p (Finset.mem_filter.mp hm).2

theorem level_lt_size (h : t.WellFormed) (hc : c < t.size) : t.level c < t.size := by
  classical
  have hs : (Finset.range t.size).filter (t.Below · c) ⊂ Finset.range t.size := by
    refine ⟨Finset.filter_subset _ _, fun hs => ?_⟩
    exact h.acyclic c (Finset.mem_filter.mp (hs (Finset.mem_range.mpr hc))).2
  simpa [level] using Finset.card_lt_card hs

/-- What holds of a node whenever it holds of its children holds of every node. -/
theorem child_induction (h : t.WellFormed) {motive : NodeId → Prop}
    (step : ∀ p, (∀ c ∈ t.children p, motive c) → motive p) (p : NodeId) : motive p := by
  induction hw : t.weight p using Nat.strong_induction_on generalizing p with
  | _ n ih => exact step p fun c hc => ih _ (hw ▸ h.weight_lt hc) c rfl

theorem preorder_succ (h : t.WellFormed) {n : Nat} (hn : t.weight p ≤ n) :
    t.preorder (n + 1) p = t.preorder n p := by
  induction n generalizing p with
  | zero =>
    have hk : t.children p = [] := by
      by_contra hne
      obtain ⟨c, hc⟩ := List.exists_mem_of_ne_nil _ hne
      have := h.weight_lt hc
      omega
    simp [preorder, hk]
  | succ n ih =>
    rw [preorder, preorder]
    refine List.flatMap_congr fun c hc => ?_
    have := h.weight_lt hc
    rw [ih (by omega)]

/-- Below a node there are its children, each one before what is below it. -/
theorem preorder_size (h : t.WellFormed) (p : NodeId) :
    t.preorder t.size p = (t.children p).flatMap fun c => c :: t.preorder t.size c := by
  rw [← h.preorder_succ (t.weight_le_size p), preorder]

theorem mem_preorder (h : t.WellFormed) {p : NodeId} : c ∈ t.preorder t.size p ↔ t.Below p c := by
  induction p using h.child_induction with
  | step p ih =>
  rw [h.preorder_size]
  simp only [List.mem_flatMap, List.mem_cons]
  constructor
  · rintro ⟨d, hd, rfl | hm⟩
    · exact .single hd
    · exact .head hd ((ih d hd).mp hm)
  · intro hb
    obtain ⟨d, hd, hb⟩ := Relation.TransGen.head'_iff.mp hb
    rcases Relation.reflTransGen_iff_eq_or_transGen.mp hb with rfl | hb
    · exact ⟨_, hd, .inl rfl⟩
    · exact ⟨d, hd, .inr ((ih d hd).mpr hb)⟩

theorem nodup_preorder (h : t.WellFormed) (p : NodeId) : (t.preorder t.size p).Nodup := by
  induction p using h.child_induction with
  | step p ih =>
  rw [h.preorder_size, List.nodup_flatMap]
  refine ⟨fun c hc => List.nodup_cons.mpr ⟨fun hm => h.acyclic c (h.mem_preorder.mp hm), ih c hc⟩, ?_⟩
  refine (h.consistent.distinct p).imp_of_mem fun {a b} ha hb hne => ?_
  -- A node in both parts would have two siblings above it, or be one of them.
  intro x hxa hxb
  rcases List.mem_cons.mp hxa with rfl | hxa <;> rcases List.mem_cons.mp hxb with rfl | hxb
  · exact hne rfl
  · exact h.not_below_sibling hb ha (h.mem_preorder.mp hxb)
  · exact h.not_below_sibling ha hb (h.mem_preorder.mp hxa)
  · rcases h.below_total (h.mem_preorder.mp hxa) (h.mem_preorder.mp hxb) with e | hab | hba
    · exact hne e
    · exact h.not_below_sibling ha hb hab
    · exact h.not_below_sibling hb ha hba

theorem length_preorder_le (h : t.WellFormed) (p : NodeId) :
    (t.preorder t.size p).length ≤ t.size :=
  length_le_of_nodup (h.nodup_preorder p) fun _ hc => h.below_lt_size (h.mem_preorder.mp hc)

end WellFormed

/-- What comes after the subtree of a node in document order, inside the subtree of `top`. -/
inductive Remaining (t : Tree) (top : NodeId) : NodeId → List NodeId → Prop where
  | top : Remaining t top top []
  | child {p c before after rest} : t.children p = before ++ c :: after → c ≠ top →
      Remaining t top p rest →
      Remaining t top c ((after.flatMap fun d => d :: t.preorder t.size d) ++ rest)

theorem Remaining.eq_or_below {rest : List NodeId} (hr : t.Remaining top id rest) :
    id = top ∨ t.Below top id := by
  induction hr with
  | top => exact .inl rfl
  | @child p c before after rest hk _ _ ih =>
    have hc : c ∈ t.children p := by simp [hk]
    rcases ih with rfl | hb
    · exact .inr (.single hc)
    · exact .inr (.tail hb hc)

namespace WellFormed

theorem remaining_child (h : t.WellFormed) {before after rest : List NodeId}
    (hk : t.children p = before ++ c :: after) (hr : t.Remaining top p rest) :
    t.Remaining top c ((after.flatMap fun d => d :: t.preorder t.size d) ++ rest) := by
  have hc : c ∈ t.children p := by simp [hk]
  refine .child hk ?_ hr
  rintro rfl
  rcases hr.eq_or_below with rfl | hb
  · exact h.acyclic p (.single hc)
  · exact h.acyclic c (.tail hb hc)

/-- Climbing from a node ends at the head of what remains after it. -/
theorem followingWithin_eq (h : t.WellFormed) {rest : List NodeId} {bound : Nat}
    (hr : t.Remaining top id rest) (hb : t.level id < bound) :
    (rest = [] ∧ t.followingWithin top bound id = none) ∨
      ∃ c rest', rest = c :: (t.preorder t.size c ++ rest') ∧
        t.followingWithin top bound id = some c ∧ c < t.size ∧ t.Remaining top c rest' := by
  -- One more parent is climbed to for each step of what remains, and its level is smaller.
  induction hr generalizing bound with
  | top =>
    cases bound with
    | zero => omega
    | succ bound => exact .inl ⟨rfl, by simp [followingWithin]⟩
  | @child p c before after rest hk hne hr ih =>
    have hc : c ∈ t.children p := by simp [hk]
    have hx := (h.consistent.entry hk).2.2
    cases bound with
    | zero => omega
    | succ bound =>
      cases after with
      | nil =>
        have hl := h.level_lt hc
        have e : t.followingWithin top (bound + 1) c = t.followingWithin top bound p := by
          rw [followingWithin, if_neg hne, hx, h.consistent.parent_of_mem hc]
          rfl
        rw [e]
        exact ih (by omega)
      | cons d after =>
        have e : t.followingWithin top (bound + 1) c = some d := by
          rw [followingWithin, if_neg hne, hx]
          rfl
        have hk' : t.children p = (before ++ [c]) ++ d :: after := by simp [hk]
        have hd : d ∈ t.children p := by simp [hk]
        exact .inr ⟨d, _, by simp, e, h.consistent.lt_size hd, h.remaining_child hk' hr⟩

/-- Walking link by link from a node gives the node, what is below it and what remains. -/
theorem walkWithin_eq (h : t.WellFormed) {rest : List NodeId} {bound : Nat}
    (hr : t.Remaining top id rest) (hid : id < t.size)
    (hb : (id :: (t.preorder t.size id ++ rest)).length ≤ bound) :
    t.walkWithin top bound (some id) = id :: (t.preorder t.size id ++ rest) := by
  -- The bound counts the nodes that are still to come.
  induction bound generalizing id rest with
  | zero => simp at hb
  | succ bound ih =>
    have hp := h.preorder_size id
    rw [walkWithin, successorWithin, h.consistent.first]
    cases hk : t.children id with
    | nil =>
      rw [hk, List.flatMap_nil] at hp
      rw [hp, List.nil_append] at hb ⊢
      rw [List.head?_nil, Option.orElse_none]
      rcases h.followingWithin_eq hr (h.level_lt_size hid) with ⟨rfl, e⟩ | ⟨c, rest', rfl, e, hc, hr'⟩
      · rw [e]
        cases bound <;> rfl
      · rw [e, ih hr' hc (by simpa using hb)]
    | cons d ds =>
      have hd : d ∈ t.children id := by simp [hk]
      have hk' : t.children id = [] ++ d :: ds := hk
      have hr' := h.remaining_child hk' hr
      have e : t.preorder t.size id ++ rest = d :: (t.preorder t.size d ++
          ((ds.flatMap fun d => d :: t.preorder t.size d) ++ rest)) := by
        rw [hp, hk]
        simp
      rw [e] at hb ⊢
      rw [List.head?_cons, Option.orElse_some, ih hr' (h.consistent.lt_size hd) (by simpa using hb)]

/-- Following the links gives the order that recursion over children gives. -/
theorem descendants_eq_preorder (h : t.WellFormed) (top : NodeId) :
    t.descendants top = t.preorder t.size top := by
  have hp := h.preorder_size top
  have hl := h.length_preorder_le top
  rw [descendants, h.consistent.first]
  cases hk : t.children top with
  | nil =>
    rw [hp, hk]
    cases t.size <;> rfl
  | cons d ds =>
    have hd : d ∈ t.children top := by simp [hk]
    have hk' : t.children top = [] ++ d :: ds := hk
    have hr := h.remaining_child hk' .top
    have e : t.preorder t.size top = d :: (t.preorder t.size d ++
        ((ds.flatMap fun d => d :: t.preorder t.size d) ++ [])) := by
      rw [hp, hk]
      simp
    rw [e] at hl ⊢
    exact h.walkWithin_eq hr (h.consistent.lt_size hd) hl

theorem descendants_eq (h : t.WellFormed) (p : NodeId) :
    t.descendants p = (t.children p).flatMap fun c => c :: t.descendants c := by
  simp only [h.descendants_eq_preorder]
  exact h.preorder_size p

theorem mem_descendants (h : t.WellFormed) : c ∈ t.descendants p ↔ t.Below p c := by
  rw [h.descendants_eq_preorder, h.mem_preorder]

theorem nodup_descendants (h : t.WellFormed) (p : NodeId) : (t.descendants p).Nodup := by
  rw [h.descendants_eq_preorder]
  exact h.nodup_preorder p

end WellFormed

end Tree

end LivePages
