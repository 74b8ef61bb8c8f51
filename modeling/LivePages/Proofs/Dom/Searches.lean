import LivePages.Proofs.Dom.Built

namespace LivePages

namespace NameTable

variable {t : NameTable} {a b : String} {number : Nat}

theorem getElem?_of_lookup (h : t.lookup a = some number) : t.names[number]? = some a := by
  obtain ⟨hn, e, -⟩ := List.findIdx?_eq_some_iff_getElem.mp h
  rw [List.getElem?_eq_getElem hn, beq_iff_eq.mp e]

/-- No number stands for two names. -/
theorem eq_of_lookup_eq (ha : t.lookup a = some number) (hb : t.lookup b = some number) : a = b :=
  Option.some.inj ((getElem?_of_lookup ha).symm.trans (getElem?_of_lookup hb))

end NameTable

namespace Tree

variable {t : Tree} {top id : NodeId} {target : Option NodeId} {nodes : List NodeId}

/-- The way from a node to the one behind its subtree, parent by parent. It ends at `top`. -/
inductive Climbs (t : Tree) (top : NodeId) : NodeId → Option NodeId → Prop where
  | top : Climbs t top top none
  | next {id next : NodeId} : id ≠ top → t.next? id = some next → Climbs t top id (some next)
  | up {id parent : NodeId} {target : Option NodeId} : id ≠ top → t.next? id = none →
      t.parent? id = some parent → Climbs t top parent target → Climbs t top id target
  | loose {id : NodeId} : id ≠ top → t.next? id = none → t.parent? id = none → Climbs t top id none

/-- The walk from a node to its first child or, without children, to the node behind it: a walk that
comes to its end, and the nodes that it visits. -/
inductive Visits (t : Tree) (top : NodeId) : Option NodeId → List NodeId → Prop where
  | done : Visits t top none []
  | down {id first : NodeId} {rest : List NodeId} : t.firstChild? id = some first →
      Visits t top (some first) rest → Visits t top (some id) (id :: rest)
  | on {id : NodeId} {target : Option NodeId} {rest : List NodeId} : t.firstChild? id = none →
      Climbs t top id target → Visits t top target rest → Visits t top (some id) (id :: rest)

theorem Climbs.unique {target' : Option NodeId} (h : t.Climbs top id target)
    (h' : t.Climbs top id target') : target = target' := by
  induction h with
  | top => cases h' <;> first | rfl | contradiction
  | next hne hx =>
    cases h' with
    | top => contradiction
    | next _ hx' => exact hx.symm.trans hx'
    | up _ hx' => cases hx.symm.trans hx'
    | loose _ hx' => cases hx.symm.trans hx'
  | up hne hx hp _ ih =>
    cases h' with
    | top => contradiction
    | next _ hx' => cases hx.symm.trans hx'
    | up _ _ hp' hc =>
      cases Option.some.inj (hp.symm.trans hp')
      exact ih hc
    | loose _ _ hp' => cases hp.symm.trans hp'
  | loose hne hx hp =>
    cases h' with
    | top => contradiction
    | next _ hx' => cases hx.symm.trans hx'
    | up _ _ hp' => cases hp.symm.trans hp'
    | loose => rfl

theorem Visits.unique {start : Option NodeId} {nodes' : List NodeId} (h : t.Visits top start nodes)
    (h' : t.Visits top start nodes') : nodes = nodes' := by
  induction h generalizing nodes' with
  | done => cases h'; rfl
  | down hf _ ih =>
    cases h' with
    | down hf' hv =>
      cases Option.some.inj (hf.symm.trans hf')
      rw [ih hv]
    | on hf' => cases hf.symm.trans hf'
  | on hf hc _ ih =>
    cases h' with
    | down hf' => cases hf.symm.trans hf'
    | on _ hc' hv =>
      cases hc.unique hc'
      rw [ih hv]

namespace WellFormed

/-- Each parent is on a smaller level, so the way ends before its bound is used up. -/
theorem climbs_followingWithin (h : t.WellFormed) {bound : Nat} (hb : t.level id < bound) :
    t.Climbs top id (t.followingWithin top bound id) := by
  induction bound generalizing id with
  | zero => omega
  | succ bound ih =>
    rw [followingWithin]
    split_ifs with he
    · exact he ▸ .top
    · split
      next next hx => exact .next he hx
      next hx =>
        split
        next parent hp =>
          have hl := h.level_lt (h.consistent.mem_of_parent hp)
          exact .up he hx hp (ih (by omega))
        next hp => exact .loose he hx hp

/-- A walk shorter than its bound has come to its end. Each step takes one node off the walk and one
off the bound. -/
theorem visits_walkWithin (h : t.WellFormed) {bound : Nat} {start : Option NodeId}
    (known : ∀ id ∈ t.walkWithin top bound start, id < t.size)
    (hb : (t.walkWithin top bound start).length < bound) :
    t.Visits top start (t.walkWithin top bound start) := by
  induction bound generalizing start with
  | zero => omega
  | succ bound ih =>
    cases start with
    | none => exact .done
    | some id =>
      rw [walkWithin] at known hb ⊢
      rw [List.forall_mem_cons] at known
      have rest := ih known.2 (Nat.lt_of_succ_lt_succ hb)
      rw [successorWithin] at rest ⊢
      cases hf : t.firstChild? id with
      | some first =>
        rw [hf] at rest
        exact .down hf rest
      | none =>
        rw [hf] at rest
        exact .on hf (h.climbs_followingWithin (h.level_lt_size known.1)) rest

/-- The walk ends before its bound is used up: no node is visited twice, and the top not at all. -/
theorem visits_descendants (h : t.WellFormed) (top : NodeId) :
    t.Visits top (t.firstChild? top) (t.descendants top) := by
  by_cases ht : top < t.size
  · refine h.visits_walkWithin (fun id hm => h.below_lt_size (h.mem_descendants.mp hm)) ?_
    have distinct : (top :: t.descendants top).Nodup := List.nodup_cons.mpr
      ⟨fun hm => h.acyclic top (h.mem_descendants.mp hm), h.nodup_descendants top⟩
    have inside : ∀ id ∈ top :: t.descendants top, id < t.size := List.forall_mem_cons.mpr
      ⟨ht, fun id hm => h.below_lt_size (h.mem_descendants.mp hm)⟩
    exact length_le_of_nodup distinct inside
  · have hf : t.firstChild? top = none := by
      rw [h.consistent.first, h.consistent.eq_nil_of_size_le (Nat.le_of_not_lt ht), List.head?_nil]
    rw [descendants, hf]
    cases t.size <;> exact .done

theorem preorder_of_le (h : t.WellFormed) {depth : Nat} (hd : t.size ≤ depth) (top : NodeId) :
    t.preorder depth top = t.descendants top := by
  induction depth, hd using Nat.le_induction with
  | base => exact (h.descendants_eq_preorder top).symm
  | succ depth hd ih => rw [h.preorder_succ ((t.weight_le_size top).trans hd), ih]

end WellFormed

theorem preorder_congr {t' : Tree} (hk : t'.children = t.children) (depth : Nat) (id : NodeId) :
    t'.preorder depth id = t.preorder depth id := by
  induction depth generalizing id with
  | zero => rfl
  | succ depth ih => simp only [preorder, hk, ih]

/-- More names in use change nothing below a node. -/
theorem WellFormed.intern (h : t.WellFormed) (name : String) :
    (t.intern name).WellFormed ∧ (t.intern name).descendants = t.descendants := by
  have linked := Linked.linked_intern h.consistent name
  have wellFormed : (t.intern name).WellFormed := by
    refine ⟨linked.consistent, fun id hb => h.acyclic id ?_⟩
    rwa [Below, linked.children_eq] at hb
  refine ⟨wellFormed, funext fun top => ?_⟩
  rw [wellFormed.descendants_eq_preorder, h.descendants_eq_preorder]
  exact preorder_congr linked.children_eq _ _

theorem elementsNamed_eq_filter (t : Tree) (top : NodeId) (tags : List String) :
    t.elementsNamed top tags =
      (t.descendants top).filter fun id => (t.tag? id).any tags.contains := by
  refine List.filter_congr fun id _ => ?_
  cases t.tag? id <;> rfl

theorem elementsNumbered_eq_filter (t : Tree) (top : NodeId) (tags : List String) :
    t.elementsNumbered top tags = (t.descendants top).filter fun id =>
      (t.tagNumber? id).any (tags.filterMap t.names.lookup).contains := by
  rw [elementsNumbered]
  split
  next hw =>
    rw [List.isEmpty_iff.mp hw]
    refine (List.filter_eq_nil_iff.mpr fun id _ => ?_).symm
    cases t.tagNumber? id <;> simp
  next =>
    refine List.filter_congr fun id _ => ?_
    cases t.tagNumber? id <;> rfl

/-- Numbers of names find what the names themselves find. -/
theorem TagsInUse.elementsNumbered_eq (h : t.TagsInUse) (top : NodeId) (tags : List String) :
    t.elementsNumbered top tags = t.elementsNamed top tags := by
  have wanted {tag : String} {number : Nat} (hl : t.names.lookup tag = some number) :
      number ∈ tags.filterMap t.names.lookup ↔ tag ∈ tags := by
    rw [List.mem_filterMap]
    exact ⟨fun ⟨a, ha, he⟩ => NameTable.eq_of_lookup_eq he hl ▸ ha, fun hm => ⟨tag, hm, hl⟩⟩
  rw [elementsNumbered_eq_filter, elementsNamed_eq_filter]
  refine List.filter_congr fun id _ => ?_
  cases ht : t.tag? id with
  | none => simp [tagNumber?, ht]
  | some tag =>
    obtain ⟨e, he, rfl⟩ := Option.map_eq_some_iff.mp ht
    obtain ⟨number, hl⟩ := Option.isSome_iff_exists.mp
      (NameTable.lookup_isSome_iff.mpr (h id e he))
    have hn : t.tagNumber? id = some number := by rw [tagNumber?, ht, Option.bind_some, hl]
    rw [hn, Option.any_some, Option.any_some, Bool.eq_iff_iff, List.contains_iff_mem,
      List.contains_iff_mem, wanted hl]

theorem elementsNamed_congr {tags tags' : List String} (h : ∀ tag, tag ∈ tags ↔ tag ∈ tags') :
    t.elementsNamed top tags = t.elementsNamed top tags' := by
  have same : tags.contains = tags'.contains := by
    funext tag
    rw [Bool.eq_iff_iff, List.contains_iff_mem, List.contains_iff_mem, h]
  rw [elementsNamed_eq_filter, elementsNamed_eq_filter, same]

theorem TagsInUse.elementsNumbered_foldl_intern (hn : t.TagsInUse) (h : t.WellFormed) (top : NodeId)
    (names tags : List String) :
    (names.foldl Tree.intern t).elementsNumbered top tags = t.elementsNamed top tags := by
  induction names generalizing t with
  | nil => exact hn.elementsNumbered_eq top tags
  | cons name names ih =>
    obtain ⟨wellFormed, same⟩ := h.intern name
    rw [List.foldl_cons, ih (hn.intern name) wellFormed, elementsNamed_eq_filter,
      elementsNamed_eq_filter, same]
    rfl

/-- The nodes below a node in the order of the recursion over children, with what the walk and the
searches below the node find. The numbers of names find the same elements as the names, whatever
names are in use besides the tags. -/
structure Traversed (t : Tree) (top : NodeId) (order : List NodeId) : Prop where
  visits : ∀ nodes, t.Visits top (t.firstChild? top) nodes ↔ nodes = order
  descendants : t.descendants top = order
  once : order.Nodup
  mem : ∀ id, id ∈ order ↔ t.Below top id
  named : ∀ tags, t.elementsNamed top tags = order.filter fun id => (t.tag? id).any tags.contains
  unordered : ∀ tags tags', (∀ tag, tag ∈ tags ↔ tag ∈ tags') →
    t.elementsNamed top tags = t.elementsNamed top tags'
  numbered : t.TagsInUse → ∀ names tags : List String,
    (names.foldl intern t).elementsNumbered top tags = t.elementsNamed top tags
  comment : ∀ test, t.findComment? top test = order.find? fun id => (t.comment? id).any test
  text : t.textContent top = String.join (order.filterMap t.text?)

/-- In a tree without cycles the walk along the links ends, and gives the order of the recursion; the
searches look through that order. -/
theorem traversed_preorder (h : t.WellFormed) {depth : Nat} (hd : t.size ≤ depth) (top : NodeId) :
    t.Traversed top (t.preorder depth top) := by
  rw [h.preorder_of_le hd]
  have visits := h.visits_descendants top
  exact {
    visits := fun nodes => ⟨fun hv => hv.unique visits, fun e => e ▸ visits⟩
    descendants := rfl
    once := h.nodup_descendants top
    mem := fun _ => h.mem_descendants
    named := t.elementsNamed_eq_filter top
    unordered := fun _ _ => elementsNamed_congr
    numbered := fun hn => hn.elementsNumbered_foldl_intern h top
    comment := fun test => by
      refine congrArg (fun p => (t.descendants top).find? p) (funext fun id => ?_)
      cases t.comment? id <;> rfl
    text := rfl }

/-- A page with a comment, two paragraphs and a text. -/
def shortPage : Tree :=
  ofNodes [(0, .element ⟨"html", []⟩), (1, .element ⟨"head", []⟩), (1, .element ⟨"body", []⟩),
    (2, .comment "marker"), (3, .element ⟨"p", []⟩), (5, .text "Hello"), (3, .element ⟨"p", []⟩)]

theorem traversed_shortPage : shortPage.WellFormed ∧ shortPage.size ≤ 8 ∧ shortPage.TagsInUse ∧
    shortPage.Visits 1 (some 2) [2, 4, 3, 5, 6, 7] ∧
    (shortPage.intern "x-unused").elementsNumbered 1 ["x-unused", "p", "head"] = [2, 5, 7] ∧
    shortPage.findComment? 1 (· == "marker") = some 4 ∧ shortPage.textContent 1 = "Hello" := by
  have wellFormed : shortPage.WellFormed := ofNodes_wellFormed _
  have small : shortPage.size ≤ 8 := by decide
  have used : shortPage.TagsInUse := by decide
  have order : shortPage.preorder 8 1 = [2, 4, 3, 5, 6, 7] := by decide
  have traversed := traversed_preorder wellFormed small 1
  rw [order] at traversed
  have numbered := traversed.numbered used ["x-unused"] ["x-unused", "p", "head"]
  rw [traversed.named] at numbered
  have comment := traversed.comment (· == "marker")
  have text := traversed.text
  refine ⟨wellFormed, small, used, (traversed.visits _).mpr rfl, numbered.trans ?_,
    comment.trans ?_, text.trans ?_⟩ <;> decide

end Tree

end LivePages
