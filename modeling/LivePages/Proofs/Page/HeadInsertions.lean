import LivePages.Proofs.Page.ScriptKinds
import LivePages.Proofs.Page.Sections

namespace LivePages

namespace Template

instance (a b : Template) : Decidable (a.Agrees b) :=
  decidable_of_iff (a.tag = b.tag ∧ a.attributes.Perm b.attributes ∧ a.text.getD "" = b.text.getD "")
    ⟨fun h => ⟨h.1, h.2.1, h.2.2⟩, fun h => ⟨h.tag, h.attributes, h.text⟩⟩

/-- The templates of a list that have to be added. What has been added counts as present only if it
can be seen where one looks. -/
def lacking (seen : Bool) (present : Template → Bool) : List Template → List Template
  | [] => []
  | a :: rest =>
    if present a then lacking seen present rest
    else a :: lacking seen (fun b => present b || seen && decide (a.Agrees b)) rest

variable {seen : Bool} {present : Template → Bool} {a : Template}

theorem mem_of_mem_lacking {as : List Template} (h : a ∈ lacking seen present as) : a ∈ as := by
  induction as generalizing present with
  | nil => exact h
  | cons b as ih =>
    rw [lacking] at h
    split at h
    next => exact List.mem_cons_of_mem b (ih h)
    next =>
      rcases List.mem_cons.mp h with rfl | h
      · exact List.mem_cons_self
      · exact List.mem_cons_of_mem b (ih h)

/-- What is lacking in the second part of a list is seen in the light of the first. -/
theorem lacking_append (seen : Bool) (present : Template → Bool) (as bs : List Template) :
    lacking seen present (as ++ bs) = lacking seen present as ++
      lacking seen (fun b => present b || seen && (lacking seen present as).any fun a => a.Agrees b)
        bs := by
  induction as generalizing present with
  | nil => simp [lacking]
  | cons a as ih =>
    rw [List.cons_append, lacking, lacking]
    split
    next => exact ih present
    next =>
      rw [ih, List.cons_append]
      congr 3
      funext b
      rw [List.any_cons, Bool.and_or_distrib_left, Bool.or_assoc]

end Template

namespace Tree

variable {t t' : Tree} {l : Layout} {html head body c : NodeId} {template : Template}

theorem containsTemplate_eq (t : Tree) (p : NodeId) (template : Template) :
    t.containsTemplate p template = (t.children p).any fun id => t.matchesTemplate id template := by
  rw [containsTemplate, elementChildren, List.any_filter]
  refine congrArg _ (funext fun id => ?_)
  cases hm : t.matchesTemplate id template with
  | false => rw [Bool.and_false]
  | true =>
    obtain ⟨e, he, -⟩ := element?_of_matches hm
    rw [he]
    rfl

/-- How many children of a node match a template. -/
def matchCount (t : Tree) (p : NodeId) (template : Template) : Nat :=
  (t.children p).countP fun id => t.matchesTemplate id template

theorem containsTemplate_iff (t : Tree) (p : NodeId) (template : Template) :
    t.containsTemplate p template ↔ 0 < t.matchCount p template := by
  rw [containsTemplate_eq, matchCount, List.countP_pos_iff, List.any_eq_true]

end Tree

/-- Whether what follows the marker, or ends the head, is among the children of the head. -/
def Layout.seen (l : Layout) (t : Tree) : Bool :=
  match l.marker with
  | some m => (t.children l.head).contains m
  | none => true

/-- Where a cursor is when some widgets are in place and some templates have been looked for. -/
structure HeadCursor.Follows (c : HeadCursor) (t : Tree) (body : NodeId)
    (done : List WidgetDescriptor) (loaded : List Template) (l : Layout) : Prop where
  laid : t.Laid l c.tree
  head : c.head = l.head
  last : c.last = l.last
  base : ∀ q, q ≠ body → l.base q = t.children q
  kept : ∀ q x, x ∈ t.children q → x ∈ l.base q
  widgets : ∀ w, w ∈ done → t.IsWidget w.node
  placed : l.placed.map (fun e => (e.1, e.2.map Prod.snd)) =
    done.map fun w => (t.anchor w.node, w.templates)
  forHead : ∀ a, a ∈ loaded → a.IsHead
  added : l.added.map Prod.snd = Template.lacking (l.seen t) (t.containsTemplate l.head) loaded

namespace HeadCursor.Follows

variable {c : HeadCursor} {t : Tree} {html body x : NodeId} {done : List WidgetDescriptor}
  {loaded : List Template} {l : Layout} {a : Template}

theorem placed_cases (h : c.Follows t body done loaded l) {e : NodeId × List (NodeId × Template)}
    (he : e ∈ l.placed) : ∃ w, w ∈ done ∧ e.1 = t.anchor w.node ∧ e.2.map Prod.snd = w.templates := by
  have hm := List.mem_map_of_mem (f := fun e => (e.1, e.2.map Prod.snd)) he
  rw [h.placed] at hm
  obtain ⟨w, hw, hq⟩ := List.mem_map.mp hm
  exact ⟨w, hw, (congrArg Prod.fst hq).symm, (congrArg Prod.snd hq).symm⟩

theorem anchor_cases (h : c.Follows t body done loaded l) (hx : x ∈ l.anchors) :
    ∃ w, w ∈ done ∧ x = t.anchor w.node := by
  obtain ⟨e, he, rfl⟩ := List.mem_map.mp hx
  obtain ⟨w, hw, hq, -⟩ := h.placed_cases he
  exact ⟨w, hw, hq⟩

theorem isHead_added (h : c.Follows t body done loaded l) {e : NodeId × Template} (he : e ∈ l.added) :
    e.2.IsHead := by
  have hm := List.mem_map_of_mem (f := Prod.snd) he
  rw [h.added] at hm
  exact h.forHead _ (Template.mem_of_mem_lacking hm)

/-- Nothing that has given way to a widget is like a script or a style sheet. -/
theorem anchor_not_matches (h : c.Follows t body done loaded l) (hx : x ∈ l.anchors)
    (ha : a.tag = "script" ∨ a.tag = "link") : ¬ t.matchesTemplate x a := by
  intro hm
  obtain ⟨w, hw, rfl⟩ := h.anchor_cases hx
  obtain ⟨tag, htag, ht⟩ := Tree.anchor_tag (h.widgets w hw)
  obtain ⟨e, he, he'⟩ := Tree.element?_of_matches hm
  obtain ⟨e', hf, hf'⟩ := Tree.element?_of_tag? ht
  cases Option.some.inj (he.symm.trans hf)
  rw [← hf', he'] at htag
  rcases ha with e | e <;> rw [e] at htag <;> exact absurd htag (by decide)

theorem placed_matches (h : c.Follows t body done loaded l) (hx : x ∈ l.placedIds) :
    ∃ w b, w ∈ done ∧ b ∈ w.templates ∧ c.tree.matchesTemplate x b := by
  obtain ⟨y, hy, rfl⟩ := List.mem_map.mp hx
  obtain ⟨e, he, hye⟩ := List.mem_flatMap.mp hy
  obtain ⟨w, hw, -, ht⟩ := h.placed_cases he
  have hm : y.2 ∈ w.templates := ht ▸ List.mem_map_of_mem hye
  exact ⟨w, y.2, hw, hm, (h.laid.grown.new y.1 y.2 (Tree.Laid.mem_made_of_placed e he hye)).2⟩

theorem added_matches (h : c.Follows t body done loaded l) (hx : x ∈ l.addedIds) :
    ∃ b, b.IsHead ∧ c.tree.matchesTemplate x b := by
  obtain ⟨e, he, rfl⟩ := List.mem_map.mp hx
  have hm : (e.1, e.2) ∈ l.made := List.mem_append_left _ (List.mem_append_right _ he)
  exact ⟨e.2, h.isHead_added he, (h.laid.grown.new e.1 e.2 hm).2⟩

/-- Nothing that stands for a widget is like something in the head. -/
theorem placed_not_matches (h : c.Follows t body done loaded l) (hx : x ∈ l.placedIds) (ha : a.IsHead) :
    ¬ c.tree.matchesTemplate x a := by
  obtain ⟨w, b, -, hb, hm⟩ := h.placed_matches hx
  rw [Tree.matches_iff_agrees hm]
  exact WidgetDescriptor.not_agrees_head hb ha

theorem countP_added (h : c.Follows t body done loaded l) (a : Template) :
    (l.addedIds.countP fun id => c.tree.matchesTemplate id a) =
      l.added.countP fun e => e.2.Agrees a := by
  rw [Layout.addedIds, List.countP_map]
  refine List.countP_congr fun e he => ?_
  have hm : (e.1, e.2) ∈ l.made := List.mem_append_left _ (List.mem_append_right _ he)
  rw [decide_eq_true_iff, ← Tree.matches_iff_agrees (h.laid.grown.new e.1 e.2 hm).2]
  rfl

section Head

variable (h : c.Follows t body done loaded l) (hs : t.Sections html l.head body) (ha : a.IsHead)
include h hs ha

theorem countP_block (hx : x ∈ t.children l.head) (hm : l.marker ≠ some x) :
    ((l.block x).countP fun id => c.tree.matchesTemplate id a) =
      if t.matchesTemplate x a then 1 else 0 := by
  have hlt := hs.wellFormed.consistent.lt_size hx
  have hxh : x ≠ l.head := (hs.wellFormed.ne_of_child hx).symm
  by_cases hxa : x ∈ l.anchors
  · rw [if_neg (h.anchor_not_matches hxa ha.tag), List.countP_eq_zero]
    intro y hy
    rcases Layout.mem_block_of_ne hm hy with rfl | hy
    · rw [h.laid.matches_old hs.wellFormed hlt hxh (h.base y (hs.not_body_of_head_child hx))]
      exact h.anchor_not_matches hxa ha.tag
    · exact h.placed_not_matches hy ha
  · rw [Layout.block_other hm hxa, List.countP_singleton,
      h.laid.matches_old hs.wellFormed hlt hxh (h.base x (hs.not_body_of_head_child hx))]

theorem countP_blocks {cs : List NodeId} (hc : ∀ x ∈ cs, x ∈ t.children l.head)
    (hm : ∀ x ∈ cs, l.marker ≠ some x) :
    ((cs.flatMap l.block).countP fun id => c.tree.matchesTemplate id a) =
      cs.countP fun id => t.matchesTemplate id a := by
  induction cs with
  | nil => rfl
  | cons x cs ih =>
    rw [List.forall_mem_cons] at hc hm
    rw [List.flatMap_cons, List.countP_append, ih hc.2 hm.2, h.countP_block hs ha hc.1 hm.1,
      List.countP_cons, Nat.add_comm]

/-- The head has what it had and, where one looks, what has been added. -/
theorem matchCount_eq : c.tree.matchCount l.head a = t.matchCount l.head a +
    if l.seen t then l.added.countP fun e => e.2.Agrees a else 0 := by
  have hk : c.tree.children l.head = (t.children l.head).flatMap l.block ++ l.tail l.head := by
    rw [h.laid.grown.children l.head h.laid.head, Layout.children, h.base l.head hs.head_ne_body]
  have hc := h.countP_added a
  rw [Tree.matchCount, Tree.matchCount, hk, List.countP_append]
  cases hm : l.marker with
  | none =>
    have ht : l.tail l.head = l.addedIds := if_pos ⟨rfl, hm⟩
    rw [h.countP_blocks hs ha (fun _ hx => hx) (by simp [hm]), ht, hc, Layout.seen, hm]
    rfl
  | some m =>
    have ht : l.tail l.head = [] := if_neg fun e => absurd (hm.symm.trans e.2) (Option.some_ne_none m)
    rw [ht, List.countP_nil, Nat.add_zero]
    -- What has been added stands behind the marker, so it counts only if the marker is a child here.
    by_cases hmc : m ∈ t.children l.head
    · obtain ⟨before, after, hk⟩ := List.append_of_mem hmc
      have hd := hs.wellFormed.consistent.distinct l.head
      rw [hk, List.nodup_middle, List.nodup_cons, List.mem_append, not_or] at hd
      have hin (x) (hx : x ∈ before ++ after) : x ∈ t.children l.head := by
        rw [hk]
        rcases List.mem_append.mp hx with hx | hx <;> simp [hx]
      have hne (x) (hx : x ∈ before ++ after) : l.marker ≠ some x := by
        intro e
        cases Option.some.inj (hm.symm.trans e)
        exact (List.mem_append.mp hx).elim hd.1.1 hd.1.2
      rw [List.forall_mem_append] at hin hne
      have hold := h.laid.matches_old hs.wellFormed (hs.wellFormed.consistent.lt_size hmc)
        (hs.wellFormed.ne_of_child hmc).symm (h.base m (hs.not_body_of_head_child hmc)) a
      have hn : l.seen t := by simp [Layout.seen, hm, hmc]
      rw [if_pos hn, hk, List.flatMap_append, List.flatMap_cons, Layout.block_marker hm]
      simp only [List.countP_append, List.countP_cons, h.countP_blocks hs ha hin.1 hne.1,
        h.countP_blocks hs ha hin.2 hne.2, hc, hold]
      omega
    · have hn : l.seen t = false := by simp [Layout.seen, hm, hmc]
      rw [hn, if_neg Bool.false_ne_true, Nat.add_zero]
      refine h.countP_blocks hs ha (fun _ hx => hx) fun x hx e => ?_
      exact hmc (Option.some.inj (hm.symm.trans e) ▸ hx)

theorem contains_eq : c.tree.containsTemplate l.head a = (t.containsTemplate l.head a ||
    l.seen t && (Template.lacking (l.seen t) (t.containsTemplate l.head) loaded).any
      fun b => b.Agrees a) := by
  have hn := h.matchCount_eq hs ha
  have hany : ((Template.lacking (l.seen t) (t.containsTemplate l.head) loaded).any
      fun b => decide (b.Agrees a)) = true ↔ 0 < l.added.countP fun e => decide (e.2.Agrees a) := by
    rw [← h.added, List.any_map, List.any_eq_true, List.countP_pos_iff]
    rfl
  rw [Bool.eq_iff_iff, Bool.or_eq_true, Bool.and_eq_true, hany, Tree.containsTemplate_iff,
    Tree.containsTemplate_iff, hn]
  cases l.seen t with
  | true => simp only [if_true, true_and]; omega
  | false => simp

theorem add : ∃ new, (c.add a).Follows t body done (loaded ++ [a])
    { l with added := l.added ++ new } := by
  have hp := h.contains_eq hs ha
  have hhead (b) (hb : b ∈ loaded ++ [a]) : b.IsHead := by
    rcases List.mem_append.mp hb with hb | hb
    · exact h.forHead b hb
    · cases List.mem_singleton.mp hb
      exact ha
  cases hc : c.tree.containsTemplate l.head a with
  | true =>
    have hsame : c.add a = c := by
      rw [HeadCursor.add, h.head, hc]
      rfl
    refine ⟨[], ?_⟩
    rw [List.append_nil, hsame]
    refine { h with forHead := hhead, added := ?_ }
    rw [Template.lacking_append, h.added, Template.lacking, ← hp, hc]
    exact (List.append_nil _).symm
  | false =>
    have hadd := h.laid.add ha.distinct
    have hnew : c.add a = ⟨match l.last with
        | some r => (c.tree.instantiate a).1.insertAfter r c.tree.size
        | none => (c.tree.instantiate a).1.appendChild l.head c.tree.size, c.head, some c.tree.size⟩ := by
      simp only [HeadCursor.add, h.head, hc, h.last, Tree.instantiate_id]
      rfl
    refine ⟨[(c.tree.size, a)], ?_⟩
    rw [hnew]
    refine { h with laid := hadd, last := ?_, forHead := hhead, added := ?_ }
    · simp [Layout.last, Layout.addedIds]
    · have hl := Template.lacking_append (l.seen t) (t.containsTemplate l.head) loaded [a]
      rw [Template.lacking, ← hp, hc] at hl
      rw [List.map_append, h.added]
      exact hl.symm

end Head

theorem addAll (h : c.Follows t body done loaded l) (hs : t.Sections html l.head body)
    {as : List Template} (ha : ∀ a ∈ as, a.IsHead) :
    ∃ new, (c.addAll as).Follows t body done (loaded ++ as) { l with added := l.added ++ new } := by
  induction as generalizing c loaded l with
  | nil =>
    refine ⟨[], ?_⟩
    rw [List.append_nil, List.append_nil]
    exact h
  | cons a as ih =>
    rw [List.forall_mem_cons] at ha
    obtain ⟨new, h⟩ := h.add hs ha.1
    obtain ⟨new', h⟩ := ih h hs ha.2
    refine ⟨new ++ new', ?_⟩
    rw [List.append_assoc] at h
    rw [← List.append_assoc]
    exact h

end HeadCursor.Follows

end LivePages
