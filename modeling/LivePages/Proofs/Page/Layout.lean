import LivePages.Proofs.Dom.Growth

namespace LivePages

theorem splice_flatMap {a : NodeId} {block l : List NodeId} {f g : NodeId → List NodeId}
    (h : ∀ c ∈ l, splice a block (f c) = g c) : splice a block (l.flatMap f) = l.flatMap g := by
  rw [splice, List.flatMap_assoc]
  exact List.flatMap_congr h

theorem splice_last {l : List NodeId} {r n : NodeId} (hd : l.Nodup) (hr : l.getLast? = some r) :
    splice r [r, n] l = l ++ [n] := by
  obtain ⟨l, rfl⟩ := List.getLast?_eq_some_iff.mp hr
  rw [splice_middle hd]
  simp

theorem erase_flatMap {a : NodeId} {l : List NodeId} {f : NodeId → List NodeId} (ha : f a = [a])
    (h : ∀ c ∈ l, c ≠ a → a ∉ f c) : (l.flatMap f).erase a = (l.erase a).flatMap f := by
  induction l with
  | nil => rfl
  | cons c l ih =>
    rw [List.flatMap_cons]
    by_cases hc : c = a
    · rw [hc, ha, List.erase_cons_head, List.singleton_append, List.erase_cons_head]
    · have hn := h c List.mem_cons_self hc
      rw [List.erase_append_right _ hn, List.erase_cons_tail (by simpa using hc), List.flatMap_cons,
        ih fun d hd => h d (List.mem_cons_of_mem c hd)]

theorem erase_append_of_not_mem {a : NodeId} {l r : List NodeId} (h : a ∉ r) :
    (l ++ r).erase a = l.erase a ++ r := by
  by_cases hl : a ∈ l
  · exact List.erase_append_left r hl
  · rw [List.erase_append_right r hl, List.erase_of_not_mem h, List.erase_of_not_mem hl]

/-- Where the new elements of a page stand. In the lists of the old nodes, the session's scripts in
place, the elements added to the head follow the marker, or end the head if there is none; other
elements stand where an anchor was. -/
structure Layout where
  head : NodeId
  marker : Option NodeId
  base : NodeId → List NodeId
  session : List (NodeId × Template)
  added : List (NodeId × Template)
  placed : List (NodeId × List (NodeId × Template))

namespace Layout

variable {l : Layout} {c n r x : NodeId}

def made (l : Layout) : List (NodeId × Template) :=
  l.session ++ l.added ++ l.placed.flatMap Prod.snd

def addedIds (l : Layout) : List NodeId :=
  l.added.map Prod.fst

def placedIds (l : Layout) : List NodeId :=
  (l.placed.flatMap Prod.snd).map Prod.fst

def anchors (l : Layout) : List NodeId :=
  l.placed.map Prod.fst

/-- What stands in the place of a node. -/
def block (l : Layout) (c : NodeId) : List NodeId :=
  if l.marker = some c then c :: l.addedIds
  else match l.placed.lookup c with
    | some elements => elements.map Prod.fst
    | none => [c]

def tail (l : Layout) (q : NodeId) : List NodeId :=
  if q = l.head ∧ l.marker = none then l.addedIds else []

def children (l : Layout) (q : NodeId) : List NodeId :=
  (l.base q).flatMap l.block ++ l.tail q

/-- The node behind which the next element is added. -/
def last (l : Layout) : Option NodeId :=
  l.addedIds.getLast?.or l.marker

def add (l : Layout) (n : NodeId) (template : Template) : Layout :=
  { l with added := l.added ++ [(n, template)] }

def place (l : Layout) (anchor : NodeId) (elements : List (NodeId × Template)) : Layout :=
  { l with placed := l.placed ++ [(anchor, elements)] }

theorem map_made (l : Layout) :
    l.made.map Prod.fst = l.session.map Prod.fst ++ l.addedIds ++ l.placedIds := by
  rw [made, List.map_append, List.map_append]
  rfl

/-- A node, perhaps one of the new ones, moves to an end of a list. -/
def seat (l : Layout) (body x : NodeId) (new : List (NodeId × Template))
    (put : List NodeId → List NodeId) : Layout :=
  { l with
    base := fun q => if q = body then put ((l.base body).erase x) else (l.base q).erase x
    session := l.session ++ new }

theorem perm_made_seat (l : Layout) (body x : NodeId) (new : List (NodeId × Template))
    (put : List NodeId → List NodeId) : (l.made ++ new).Perm (l.seat body x new put).made := by
  simp only [made, seat, List.append_assoc]
  refine .append_left _ ?_
  rw [← List.append_assoc]
  exact List.perm_append_comm

theorem perm_made_add (l : Layout) (n : NodeId) (template : Template) :
    (l.made ++ [(n, template)]).Perm (l.add n template).made := by
  simp only [made, add, ← List.append_assoc]
  rw [List.append_assoc _ _ [(n, template)], List.append_assoc _ [(n, template)]]
  exact .append_left _ List.perm_append_comm

theorem made_place (l : Layout) (anchor : NodeId) (elements : List (NodeId × Template)) :
    (l.place anchor elements).made = l.made ++ elements := by
  simp [made, place]

theorem block_marker (h : l.marker = some c) : l.block c = c :: l.addedIds :=
  if_pos h

theorem block_of_ne (h : l.marker ≠ some c) : l.block c =
    match l.placed.lookup c with
    | some elements => elements.map Prod.fst
    | none => [c] :=
  if_neg h

theorem lookup_eq_none (h : c ∉ l.anchors) : l.placed.lookup c = none := by
  rw [List.lookup_eq_none_iff]
  intro e he
  rw [bne_iff_ne]
  rintro rfl
  exact h (List.mem_map_of_mem he)

theorem mem_of_lookup {elements : List (NodeId × Template)} (h : l.placed.lookup c = some elements) :
    (c, elements) ∈ l.placed := by
  obtain ⟨before, after, e, -⟩ := List.lookup_eq_some_iff.mp h
  simp [e]

theorem block_other (hm : l.marker ≠ some c) (hc : c ∉ l.anchors) : l.block c = [c] := by
  rw [block_of_ne hm, lookup_eq_none hc]

theorem self_mem_block (hc : c ∉ l.anchors) : c ∈ l.block c := by
  by_cases hm : l.marker = some c
  · rw [block_marker hm]
    exact List.mem_cons_self
  · rw [block_other hm hc]
    exact List.mem_singleton_self c

theorem mem_children (hc : c ∉ l.anchors) (hb : c ∈ l.base q) : c ∈ l.children q :=
  List.mem_append_left _ (List.mem_flatMap.mpr ⟨c, hb, self_mem_block hc⟩)

theorem mem_block_of_ne (hm : l.marker ≠ some c) (hx : x ∈ l.block c) : x = c ∨ x ∈ l.placedIds := by
  rw [block_of_ne hm] at hx
  split at hx
  next elements he =>
    obtain ⟨e, hm, rfl⟩ := List.mem_map.mp hx
    exact .inr (List.mem_map_of_mem (List.mem_flatMap.mpr ⟨_, mem_of_lookup he, hm⟩))
  next => exact .inl (List.mem_singleton.mp hx)

theorem mem_block (hx : x ∈ l.block c) : x = c ∨ x ∈ l.addedIds ∨ x ∈ l.placedIds := by
  by_cases hm : l.marker = some c
  · rw [block_marker hm] at hx
    exact (List.mem_cons.mp hx).imp_right .inl
  · exact (mem_block_of_ne hm hx).imp_right .inr

theorem mem_tail (hx : x ∈ l.tail c) : x ∈ l.addedIds := by
  rw [tail] at hx
  split at hx
  next => exact hx
  next => cases hx

/-- A node that is not new stands in no other node's place. -/
theorem not_mem_block (hp : x ∉ l.addedIds ++ l.placedIds) (hc : c ≠ x) :
    x ∉ l.block c := by
  intro h
  rcases mem_block h with rfl | h
  · exact hc rfl
  · exact hp (List.mem_append.mpr h)

theorem anchor_not_mem_block (hm : l.marker ≠ some x) (ha : x ∈ l.anchors) (hx : x ∉ l.placedIds) :
    x ∉ l.block x := by
  rw [block_of_ne hm]
  split
  next elements he =>
    intro hxe
    obtain ⟨e, hme, rfl⟩ := List.mem_map.mp hxe
    exact hx (List.mem_map_of_mem (List.mem_flatMap.mpr ⟨_, mem_of_lookup he, hme⟩))
  next he =>
    obtain ⟨e, hmem, rfl⟩ := List.mem_map.mp ha
    exact absurd (List.lookup_eq_none_iff.mp he e hmem) (by simp)

/-- What a node takes with it when it leaves a list is itself. -/
theorem erase_children {q : NodeId} (hm : l.marker ≠ some x) (ha : x ∉ l.anchors)
    (hn : x ∉ l.addedIds ++ l.placedIds) :
    (l.children q).erase x = ((l.base q).erase x).flatMap l.block ++ l.tail q := by
  have ht : x ∉ l.tail q := fun h => hn (List.mem_append_left _ (mem_tail h))
  rw [children, erase_append_of_not_mem ht,
    erase_flatMap (block_other hm ha) fun c _ hc => not_mem_block hn hc]

theorem tail_of_ne {q : NodeId} (h : q ≠ l.head) : l.tail q = [] :=
  if_neg fun hq => h hq.1

theorem addedIds_add (l : Layout) (n : NodeId) (template : Template) :
    (l.add n template).addedIds = l.addedIds ++ [n] := by
  simp [add, addedIds]

theorem children_add_of_none {q : NodeId} (hr : l.last = none) (template : Template)
    (hn : n ∉ l.children q) :
    (if q = l.head then (l.children l.head).erase n ++ [n] else (l.children q).erase n) =
      (l.add n template).children q := by
  obtain ⟨ha, hm⟩ := Option.or_eq_none_iff.mp hr
  have hb : (l.add n template).block = l.block := by
    funext c
    have hm' : l.marker ≠ some c := by simp [hm]
    rw [block_of_ne hm']
    exact block_of_ne (l := l.add n template) hm'
  have hc : (l.add n template).children q = (l.base q).flatMap l.block ++ (l.add n template).tail q := by
    rw [← hb]
    rfl
  rw [hc]
  split
  next e =>
    have ht : (l.add n template).tail q = (l.add n template).addedIds := if_pos ⟨e, hm⟩
    rw [ht, addedIds_add, ← e, List.erase_of_not_mem (hn), children,
      tail, if_pos ⟨e, hm⟩, List.append_assoc]
  next e =>
    have ht : (l.add n template).tail q = [] := if_neg fun hq => e hq.1
    rw [ht, List.erase_of_not_mem (hn), children, tail, if_neg fun hq => e hq.1]

end Layout

/-- A tree whose new elements stand as a layout says. -/
structure Tree.Laid (t : Tree) (l : Layout) (t' : Tree) : Prop where
  grown : t.Grown l.children l.made t'
  head : l.head < t.size
  base : ∀ q c, c ∈ l.base q → c < t.size ∨ c ∈ l.session.map Prod.fst
  marker : ∀ m, l.marker = some m → (t.comment? m).isSome ∧ ∃ p, p < t.size ∧ m ∈ l.base p
  anchors : ∀ a, a ∈ l.anchors → (t.element? a).isSome
  filled : ∀ e, e ∈ l.placed → e.2 ≠ []

namespace Tree.Laid

variable {t t' t'' : Tree} {l : Layout} {p q c a n r x : NodeId}

theorem marker_lt (h : t.Laid l t') {m : NodeId} (hm : l.marker = some m) : m < t.size := by
  obtain ⟨content, hc⟩ := Option.isSome_iff_exists.mp (h.marker m hm).1
  exact lt_size_of_data? (data?_of_comment? hc)

theorem marker_ne (h : t.Laid l t') (ha : (t.element? a).isSome) : l.marker ≠ some a := by
  intro hm
  obtain ⟨content, hc⟩ := Option.isSome_iff_exists.mp (h.marker a hm).1
  rw [element?_of_comment? hc] at ha
  cases ha

theorem lt_of_anchor (h : t.Laid l t') (ha : a ∈ l.anchors) : a < t.size := by
  obtain ⟨e, he⟩ := Option.isSome_iff_exists.mp (h.anchors a ha)
  exact lt_size_of_element? he

theorem distinct (h : t.Laid l t') :
    (l.session.map Prod.fst ++ (l.addedIds ++ l.placedIds)).Nodup := by
  rw [← List.append_assoc, ← l.map_made]
  exact h.grown.distinct

theorem not_new_of_lt (h : t.Laid l t') (hx : x < t.size) : x ∉ l.addedIds ++ l.placedIds := by
  intro hm
  refine absurd (h.grown.le_of_made ?_) (Nat.not_le.mpr hx)
  rw [l.map_made, List.append_assoc]
  exact List.mem_append_right _ hm

theorem not_new_of_base (h : t.Laid l t') (hx : x ∈ l.base q) : x ∉ l.addedIds ++ l.placedIds := by
  rcases h.base q x hx with hx | hx
  · exact h.not_new_of_lt hx
  · exact fun hm => (List.nodup_append.mp h.distinct).2.2 x hx x hm rfl

theorem distinct_added (h : t.Laid l t') : l.addedIds.Nodup :=
  (List.nodup_append.mp (List.nodup_append.mp h.distinct).2.1).1

/-- The node behind which elements are added stands in the marker's block or at the end. -/
theorem last_not_mem_block (h : t.Laid l t') (hr : l.last = some r) (hc : c ∈ l.base q)
    (hm : l.marker ≠ some c) : r ∉ l.block c := by
  intro hb
  have hrc : r = c ∨ r ∈ l.placedIds := Layout.mem_block_of_ne hm hb
  rcases Option.or_eq_some_iff.mp hr with hr | ⟨-, hr⟩
  · have ha := List.mem_of_getLast? hr
    rcases hrc with rfl | hp
    · exact h.not_new_of_base hc (List.mem_append_left _ ha)
    · exact (List.nodup_append.mp (List.nodup_append.mp h.distinct).2.1).2.2 r ha r hp rfl
  · rcases hrc with rfl | hp
    · exact hm hr
    · exact h.not_new_of_lt (h.marker_lt hr) (List.mem_append_right _ hp)

theorem splice_last_block (h : t.Laid l t') (hr : l.last = some r) (hc : c ∈ l.base q)
    (template : Template) : splice r [r, n] (l.block c) = (l.add n template).block c := by
  by_cases hm : l.marker = some c
  · have hd : (c :: l.addedIds).Nodup := by
      refine List.nodup_cons.mpr ⟨fun hc => ?_, h.distinct_added⟩
      exact h.not_new_of_lt (h.marker_lt hm) (List.mem_append_left _ hc)
    have hl : (c :: l.addedIds).getLast? = some r := by
      rw [List.getLast?_cons, ← hr, Layout.last, hm]
      cases l.addedIds.getLast? <;> rfl
    have hm' : (l.add n template).marker = some c := hm
    rw [Layout.block_marker hm, Layout.block_marker hm', splice_last hd hl, Layout.addedIds_add]
    rfl
  · rw [splice_of_not_mem (h.last_not_mem_block hr hc hm), Layout.block_of_ne hm]
    exact (Layout.block_of_ne (l := l.add n template) hm).symm

theorem splice_last_tail (h : t.Laid l t') (hr : l.last = some r) (q : NodeId) (template : Template) :
    splice r [r, n] (l.tail q) = (l.add n template).tail q := by
  by_cases hq : q = l.head ∧ l.marker = none
  · have ht : (l.add n template).tail q = (l.add n template).addedIds := if_pos hq
    rw [ht, Layout.addedIds_add, Layout.tail, if_pos hq]
    refine splice_last h.distinct_added ?_
    rw [← hr, Layout.last, hq.2, Option.or_none]
  · have ht : (l.add n template).tail q = [] := if_neg hq
    rw [ht, Layout.tail, if_neg hq]
    rfl

theorem children_add (h : t.Laid l t') (hr : l.last = some r) (q : NodeId) (template : Template) :
    splice r [r, n] (l.children q) = (l.add n template).children q := by
  rw [Layout.children, splice_append, splice_flatMap fun c hc => h.splice_last_block hr hc template,
    h.splice_last_tail hr]
  rfl

theorem last_mem (h : t.Laid l t') (hr : l.last = some r) : ∃ p, p < t.size ∧ r ∈ l.children p := by
  rcases hm : l.marker with _ | m
  · refine ⟨l.head, h.head, List.mem_append_right _ ?_⟩
    rw [Layout.tail, if_pos ⟨rfl, hm⟩]
    rw [Layout.last, hm, Option.or_none] at hr
    exact List.mem_of_getLast? hr
  · obtain ⟨-, p, hp, hb⟩ := h.marker m hm
    refine ⟨p, hp, List.mem_append_left _ (List.mem_flatMap.mpr ⟨m, hb, ?_⟩)⟩
    rw [Layout.block_marker hm]
    rcases Option.or_eq_some_iff.mp hr with hr | ⟨-, hr⟩
    · exact List.mem_cons_of_mem m (List.mem_of_getLast? hr)
    · cases hm.symm.trans hr
      exact List.mem_cons_self

theorem children_place (h : t.Laid l t') (ha : a < t.size) (hm : l.marker ≠ some a)
    (hp : a ∉ l.anchors) (elements : List (NodeId × Template)) (q : NodeId) :
    splice a (elements.map Prod.fst) (l.children q) = (l.place a elements).children q := by
  have hn := h.not_new_of_lt ha
  have ht : a ∉ l.tail q := fun hx => hn (List.mem_append_left _ (Layout.mem_tail hx))
  rw [Layout.children, splice_append, splice_of_not_mem ht]
  refine congrArg (· ++ l.tail q) (splice_flatMap fun c _ => ?_)
  have hk : (l.place a elements).placed.lookup c =
      (l.placed.lookup c).or (if c = a then some elements else none) := by
    rw [Layout.place, List.lookup_append]
    by_cases hc : c = a
    · simp [hc]
    · have hb : (c == a) = false := beq_eq_false_iff_ne.mpr hc
      simp [List.lookup_cons, hb, hc]
  by_cases hc : c = a
  · have hm' : (l.place a elements).marker ≠ some a := hm
    rw [if_pos hc, hc, Layout.lookup_eq_none hp] at hk
    rw [hc, Layout.block_other hm hp, Layout.block_of_ne hm', hk]
    simp [splice]
  · rw [splice_of_not_mem (Layout.not_mem_block hn hc)]
    rw [if_neg hc, Option.or_none] at hk
    rw [Layout.block, Layout.block, hk]
    rfl

theorem place (h : t.Laid l t') (ha : (t.element? a).isSome) (hp : a ∉ l.anchors)
    {elements : List (NodeId × Template)} (he : elements ≠ [])
    (hg : t.Grown (fun q => splice a (elements.map Prod.fst) (l.children q)) (l.made ++ elements) t'') :
    t.Laid (l.place a elements) t'' where
  grown := by
    have hk := h.children_place (lt_size_of_data? (data?_of_element? (Option.eq_some_of_isSome ha)))
      (h.marker_ne ha) hp elements
    rw [Layout.made_place, ← funext hk]
    exact hg
  head := h.head
  base := h.base
  marker := h.marker
  anchors b hb := by
    rw [Layout.anchors, Layout.place, List.map_append, List.mem_append] at hb
    rcases hb with hb | hb
    · exact h.anchors b hb
    · cases List.mem_singleton.mp hb
      exact ha
  filled e hm := by
    rcases List.mem_append.mp hm with hm | hm
    · exact h.filled e hm
    · cases List.mem_singleton.mp hm
      exact he

theorem seat (h : t.Laid l t') {body : NodeId} {new : List (NodeId × Template)}
    {put : List NodeId → List NodeId} (hb : body ≠ l.head)
    (hx : x < t.size ∨ x ∈ new.map Prod.fst) (hm : l.marker ≠ some x) (ha : x ∉ l.anchors)
    (hn : x ∉ l.addedIds ++ l.placedIds) (hp : ∀ k c, c ∈ put k ↔ c = x ∨ c ∈ k)
    (hf : ∀ k, (put k).flatMap l.block = put (k.flatMap l.block))
    (hg : t.Grown
      (fun q => if q = body then put ((l.children body).erase x) else (l.children q).erase x)
      (l.made ++ new) t'') : t.Laid (l.seat body x new put) t'' where
  grown := by
    refine (hg.perm (l.perm_made_seat body x new put)).congr fun q _ => ?_
    have hk := fun q => Layout.erase_children (q := q) hm ha hn
    have he : (l.seat body x new put).children q =
      (if q = body then put ((l.base body).erase x) else (l.base q).erase x).flatMap l.block ++
        l.tail q := rfl
    rw [he]
    split
    next e => rw [hk, hf, e, Layout.tail_of_ne hb, List.append_nil, List.append_nil]
    next => rw [hk]
  head := h.head
  base q c hc := by
    have hs : c = x ∨ ∃ q, c ∈ l.base q := by
      simp only [Layout.seat] at hc
      split at hc
      next =>
        rcases (hp _ c).mp hc with rfl | hc
        · exact .inl rfl
        · exact .inr ⟨_, List.mem_of_mem_erase hc⟩
      next => exact .inr ⟨_, List.mem_of_mem_erase hc⟩
    rw [Layout.seat, List.map_append, List.mem_append]
    rcases hs with rfl | ⟨q, hc⟩
    · exact hx.imp_right .inr
    · exact (h.base q c hc).imp_right .inl
  marker m hm' := by
    obtain ⟨hc, p, hpt, hmp⟩ := h.marker m hm'
    have hne : m ≠ x := fun e => hm (e ▸ hm')
    refine ⟨hc, p, hpt, ?_⟩
    simp only [Layout.seat]
    split
    next e => exact (hp _ m).mpr (.inr ((List.mem_erase_of_ne hne).mpr (e ▸ hmp)))
    next => exact (List.mem_erase_of_ne hne).mpr hmp
  anchors := h.anchors
  filled := h.filled

/-- One more element behind the last one, or at the end of the head. -/
theorem add (h : t.Laid l t') {template : Template} (ht : (template.attributes.map Prod.fst).Nodup) :
    t.Laid (l.add t'.size template) (match l.last with
      | some r => (t'.instantiate template).1.insertAfter r t'.size
      | none => (t'.instantiate template).1.appendChild l.head t'.size) := by
  have hg := h.grown.instantiate ht
  have hn : t'.size ∈ (l.made ++ [(t'.size, template)]).map Prod.fst := by simp
  have hk (q) (hq : q < t.size) : t'.size ∉ l.children q := fun hm =>
    Nat.lt_irrefl _ (h.grown.lt_size_of_mem hq hm)
  have hp := l.perm_made_add t'.size template
  refine { h with grown := ?_ }
  cases hr : l.last with
  | some r =>
    obtain ⟨p, hpt, hrp⟩ := h.last_mem hr
    refine ((hg.insertAfter hpt hrp hn hk).perm hp).congr fun q _ => ?_
    exact h.children_add hr q template
  | none =>
    have hne : l.head ≠ t'.size := Nat.ne_of_lt (Nat.lt_of_lt_of_le h.head h.grown.size_le)
    refine ((hg.appendChild h.head (.inr hn) hne (hg.not_below_old hn h.head)).perm hp).congr
      fun q hq => ?_
    exact Layout.children_add_of_none hr template (hk q hq)

theorem text?_old (h : t.Laid l t') (hc : c < t.size) : t'.text? c = t.text? c :=
  text?_congr (h.grown.data c hc)

theorem mem_made_of_placed (e : NodeId × List (NodeId × Template)) (he : e ∈ l.placed)
    {x : NodeId × Template} (hx : x ∈ e.2) : x ∈ l.made :=
  List.mem_append_right _ (List.mem_flatMap.mpr ⟨e, he, hx⟩)

theorem block_text (h : t.Laid l t') (hc : (t.text? c).isSome) : l.block c = [c] := by
  refine Layout.block_other (fun hm => ?_) fun ha => ?_
  · obtain ⟨content, hc'⟩ := Option.isSome_iff_exists.mp (h.marker c hm).1
    rw [text?_of_comment? hc'] at hc
    cases hc
  · obtain ⟨e, he⟩ := Option.isSome_iff_exists.mp (h.anchors c ha)
    rw [text?_of_element? he] at hc
    cases hc

theorem exists_mem_block (h : t.Laid l t') (hc : c < t.size) (ht : t.text? c = none) :
    ∃ x ∈ l.block c, t'.text? x = none := by
  by_cases hm : l.marker = some c
  · exact ⟨c, by simp [Layout.block_marker hm], (h.text?_old hc).trans ht⟩
  rw [Layout.block_of_ne hm]
  split
  next elements he =>
    have hp := Layout.mem_of_lookup he
    obtain ⟨x, hx⟩ := List.exists_mem_of_ne_nil _ (h.filled _ hp)
    obtain ⟨e, he⟩ := h.grown.element_of_made
      (List.mem_map_of_mem (mem_made_of_placed _ hp hx))
    exact ⟨x.1, List.mem_map_of_mem hx, text?_of_element? he⟩
  next => exact ⟨c, List.mem_singleton_self c, (h.text?_old hc).trans ht⟩

/-- An old node matches what it has matched before, whatever has moved below it. -/
theorem matches_old (h : t.Laid l t') (hw : t.WellFormed) (hc : c < t.size) (hh : c ≠ l.head)
    (hb : l.base c = t.children c) (template : Template) :
    t'.matchesTemplate c template = t.matchesTemplate c template := by
  have hk : t'.children c = (t.children c).flatMap l.block := by
    rw [h.grown.children c hc, Layout.children, Layout.tail_of_ne hh, List.append_nil, hb]
  by_cases ht : ∀ d ∈ t.children c, (t.text? d).isSome
  · have hs : t'.children c = t.children c := by
      rw [hk, List.flatMap_congr fun d hd => h.block_text (ht d hd), List.flatMap_singleton']
    exact matchesTemplate_congr (h.grown.data c hc) hs
      (fun d hd => h.grown.data d (hw.consistent.lt_size hd)) template
  · push Not at ht
    obtain ⟨d, hd, ht⟩ := ht
    obtain ⟨x, hx, hn⟩ := h.exists_mem_block (hw.consistent.lt_size hd) (by simpa using ht)
    have hx' : x ∈ t'.children c := hk ▸ List.mem_flatMap.mpr ⟨d, hd, hx⟩
    have hf : ¬ t'.matchesTemplate c template := fun hm => by
      simpa [hn] using text?_of_matches hm hx'
    have hf' : ¬ t.matchesTemplate c template := fun hm => ht (text?_of_matches hm hd)
    rw [Bool.eq_false_iff.mpr hf, Bool.eq_false_iff.mpr hf']

end Tree.Laid

end LivePages
