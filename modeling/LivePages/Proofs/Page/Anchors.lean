import LivePages.Page.Compiled
import LivePages.Proofs.Page.Layout

namespace LivePages

namespace Tree

variable {t t' : Tree} {l : Layout} {a b c p w : NodeId}

/-- An element whose tag is one of those that authors write for widgets. -/
def IsWidget (t : Tree) (id : NodeId) : Prop :=
  ∃ tag ∈ WidgetKind.tags, t.tag? id = some tag

instance (t : Tree) (id : NodeId) : Decidable (t.IsWidget id) :=
  inferInstanceAs (Decidable (∃ tag ∈ WidgetKind.tags, t.tag? id = some tag))

theorem elementsNamed_tags (t : Tree) (top : NodeId) :
    t.elementsNamed top WidgetKind.tags = (t.descendants top).filter fun id => t.IsWidget id := by
  refine List.filter_congr fun id _ => ?_
  rw [Bool.eq_iff_iff, decide_eq_true_iff, IsWidget]
  cases t.tag? id with
  | none => simp
  | some tag => simp

theorem tag?_of_named {tag : String} (h : t.isElementNamed p tag) : t.tag? p = some tag :=
  beq_iff_eq.mp h

theorem element?_of_tag? {tag : String} (h : t.tag? p = some tag) : ∃ e, t.element? p = some e ∧ e.tag = tag :=
  Option.map_eq_some_iff.mp h

theorem not_isWidget_of_tag {tag : String} (h : t.tag? p = some tag) (ht : tag ∉ WidgetKind.tags) :
    ¬ t.IsWidget p := by
  rintro ⟨tag', hm, h'⟩
  cases Option.some.inj (h.symm.trans h')
  exact ht hm

theorem not_isWidget_paragraph (h : t.isElementNamed p "p") : ¬ t.IsWidget p :=
  not_isWidget_of_tag (tag?_of_named h) (by decide)

theorem IsWidget.text? (h : t.IsWidget w) : t.text? w = none := by
  obtain ⟨tag, -, ht⟩ := h
  obtain ⟨e, he, -⟩ := element?_of_tag? ht
  exact text?_of_element? he

/-- The anchor of a node is the node, or the paragraph around it if it is alone there. -/
theorem anchor_cases (t : Tree) (w : NodeId) : t.anchor w = w ∨
    t.parent? w = some (t.anchor w) ∧ t.isElementNamed (t.anchor w) "p" ∧
      t.isSoleContent (t.anchor w) w := by
  cases hp : t.parent? w with
  | none => exact .inl (by rw [anchor, hp])
  | some p =>
    have hs : t.anchor w = if t.isElementNamed p "p" && t.isSoleContent p w then p else w := by
      rw [anchor, hp]
    split at hs
    next h =>
      rw [hs]
      exact .inr ⟨rfl, Bool.and_eq_true_iff.mp h⟩
    next => exact .inl hs

/-- Whether a child does not count beside a node: it is the node itself or a blank text. -/
def isBlankBeside (t : Tree) (id c : NodeId) : Bool :=
  c == id || ((t.text? c).map fun text => text.toList.all isBlank).getD false

theorem isSoleContent_eq (t : Tree) (p w : NodeId) :
    t.isSoleContent p w = (t.children p).all (t.isBlankBeside w) := by
  refine congrArg _ (funext fun c => ?_)
  rw [isBlankBeside]
  cases t.text? c <;> rfl

theorem text?_of_isSoleContent (h : t.isSoleContent p w) (hc : c ∈ t.children p) (hne : c ≠ w) :
    (t.text? c).isSome := by
  rw [isSoleContent_eq] at h
  have hs := List.all_eq_true.mp h c hc
  rw [isBlankBeside, beq_eq_false_iff_ne.mpr hne, Bool.false_or] at hs
  cases ht : t.text? c with
  | none => rw [ht] at hs; cases hs
  | some text => rfl

theorem anchor_tag (hw : t.IsWidget w) : ∃ tag ∈ "p" :: WidgetKind.tags, t.tag? (t.anchor w) = some tag := by
  rcases t.anchor_cases w with h | ⟨-, h, -⟩
  · obtain ⟨tag, hm, ht⟩ := hw
    exact ⟨tag, List.mem_cons_of_mem _ hm, h.symm ▸ ht⟩
  · exact ⟨"p", List.mem_cons_self, tag?_of_named h⟩

theorem anchor_element (hw : t.IsWidget w) : (t.element? (t.anchor w)).isSome := by
  obtain ⟨tag, -, ht⟩ := anchor_tag hw
  obtain ⟨e, he, -⟩ := element?_of_tag? ht
  exact he ▸ rfl

theorem WellFormed.anchor_injective (h : t.WellFormed) (ha : t.IsWidget a) (hb : t.IsWidget b)
    (e : t.anchor a = t.anchor b) : a = b := by
  rcases t.anchor_cases a with hea | ⟨hpa, hna, hsa⟩ <;> rcases t.anchor_cases b with heb | ⟨hpb, hnb, hsb⟩
  · exact hea.symm.trans (e.trans heb)
  · exact absurd ha (not_isWidget_paragraph ((e ▸ hea) ▸ hnb))
  · exact absurd hb (not_isWidget_paragraph ((e ▸ heb) ▸ hna))
  · by_contra hne
    have hc : b ∈ t.children (t.anchor a) := h.consistent.mem_of_parent (e ▸ hpb)
    have ht := text?_of_isSoleContent hsa hc (Ne.symm hne)
    rw [hb.text?] at ht
    cases ht

theorem WellFormed.below_anchor (h : t.WellFormed) (hr : t.data? root = some .document)
    (hb : t.Below root w) : t.Below root (t.anchor w) := by
  rcases t.anchor_cases w with ha | ⟨hp, hn, -⟩
  · exact ha.symm ▸ hb
  · refine (h.below_child hb (h.consistent.mem_of_parent hp)).resolve_left fun e => ?_
    obtain ⟨e', he, -⟩ := element?_of_tag? (tag?_of_named hn)
    rw [← e, element?, hr] at he
    cases he

/-- Blank texts stay as they are; whatever else is beside a node gives way to something else. -/
theorem Laid.all_block_eq (h : t.Laid l t') (hw : w < t.size) (hc : c < t.size)
    (he : (t.element? w).isSome) (hn : w ∉ l.anchors) :
    (l.block c).all (t'.isBlankBeside w) = t.isBlankBeside w c := by
  by_cases hcw : c = w
  · rw [hcw, Layout.block_other (h.marker_ne he) hn]
    simp [isBlankBeside]
  cases ht : t.text? c with
  | some text =>
    rw [h.block_text (ht ▸ rfl), List.all_cons, List.all_nil, Bool.and_true, isBlankBeside,
      h.text?_old hc, isBlankBeside]
  | none =>
    obtain ⟨x, hx, hxt⟩ := h.exists_mem_block hc ht
    have hxw : x ≠ w := fun e => Layout.not_mem_block (h.not_new_of_lt hw) hcw (e ▸ hx)
    have hb : t.isBlankBeside w c = false := by simp [isBlankBeside, hcw, ht]
    rw [hb]
    refine List.all_eq_false.mpr ⟨x, hx, ?_⟩
    simp [isBlankBeside, hxw, hxt]

/-- What is placed elsewhere does not change what gives way to a widget. -/
theorem Laid.anchor_eq (h : t.Laid l t') (hw : t.WellFormed) (hi : t.IsWidget w)
    (hc : w ∈ t.children p) (hb : w ∈ l.base p) (hn : w ∉ l.anchors)
    (hp : t.isElementNamed p "p" → p ≠ l.head ∧ l.base p = t.children p) :
    t'.anchor w = t.anchor w := by
  have hlt := hw.consistent.lt_size hc
  have hpt := hw.consistent.parent_lt_size hc
  have he : (t.element? w).isSome := by
    obtain ⟨tag, -, ht⟩ := hi
    obtain ⟨e, he, -⟩ := element?_of_tag? ht
    exact he ▸ rfl
  have hm : w ∈ t'.children p := h.grown.children p hpt ▸ Layout.mem_children hn hb
  have hnamed : t'.isElementNamed p "p" = t.isElementNamed p "p" := by
    rw [isElementNamed, isElementNamed, tag?_congr (h.grown.data p hpt)]
  rw [anchor, anchor, h.grown.wellFormed.consistent.parent_of_mem hm, hw.consistent.parent_of_mem hc]
  dsimp only
  rw [hnamed]
  cases hq : t.isElementNamed p "p" with
  | false => rfl
  | true =>
    obtain ⟨hh, hk⟩ := hp hq
    have hs : t'.isSoleContent p w = t.isSoleContent p w := by
      rw [isSoleContent_eq, isSoleContent_eq, h.grown.children p hpt, Layout.children,
        Layout.tail_of_ne hh, List.append_nil, hk, List.all_flatMap, Bool.eq_iff_iff,
        List.all_eq_true, List.all_eq_true]
      refine forall₂_congr fun c hc => ?_
      rw [h.all_block_eq hlt (hw.consistent.lt_size hc) he hn]
    rw [hs]

end Tree

end LivePages
