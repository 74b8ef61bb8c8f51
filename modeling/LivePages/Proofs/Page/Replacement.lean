import LivePages.Page.Compiled
import LivePages.Proofs.Page.Layout

namespace LivePages

theorem splice_splice {a n : NodeId} {block l : List NodeId} (hn : n ∉ l) :
    splice n block (splice a [n] l) = splice a block l := by
  refine splice_flatMap fun c hc => ?_
  split
  next => simp [splice]
  next => exact splice_of_not_mem fun hm => hn (List.mem_singleton.mp hm ▸ hc)

namespace WidgetDescriptor

/-- What takes the place of a widget's markup, in this order. -/
def templates (w : WidgetDescriptor) : List Template :=
  w.container?.toList ++ [w.instantiation.template]

theorem distinct_instantiation (w : WidgetDescriptor) :
    (w.instantiation.template.attributes.map Prod.fst).Nodup :=
  .nil

theorem distinct_container {w : WidgetDescriptor} {template : Template}
    (h : w.container? = some template) : (template.attributes.map Prod.fst).Nodup := by
  rw [container?] at h
  split at h
  next => cases h
  next =>
    cases Option.some.inj h
    simp [Template.withAttribute, Template.ofTag]

end WidgetDescriptor

namespace Tree

theorem replaceMarkup_of_some {t : Tree} {w : WidgetDescriptor} {template : Template}
    (h : w.container? = some template) : t.replaceMarkup w =
      (((t.instantiate w.instantiation.template).1.instantiate template).1.replace (t.anchor w.node)
        (t.instantiate w.instantiation.template).1.size).insertAfter
        (t.instantiate w.instantiation.template).1.size t.size := by
  simp only [replaceMarkup, h, instantiate_id]

theorem replaceMarkup_of_none {t : Tree} {w : WidgetDescriptor} (h : w.container? = none) :
    t.replaceMarkup w = ((t.instantiate w.instantiation.template).1.insertAfter (t.anchor w.node)
      t.size).detach (t.anchor w.node) := by
  simp only [replaceMarkup, h, instantiate_id]

end Tree

namespace Tree.Laid

variable {t t' : Tree} {l : Layout} {p a : NodeId}

/-- The new elements of a widget stand where its anchor stood. -/
theorem replaceMarkup (h : t.Laid l t') {w : WidgetDescriptor} (ha : t'.anchor w.node = a)
    (he : (t.element? a).isSome) (hn : a ∉ l.anchors) (hp : p < t.size) (hb : a ∈ l.base p) :
    ∃ elements, elements.map Prod.snd = w.templates ∧
      t.Laid (l.place a elements) (t'.replaceMarkup w) := by
  have hr := Layout.mem_children hn hb
  have hlt : a < t.size := lt_size_of_data? (data?_of_element? (Option.eq_some_of_isSome he))
  have hg := h.grown.instantiate w.distinct_instantiation
  have unplaced (n) (hs : t'.size ≤ n) (q) (hq : q < t.size) : n ∉ l.children q := fun hm =>
    absurd (h.grown.lt_size_of_mem hq hm) (Nat.not_lt.mpr hs)
  have hk := unplaced t'.size (Nat.le_refl _)
  cases hc : w.container? with
  | none =>
    refine ⟨[(t'.size, w.instantiation.template)], by simp [WidgetDescriptor.templates, hc], ?_⟩
    rw [replaceMarkup_of_none hc, ha]
    have hi := (hg.insertAfter hp hr (by simp) hk).detach hlt
    refine h.place he hn (List.cons_ne_nil _ _) (hi.congr fun q hq => ?_)
    have hd : (l.children q).Nodup := h.grown.children q hq ▸ h.grown.wellFormed.consistent.distinct q
    rw [erase_splice hd List.mem_cons_self, List.erase_cons_head]
    rfl
  | some template =>
    have hs := size_instantiate t' w.instantiation.template
    have hi := hg.instantiate (WidgetDescriptor.distinct_container hc)
    rw [replaceMarkup_of_some hc, ha]
    generalize (t'.instantiate w.instantiation.template).1.size = container at hs hi ⊢
    have hle : t'.size ≤ container := by omega
    have hne : t'.size ≠ container := by omega
    refine ⟨[(container, template), (t'.size, w.instantiation.template)],
      by simp [WidgetDescriptor.templates, hc], ?_⟩
    have hi := hi.replace hp hr (n := container) (by simp) (unplaced container hle)
    have hm : container ∈ splice a [container] (l.children p) :=
      mem_splice.mpr (.inr ⟨hr, List.mem_singleton_self _⟩)
    have hk' (q) (hq : q < t.size) : t'.size ∉ splice a [container] (l.children q) := fun hm =>
      (mem_splice.mp hm).elim (fun hm => hk q hq hm.1) fun hm => hne (List.mem_singleton.mp hm.2)
    have hi := hi.insertAfter hp hm (by simp) hk'
    refine h.place he hn (List.cons_ne_nil _ _) ?_
    rw [List.append_assoc] at hi
    exact (hi.perm (.append_left _ (.swap _ _ _))).congr fun q hq =>
      splice_splice (unplaced container hle q hq)

end Tree.Laid

end LivePages
