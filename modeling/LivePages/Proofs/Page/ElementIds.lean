import LivePages.Proofs.Page.ScriptOrder
import LivePages.Proofs.Widget.Names

namespace LivePages

theorem Template.IsHead.not_mem_id {a : Template} (h : a.IsHead) : "id" ∉ a.attributes.map Prod.fst := by
  cases h <;> simp [roomNameScript, inlineScript, scriptSource, stylesheet, ofTag, withText, withAttribute]

theorem Template.IsSession.not_mem_id {a : Template} (h : a.IsSession) :
    "id" ∉ a.attributes.map Prod.fst := by
  cases h <;> simp [connectionScript, readyScript, inlineScript, ofTag, withText]

theorem Instantiation.attributes_template (i : Instantiation) : i.template.attributes = [] :=
  rfl

theorem WidgetDescriptor.container?_eq_some {w : WidgetDescriptor} {a : Template}
    (h : w.container? = some a) : w.content.isHidden = false ∧
      a.attributes = [("id", w.elementId), ("class", containerClass)] := by
  rw [container?] at h
  split at h
  next => cases h
  next hn =>
    cases Option.some.inj h
    exact ⟨by simpa using hn, rfl⟩

namespace Tree

variable {t : Tree} {n : NodeId} {a : Template} {name value : String}

theorem mem_of_attribute? (hm : t.matchesTemplate n a) (h : t.attribute? n name = some value) :
    (name, value) ∈ a.attributes := by
  obtain ⟨e, he, -, hp, -⟩ := matchesTemplate_iff.mp hm
  rw [attribute?, he, Option.bind_some, Element.attribute?] at h
  obtain ⟨before, after, hk, -⟩ := List.lookup_eq_some_iff.mp h
  exact hp.mem_iff.mp (by simp [hk])

/-- The value of an attribute that a template sets once. -/
theorem attribute?_of_matches (hm : t.matchesTemplate n a)
    (h : ∀ v, (name, v) ∈ a.attributes ↔ v = value) : t.attribute? n name = some value := by
  obtain ⟨e, he, -, hp, -⟩ := matchesTemplate_iff.mp hm
  have hmem := hp.mem_iff.mpr ((h value).mpr rfl)
  cases hv : t.attribute? n name with
  | none =>
    rw [attribute?, he, Option.bind_some, Element.attribute?, List.lookup_eq_none_iff] at hv
    exact absurd (hv _ hmem) (by simp)
  | some v => rw [(h v).mp (mem_of_attribute? hm hv)]

end Tree

/-- A script and the widget that it makes share the channel. -/
theorem Instantiation.channel_of_agrees {i j : Instantiation} (hi : ∀ c ∈ i.channel.toList, isNameChar c)
    (hj : ∀ c ∈ j.channel.toList, isNameChar c) (h : i.template.Agrees j.template) :
    i.channel = j.channel := by
  have not {k : Instantiation} (hk : ∀ c ∈ k.channel.toList, isNameChar c) :
      '"' ∉ k.channel.toList :=
    fun hm => absurd (hk _ hm) (by decide)
  exact channel_of_write (not hi) (not hj) h.text

namespace Document

variable {d : Document} {url : PageUrl} {s : Settings} {page : CompiledPage}
  {html connection ready m n : NodeId} {l : Layout} {w : WidgetDescriptor} {a : Template}
  {e e' : NodeId × List (NodeId × Template)} {v : String}

theorem isNameChar_of_compile (h : d.compile url s = .ok page) (hw : w ∈ page.widgets) :
    ∀ c ∈ w.name.toList, isNameChar c := by
  obtain ⟨-, hm, -⟩ := of_compile h (List.ne_nil_of_mem hw)
  obtain ⟨m, -, hd⟩ := exists_of_forall₂ hm hw
  obtain ⟨defining, hn⟩ := (WidgetMarkup.describes_descriptor hd).named
  exact fun c => WidgetMarkup.isNameChar_assignName hn

theorem eq_of_container (ht : e.2.map Prod.snd = w.templates) (ha : w.container? = some a)
    (hm : (m, a) ∈ e.2) (hn : (n, a) ∈ e.2) : m = n := by
  have hk : e.2.map Prod.snd = [a, w.instantiation.template] := by
    rw [ht, WidgetDescriptor.templates, ha]
    rfl
  obtain ⟨x, rest, hx, rfl, hr⟩ := List.map_eq_cons_iff.mp hk
  obtain ⟨y, rfl, hy⟩ := List.map_eq_singleton_iff.mp hr
  have hne : x.2 ≠ y.2 := by
    intro e
    have htag := WidgetDescriptor.tag_container ha
    rw [e, hy, Template.tag_instantiation] at htag
    exact absurd htag (by decide)
  have first {k : NodeId} (hk : (k, x.2) ∈ e.2) : k = x.1 := by
    rw [hx, List.mem_cons, List.mem_singleton] at hk
    rcases hk with hk | hk
    · exact congrArg Prod.fst hk
    · exact absurd (congrArg Prod.snd hk) hne
  rw [first hm, first hn]

section Compiled

variable (hh : d.Holds page) (hs : d.full.Sections html l.head d.fullBody)
  (hc : d.full.Compiled d.fullBody url page.widgets l connection ready page.document.tree)
include hc

/-- A new element with an id is the container of a widget. -/
theorem container_of_id (he : d.tree.Extends d.full) (hn : d.tree.size ≤ n)
    (hv : page.document.tree.attribute? n "id" = some v) : ∃ e ∈ l.placed, ∃ w ∈ page.widgets, ∃ a,
      e.1 = d.full.anchor w.node ∧ e.2.map Prod.snd = w.templates ∧ (n, a) ∈ e.2 ∧
        w.container? = some a ∧ v = w.elementId := by
  have hg : d.full.Grown l.children l.made page.document.tree := hc.follows.laid.grown
  obtain ⟨el, hel, hl⟩ := Option.bind_eq_some_iff.mp hv
  by_cases hlt : n < d.full.size
  -- A section that the page has been given has no attributes.
  · rw [Tree.element?_congr (hg.data n hlt)] at hel
    rw [Element.attribute?, (he.bare n el hn hel).2] at hl
    cases hl
  · obtain ⟨⟨n, a⟩, hx, rfl⟩ := List.mem_map.mp (hg.complete n el (Nat.le_of_not_lt hlt) hel)
    have hid := Tree.mem_of_attribute? (hg.new n a hx).2 hv
    have hkey : "id" ∈ a.attributes.map Prod.fst := List.mem_map_of_mem hid
    rcases hc.made_cases hx with h | h | ⟨e, hep, w, hw, hx, ha, ht⟩
    · exact absurd hkey h.not_mem_id
    · exact absurd hkey h.not_mem_id
    · have hm : a ∈ w.templates := ht ▸ List.mem_map_of_mem hx
      rcases WidgetDescriptor.mem_templates.mp hm with h | rfl
      · refine ⟨e, hep, w, hw, a, ha, ht, hx, h, ?_⟩
        rw [(WidgetDescriptor.container?_eq_some h).2] at hid
        simpa using hid
      · rw [Instantiation.attributes_template] at hkey
        cases hkey

include hh hs

theorem entry_eq (he : e ∈ l.placed) (he' : e' ∈ l.placed) (h : e.1 = e'.1) : e = e' :=
  List.inj_on_of_nodup_map (hc.nodup_anchors hs.wellFormed (hh.nodup hs.wellFormed)) he he' h

variable (hd : (page.widgets.map WidgetDescriptor.name).Nodup)
include hd

/-- No two new elements share an id. -/
theorem eq_of_id (he : d.tree.Extends d.full) (hm : d.tree.size ≤ m) (hn : d.tree.size ≤ n)
    (hv : page.document.tree.attribute? m "id" = some v)
    (hv' : page.document.tree.attribute? n "id" = some v) : m = n := by
  obtain ⟨e, hep, w, hw, a, ha, ht, hme, hwa, rfl⟩ := container_of_id hc he hm hv
  obtain ⟨e', hep', w', hw', a', ha', ht', hne, hwa', hid⟩ := container_of_id hc he hn hv'
  cases List.inj_on_of_nodup_map hd hw hw' (WidgetKind.eq_of_elementId hid).2
  cases entry_eq hh hs hc hep hep' (ha.trans ha'.symm)
  cases Option.some.inj (hwa.symm.trans hwa')
  exact eq_of_container ht hwa hme hne

/-- A channel is that of one new script. -/
theorem eq_script_of_channel (h : d.compile url s = .ok page) (he : d.tree.Extends d.full)
    (hep : e ∈ l.placed) (hw : w ∈ page.widgets) (ha : e.1 = d.full.anchor w.node)
    (hm : d.tree.size ≤ m) {i : Instantiation} (hi : i.channel = w.name)
    (hmi : page.document.tree.matchesTemplate m i.template) : m = Layout.script e := by
  obtain ⟨e', hep', rfl⟩ := List.mem_map.mp (mem_scripts hc he hm hmi)
  obtain ⟨w', hw', ha', ht'⟩ := hc.follows.placed_cases hep'
  have hab := (Tree.matches_iff_agrees hmi).mp (hc.matches_script hep' ht').2
  have hic : ∀ c ∈ i.channel.toList, isNameChar c := hi ▸ isNameChar_of_compile h hw
  have hname : w.name = w'.name :=
    hi.symm.trans (Instantiation.channel_of_agrees hic (isNameChar_of_compile h hw') hab)
  cases List.inj_on_of_nodup_map hd hw hw' hname
  rw [entry_eq hh hs hc hep hep' (ha.trans ha'.symm)]

omit hd in
theorem exists_container (hl : d.full.Leafy) (hw : w ∈ page.widgets)
    (hv : w.content.isHidden = false) : ∃ n, d.full.size ≤ n ∧
      page.document.tree.Below Tree.root n ∧
      page.document.tree.attribute? n "id" = some w.elementId := by
  obtain ⟨e, -, hep, -, ha, ht⟩ := exists_of_forall₂ hc.placed_forall₂ hw
  obtain ⟨a, hwa⟩ : ∃ a, w.container? = some a := by
    rw [WidgetDescriptor.container?, hv]
    exact ⟨_, rfl⟩
  have ham : a ∈ e.2.map Prod.snd := ht ▸ WidgetDescriptor.mem_templates.mpr (.inl hwa)
  obtain ⟨⟨n, a⟩, hn, rfl⟩ := List.mem_map.mp ham
  have hnew := hc.follows.laid.grown.new n a (Tree.Laid.mem_made_of_placed e hep hn)
  refine ⟨n, hnew.1, below_of_placed hh hs hc hl hep hw ha (List.mem_map_of_mem hn), ?_⟩
  refine Tree.attribute?_of_matches hnew.2 fun v => ?_
  rw [(WidgetDescriptor.container?_eq_some hwa).2]
  simp

end Compiled

end Document

end LivePages
