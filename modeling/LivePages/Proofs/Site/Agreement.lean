import LivePages.Proofs.Page.ElementIds
import LivePages.Proofs.Site.Run

namespace LivePages

/-- An element is a script that makes a widget and joins it to the room under a channel. -/
def Tree.Joins (t : Tree) (id : NodeId) (channel : String) : Prop :=
  ∃ i : Instantiation, i.channel = channel ∧ t.matchesTemplate id i.template

namespace Document

variable {d : Document} {page : CompiledPage} {room : Option Room}

/-- A page and the room of its address agree. What the compiler adds to a document has numbers
above those of the document. -/
structure Served (d : Document) (page : CompiledPage) (room : Option Room) : Prop where
  names : ((room.map fun r => r.executors.keys).getD []).Perm
    (page.widgets.map WidgetDescriptor.name)
  distinct : (page.widgets.map WidgetDescriptor.name).Nodup
  script : ∀ w ∈ page.widgets, ∃ n, d.tree.size ≤ n ∧ page.document.tree.Below Tree.root n ∧
    (∃ i : Instantiation, i.channel = w.name ∧
      i.elementId = "widget-" ++ w.kind.name ++ "-" ++ w.name ∧
      page.document.tree.matchesTemplate n i.template) ∧
    ∀ m, d.tree.size ≤ m → page.document.tree.Joins m w.name → m = n
  container : ∀ w ∈ page.widgets, w.content.isHidden = false → ∃ n, d.tree.size ≤ n ∧
    page.document.tree.Below Tree.root n ∧
    page.document.tree.attribute? n "id" = some ("widget-" ++ w.kind.name ++ "-" ++ w.name) ∧
    ∀ m, d.tree.size ≤ m → page.document.tree.attribute? m "id" =
      some ("widget-" ++ w.kind.name ++ "-" ++ w.name) → m = n
  hidden : ∀ w ∈ page.widgets, w.content.isHidden = true → ∀ n, d.tree.size ≤ n →
    page.document.tree.attribute? n "id" ≠ some ("widget-" ++ w.kind.name ++ "-" ++ w.name)
  ids : ∀ m n v, d.tree.size ≤ m → d.tree.size ≤ n →
    page.document.tree.attribute? m "id" = some v →
    page.document.tree.attribute? n "id" = some v → m = n

/-- With the names of its widgets, each of them once, the room of a page agrees with the page. -/
theorem WellFormed.served {url : PageUrl} {s : Settings} (hd : d.WellFormed) (hl : d.tree.Leafy)
    (h : d.compile url s = .ok page)
    (hp : ((room.map fun r => r.executors.keys).getD []).Perm
      (page.widgets.map WidgetDescriptor.name))
    (hn : (page.widgets.map WidgetDescriptor.name).Nodup) : d.Served page room := by
  by_cases hw : page.widgets = []
  · refine ⟨hp, hn, by simp [hw], by simp [hw], by simp [hw], fun m _ v hm _ hv => ?_⟩
    -- A page without widgets gets nothing new.
    obtain ⟨e, he, -⟩ := Option.bind_eq_some_iff.mp hv
    rw [eq_of_compile_nil h hw] at he
    exact absurd (Tree.lt_size_of_element? he) (Nat.not_lt.mpr hm)
  · obtain ⟨html, l, connection, ready, -, hs, hc⟩ := hd.compiled h hw
    obtain ⟨he, -⟩ := hd.extends_full
    have hh := hd.holds h hw
    have hl := he.leafy hd.tree hl
    have hids (m n v) := eq_of_id hh hs hc hn he (m := m) (n := n) (v := v)
    refine ⟨hp, hn, fun w hw => ?_, fun w hw hv => ?_, fun w hw hv n hm hid => ?_, hids⟩
    · obtain ⟨e, -, hep, -, ha, ht⟩ := exists_of_forall₂ hc.placed_forall₂ hw
      obtain ⟨hnew, hm⟩ := hc.matches_script hep ht
      have hx : Layout.script e ∈ e.2.map Prod.fst := by
        obtain ⟨container, hk, -⟩ := Tree.Compiled.placed_split ht
        simp [hk]
      exact ⟨Layout.script e, Nat.le_trans he.size_le hnew, below_of_placed hh hs hc hl hep hw ha hx,
        ⟨w.instantiation, rfl, rfl, hm⟩,
        fun m hm ⟨i, hi, hmi⟩ => eq_script_of_channel hh hs hc hn h he hep hw ha hm hi hmi⟩
    · obtain ⟨n, hnew, hb, hid⟩ := exists_container hh hs hc hl hw hv
      have hnew := Nat.le_trans he.size_le hnew
      exact ⟨n, hnew, hb, hid, fun m hm hid' => hids m n _ hm hnew hid' hid⟩
    · obtain ⟨e, -, w', hw', a, -, -, -, ha, hid⟩ := container_of_id hc he hm hid
      -- Its id would be that of another widget of the same name.
      cases List.inj_on_of_nodup_map hn hw hw' (WidgetKind.eq_of_elementId hid).2
      rw [(WidgetDescriptor.container?_eq_some ha).1] at hv
      cases hv

end Document

namespace SiteBuild

variable {b : SiteBuild} {before : List BuildStep} {url : String} {s : Settings} {d : Document}
  {page : CompiledPage}

/-- A page whose address is new to a build agrees with the room that it gets, whatever the build has
seen before. -/
theorem served_compileDocument (hd : d.WellFormed) (hl : d.tree.Leafy)
    (hu : ∀ x ∈ before, x.url ≠ .ofText url)
    (h : ((start s).run before).compileDocument (.ofText url) d = .ok (b, page)) :
    d.Served page (b.plan.room? (PageUrl.ofText url).text) := by
  obtain ⟨hc, hp, -⟩ := of_compileDocument h
  have hurl := Document.url_compile hc
  have hnone : ((start s).run before).plan.room? page.url.text = none := by
    rw [hurl, room?_run hu]
    exact TextMap.lookup_empty _
  obtain ⟨hnames, hn⟩ := ExecutionPlan.names_addPage hp hnone
  rw [hurl] at hnames
  exact hd.served hl hc hnames hn

theorem exists_compileDocument {b : SiteBuild} {url : PageUrl}
    (h : (b.compileDocument url d).toOption.any fun r => r.2.isInteractive) :
    ∃ b' page, b.compileDocument url d = .ok (b', page) ∧ page.widgets ≠ [] := by
  obtain ⟨⟨b', page⟩, h, hi⟩ := exists_ok h
  exact ⟨b', page, h, CompiledPage.isInteractive_iff.mp hi⟩

/-- A page with four widgets behind another page of the same widgets. -/
theorem served_labPage : ∃ b page, ((start .default).run [.tree "guide" .labPage]).compileDocument
      (.ofText "/") .labPage = .ok (b, page) ∧ page.widgets ≠ [] ∧
    Document.labPage.Served page (b.plan.room? (PageUrl.ofText "/").text) := by
  have hi : (((start .default).run [.tree "guide" .labPage]).compileDocument (.ofText "/")
      .labPage).toOption.any fun r => r.2.isInteractive := by
    decide +kernel
  obtain ⟨b, page, h, hw⟩ := exists_compileDocument hi
  have hd : Document.labPage.WellFormed := Document.wellFormed_ofNodes "/" _
  have hl : Document.labPage.tree.Leafy := hd.tree.leafy (by decide +kernel)
  exact ⟨b, page, h, hw, served_compileDocument hd hl (by decide +kernel) h⟩

/-- Where the markup of a widget goes with the markup of another, its script is in no page. -/
theorem not_served_textPage : ∃ b page, Document.textPage.WellFormed ∧
    (start .default).compileDocument (.ofText "/") .textPage = .ok (b, page) ∧
    ¬ Document.textPage.Served page (b.plan.room? (PageUrl.ofText "/").text) := by
  have hi : ((start .default).compileDocument (.ofText "/") .textPage).toOption.any fun r =>
      r.2.isInteractive := by
    decide +kernel
  obtain ⟨b, page, h, hw⟩ := exists_compileDocument hi
  have hd : Document.textPage.WellFormed := Document.wellFormed_ofNodes "/" _
  refine ⟨b, page, hd, h, fun hserved => ?_⟩
  obtain ⟨h, -, -⟩ := of_compileDocument h
  obtain ⟨html, l, connection, ready, -, hs, hc⟩ := hd.compiled h hw
  obtain ⟨he, -⟩ := hd.extends_full
  have hh := hd.holds h hw
  obtain ⟨w, hw, hlost⟩ := Document.not_below_textPage h hw
  obtain ⟨n, hn, hb, ⟨i, hi, -, hm⟩, -⟩ := hserved.script w hw
  obtain ⟨e, -, hep, -, ha, ht⟩ := exists_of_forall₂ hc.placed_forall₂ hw
  cases Document.eq_script_of_channel hh hs hc hserved.distinct h he hep hw ha hn hi hm
  exact hlost _ (Document.stands_of_placed hh hs hc hep hw ha ht) hb

end SiteBuild

end LivePages
