import LivePages.Proofs.Page.LoadedFiles

namespace LivePages

theorem forall₂_split {α β : Type} {R : α → β → Prop} {as as' : List α} {bs : List β}
    (h : List.Forall₂ R (as ++ as') bs) :
    ∃ cs cs', bs = cs ++ cs' ∧ List.Forall₂ R as cs ∧ List.Forall₂ R as' cs' := by
  have first := List.forall₂_take as.length h
  have second := List.forall₂_drop as.length h
  rw [List.take_left] at first
  rw [List.drop_left] at second
  exact ⟨_, _, (List.take_append_drop as.length bs).symm, first, second⟩

/-- Two lists without common entries commute only if one of them is empty. -/
theorem append_comm_iff {α : Type} {as bs : List α} (h : (as ++ bs).Nodup) :
    as ++ bs = bs ++ as ↔ as = [] ∨ bs = [] := by
  constructor
  · intro e
    cases as with
    | nil => exact .inl rfl
    | cons a as =>
      cases bs with
      | nil => exact .inr rfl
      | cons b bs =>
        have hab := (List.nodup_append.mp h).2.2 a List.mem_cons_self b List.mem_cons_self
        exact absurd (List.cons.inj e).1 hab
  · rintro (rfl | rfl) <;> simp

/-- In a list without repetitions, one entry comes before another if it is not behind it. -/
theorem idxOf_lt_idxOf_iff {before after : List Nat} {m n : Nat}
    (h : (before ++ m :: after).Nodup) (hn : n ∈ before ++ m :: after) (hne : n ≠ m) :
    (before ++ m :: after).idxOf n < (before ++ m :: after).idxOf m ↔ n ∉ after := by
  rw [List.nodup_middle, List.nodup_cons, List.mem_append, not_or] at h
  have hm : (before ++ m :: after).idxOf m = before.length := by
    rw [List.idxOf_append_of_notMem h.1.1, List.idxOf_cons_self, Nat.add_zero]
  rw [hm]
  by_cases hb : n ∈ before
  · rw [List.idxOf_append_of_mem hb]
    refine iff_of_true (List.idxOf_lt_length_of_mem hb) fun ha => ?_
    exact (List.nodup_append.mp h.2).2.2 n hb n ha rfl
  · rw [List.idxOf_append_of_notMem hb]
    refine iff_of_false (by omega) (not_not_intro ?_)
    rcases List.mem_append.mp hn with hn | hn
    · exact absurd hn hb
    · exact (List.mem_cons.mp hn).resolve_left hne

namespace Tree

variable {t t' : Tree} {p : NodeId} {templates loaded loaded' : List Template}
  {ids : List NodeId}

/-- Whether an element matches one of the templates. -/
def matchesAny (t : Tree) (templates : List Template) (id : NodeId) : Bool :=
  templates.any fun a => t.matchesTemplate id a

/-- The children of a node that match one of the templates. -/
def loading (t : Tree) (p : NodeId) (templates : List Template) : List NodeId :=
  (t.children p).filter (t.matchesAny templates)

/-- Elements match templates one by one. -/
def Match (t : Tree) : List NodeId → List Template → Prop :=
  List.Forall₂ fun id a => t.matchesTemplate id a

theorem matchesAny_iff {id : NodeId} :
    t.matchesAny templates id ↔ ∃ a ∈ templates, t.matchesTemplate id a := by
  rw [matchesAny, List.any_eq_true]

theorem Match.congr (h : t.Match ids loaded)
    (hm : ∀ id ∈ ids, ∀ a, t'.matchesTemplate id a = t.matchesTemplate id a) :
    t'.Match ids loaded := by
  refine ((List.forall₂_and_left _ _).mpr ⟨hm, h⟩).imp fun id a ⟨e, ha⟩ => ?_
  rw [e a]
  exact ha

theorem Match.unique (h : t.Match ids loaded) (h' : t.Match ids loaded')
    (hl : ∀ a ∈ loaded, a.IsHead) (hl' : ∀ a ∈ loaded', a.IsHead) : loaded = loaded' := by
  induction h generalizing loaded' with
  | nil => exact (List.forall₂_nil_left_iff.mp h').symm
  | cons ha _ ih =>
    obtain ⟨b, rest, hb, htail, rfl⟩ := List.forall₂_cons_left_iff.mp h'
    rw [List.forall_mem_cons] at hl hl'
    have hab := hl.1.eq_of_agrees hl'.1 ((matches_iff_agrees ha).mp hb)
    rw [hab, ih htail hl.2 hl'.2]

/-- Of new elements those match the templates that have been made from them. -/
theorem match_filter_of_made {block : List NodeId} {made : List Template}
    (h : List.Forall₂ (fun n a => t.MadeFrom n a) block made) (hm : ∀ a ∈ made, a.IsHead)
    (ht : ∀ a ∈ templates, a.IsHead) :
    t.Match (block.filter (t.matchesAny templates)) (made.filter fun a => a ∈ templates) := by
  induction h with
  | nil => exact .nil
  | @cons n a block made hn _ ih =>
    rw [List.forall_mem_cons] at hm
    have own : t.matchesAny templates n ↔ a ∈ templates := by
      rw [matchesAny_iff]
      constructor
      · rintro ⟨b, hb, hnb⟩
        exact hm.1.eq_of_agrees (ht b hb) ((matches_iff_agrees hn.matches).mp hnb) ▸ hb
      · exact fun ha => ⟨a, ha, hn.matches⟩
    by_cases ha : a ∈ templates
    · rw [List.filter_cons_of_pos (own.mpr ha), List.filter_cons_of_pos (by simpa using ha)]
      exact .cons hn.matches (ih hm.2)
    · rw [List.filter_cons_of_neg (mt own.mp ha), List.filter_cons_of_neg (by simpa using ha)]
      exact ih hm.2

/-- Of the templates those have an element that are listed with the elements. -/
theorem containsTemplate_of_match (h : t.Match (t.loading p templates) loaded)
    (hl : ∀ a ∈ loaded, a.IsHead) {a : Template} (ht : a ∈ templates) (ha : a.IsHead) :
    t.containsTemplate p a ↔ a ∈ loaded := by
  rw [containsTemplate_eq, List.any_eq_true]
  constructor
  · rintro ⟨id, hid, hm⟩
    have hid : id ∈ t.loading p templates :=
      List.mem_filter.mpr ⟨hid, matchesAny_iff.mpr ⟨a, ht, hm⟩⟩
    obtain ⟨b, hb, hmb⟩ := exists_of_forall₂ h.flip hid
    exact ha.eq_of_agrees (hl b hb) ((matches_iff_agrees hm).mp hmb) ▸ hb
  · intro hm
    obtain ⟨id, hid, hm⟩ := exists_of_forall₂ h hm
    exact ⟨id, (List.mem_filter.mp hid).1, hm⟩

end Tree

namespace Document

variable {d : Document} {url : PageUrl} {s : Settings} {page : CompiledPage} {w : WidgetDescriptor}
  {templates loaded : List Template}

def headChildren (d : Document) : List NodeId :=
  (d.head.map d.tree.children).getD []

/-- The children of the head that match one of the templates. -/
def loading (d : Document) (templates : List Template) : List NodeId :=
  d.headChildren.filter (d.tree.matchesAny templates)

/-- What the head has of some templates is one element for each of the listed ones, in their
order. -/
def Loads (d : Document) (templates loaded : List Template) : Prop :=
  d.tree.Match (d.loading templates) loaded

theorem children_ensureBody {html head : NodeId} (hw : d.tree.WellFormed)
    (hs : d.tree.IsSection html "head" head) {q : NodeId} (hq : q = head ∨ q ∈ d.tree.children head) :
    (d.ensureBody html).1.tree.children q = d.tree.children q := by
  rw [ensureBody]
  split
  next => rfl
  next =>
    have ht : "body" ∈ Tree.sectionTags := by decide
    have hg := Tree.gains_append hw (hw.consistent.parent_lt_size hs.mem) ht
    rcases hq with rfl | hq
    · exact hg.others q (hw.consistent.lt_size hs.mem) (hw.ne_of_child hs.mem).symm
    · refine hg.others q (hw.consistent.lt_size hq) fun e => ?_
      exact hw.acyclic q (.tail (.single (e ▸ hs.mem)) hq)

theorem mem_headChildren {id : NodeId} :
    id ∈ d.headChildren ↔ ∃ head, d.head = some head ∧ id ∈ d.tree.children head := by
  rw [headChildren]
  cases d.head <;> simp

/-- Completing the sections of a page changes nothing in the head that the page has. -/
theorem WellFormed.headChildren_full (h : d.WellFormed) (hh : d.head.isSome) :
    d.full.children d.fullHead = d.headChildren := by
  obtain ⟨head, hh⟩ := Option.isSome_iff_exists.mp hh
  obtain ⟨hf, html, hsec, ht⟩ := h.full_of_some hh
  rw [hf, ht, children_ensureBody h.tree hsec (.inl rfl), headChildren, hh]
  rfl

theorem WellFormed.matches_full (h : d.WellFormed) {id : NodeId} (hid : id ∈ d.headChildren)
    (a : Template) : d.full.matchesTemplate id a = d.tree.matchesTemplate id a := by
  obtain ⟨head, hh, hid⟩ := mem_headChildren.mp hid
  obtain ⟨-, html, hsec, ht⟩ := h.full_of_some hh
  obtain ⟨he, -⟩ := h.extends_full
  refine Tree.matchesTemplate_congr ?_ ?_ (fun c hc => ?_) a
  · exact he.data id (h.tree.consistent.lt_size hid)
  · rw [ht]
    exact children_ensureBody h.tree hsec (.inr hid)
  · exact he.data c (h.tree.consistent.lt_size hc)

theorem WellFormed.loading_full (h : d.WellFormed) (templates : List Template) :
    d.full.loading d.fullHead templates = d.loading templates := by
  cases hh : d.head with
  | none =>
    have hnil : d.loading templates = [] := by
      rw [loading, headChildren, hh]
      rfl
    rw [hnil, Tree.loading, List.filter_eq_nil_iff]
    intro id hid hm
    obtain ⟨a, -, hm⟩ := Tree.matchesAny_iff.mp hm
    exact List.countP_eq_zero.mp ((h.full_of_none hh).2 a) id hid hm
  | some head =>
    rw [Tree.loading, h.headChildren_full (hh ▸ rfl), loading]
    refine List.filter_congr fun id hid => ?_
    rw [Tree.matchesAny, Tree.matchesAny, funext (h.matches_full hid)]

theorem WellFormed.match_full (h : d.WellFormed) (hl : d.Loads templates loaded) :
    d.full.Match (d.full.loading d.fullHead templates) loaded := by
  rw [h.loading_full]
  exact hl.congr fun id hid => h.matches_full (List.mem_filter.mp hid).1

namespace HeadFilled

variable (h : d.HeadFilled page)
include h

theorem matches_old {id : NodeId} (hid : id ∈ d.full.children d.fullHead) (a : Template) :
    page.document.tree.matchesTemplate id a = d.full.matchesTemplate id a := by
  have hb : d.full.Below d.fullHead id := .single hid
  exact Tree.matchesTemplate_congr (h.data id (.inr hb)) (h.below id hb)
    (fun c hc => h.data c (.inr (hb.tail hc))) a

theorem filter_old {ids : List NodeId} (hids : ∀ id ∈ ids, id ∈ d.full.children d.fullHead)
    (templates : List Template) : ids.filter (page.document.tree.matchesAny templates) =
      ids.filter (d.full.matchesAny templates) := by
  refine List.filter_congr fun id hid => ?_
  rw [Tree.matchesAny, Tree.matchesAny, funext (h.matches_old (hids id hid))]

/-- The elements for some templates that the head had are those around the new ones, which are for
the templates that were not there. -/
theorem loading_eq (hm : ∀ a ∈ page.headTemplates, a.IsHead) (ht : ∀ a ∈ templates, a.IsHead) :
    ∃ before new after, d.full.loading d.fullHead templates =
        before.filter (d.full.matchesAny templates) ++ after.filter (d.full.matchesAny templates) ∧
      d.full.children d.fullHead = before ++ after ∧
      (match d.marker? with
        | some m => before.getLast? = some m
        | none => after = []) ∧
      page.document.loading templates = before.filter (d.full.matchesAny templates) ++ new ++
        after.filter (d.full.matchesAny templates) ∧
      page.document.tree.Match new
        ((d.missing page.headTemplates).filter fun a => a ∈ templates) := by
  obtain ⟨before, block, after, hk, hend, hk', hmade⟩ := h.block
  have made : List.Forall₂ (fun n a => page.document.tree.MadeFrom n a) block
      (d.missing page.headTemplates) := hmade.imp fun _ _ hn => hn.2
  have hmissing : ∀ a ∈ d.missing page.headTemplates, a.IsHead := by
    intro a ha
    rw [missing, ← Template.lacking_eq_eraseDups hm] at ha
    exact hm a (Template.mem_of_mem_lacking ha)
  have hold (ids : List NodeId) (hids : ∀ id ∈ ids, id ∈ before ++ after) :
      ids.filter (page.document.tree.matchesAny templates) =
        ids.filter (d.full.matchesAny templates) :=
    h.filter_old (fun id hid => hk ▸ hids id hid) templates
  refine ⟨before, _, after, ?_, hk, hend, ?_, Tree.match_filter_of_made made hmissing ht⟩
  · rw [Tree.loading, hk, List.filter_append]
  · have children : page.document.headChildren = before ++ block ++ after := by
      rw [headChildren, h.head, ← hk']
      rfl
    rw [loading, children, List.filter_append, List.filter_append,
      hold before fun id hid => List.mem_append_left _ hid,
      hold after fun id hid => List.mem_append_right _ hid]

end HeadFilled

/-- Of what a widget needs, the page lacks what is not listed with the elements that are there. -/
theorem missing_of_match (hu : ∀ v ∈ page.widgets, v.page = page.url) (hw : w ∈ page.widgets)
    {others : List Template} (e : w.headTemplates = loaded ++ others)
    (hm : d.full.Match (d.full.loading d.fullHead w.headTemplates) loaded) :
    (d.missing page.headTemplates).filter (fun a => a ∈ w.headTemplates) = others := by
  have head (a) (ha : a ∈ w.headTemplates) : a.IsHead :=
    WidgetDescriptor.isHead_of_mem_headTemplates ha
  have present (a) (ha : a ∈ w.headTemplates) :
      d.full.containsTemplate d.fullHead a ↔ a ∈ loaded :=
    Tree.containsTemplate_of_match hm (fun b hb => head b (e ▸ List.mem_append_left _ hb)) ha
      (head a ha)
  have hn : (loaded ++ others).Nodup := e ▸ WidgetContent.nodup_headTemplates _ _
  have old : loaded.filter (fun a => !d.full.containsTemplate d.fullHead a) = [] := by
    refine List.filter_eq_nil_iff.mpr fun a ha => ?_
    rw [(present a (e ▸ List.mem_append_left _ ha)).mpr ha]
    exact Bool.false_ne_true
  have new : others.filter (fun a => !d.full.containsTemplate d.fullHead a) = others := by
    refine List.filter_eq_self.mpr fun a ha => ?_
    have hl : a ∉ loaded := fun hl => (List.nodup_append.mp hn).2.2 a hl a ha rfl
    rw [Bool.not_eq_true', ← Bool.not_eq_true]
    exact mt (present a (e ▸ List.mem_append_right _ ha)).mp hl
  rw [missing, ← eraseDups_filter, List.filter_comm, eraseDups_filter,
    CompiledPage.eraseDups_headTemplates hu hw, e, List.filter_append, old, new, List.nil_append]

/-- What loads a template stands before the marker or behind it, because the marker itself is a
comment. -/
theorem WellFormed.idxOf_lt_marker_iff (hd : d.WellFormed) {m id : NodeId} (hm : d.marker? = some m)
    {front after : List NodeId} (hk : d.headChildren = front ++ m :: after)
    (hid : id ∈ d.loading templates) :
    d.headChildren.idxOf id < d.headChildren.idxOf m ↔ id ∉ after := by
  obtain ⟨head, hh, hf⟩ := Option.bind_eq_some_iff.mp hm
  have hn : d.headChildren.Nodup := by
    rw [headChildren, hh]
    exact hd.tree.consistent.distinct head
  obtain ⟨hid, hany⟩ := List.mem_filter.mp hid
  have hne : id ≠ m := by
    rintro rfl
    obtain ⟨a, -, ha⟩ := Tree.matchesAny_iff.mp hany
    obtain ⟨element, he, -⟩ := Tree.element?_of_matches ha
    obtain ⟨content, hc⟩ := Option.isSome_iff_exists.mp (Tree.findComment?_spec hd.tree hf).2
    cases he.symm.trans (Tree.element?_of_comment? hc)
  rw [hk] at hid hn ⊢
  exact idxOf_lt_idxOf_iff hn hid hne

/-- Nothing of some templates is behind the marker exactly if all of it stands before the marker. -/
theorem WellFormed.nil_behind_iff (hd : d.WellFormed) {before after : List NodeId}
    (hold : d.full.loading d.fullHead templates =
      before.filter (d.full.matchesAny templates) ++ after.filter (d.full.matchesAny templates))
    (hk : d.full.children d.fullHead = before ++ after)
    (hend : match d.marker? with
      | some m => before.getLast? = some m
      | none => after = []) :
    after.filter (d.full.matchesAny templates) = [] ↔ ∀ id ∈ d.loading templates, ∀ m ∈ d.marker?,
      d.headChildren.idxOf id < d.headChildren.idxOf m := by
  cases hm : d.marker? with
  | none =>
    rw [hm] at hend
    rw [hend]
    simp
  | some m =>
    rw [hm] at hend
    obtain ⟨front, rfl⟩ := List.getLast?_eq_some_iff.mp hend
    obtain ⟨head, hh, -⟩ := Option.bind_eq_some_iff.mp hm
    have hk : d.headChildren = front ++ m :: after := by
      rw [← hd.headChildren_full (hh ▸ rfl), hk, List.append_assoc, List.singleton_append]
    have before_iff {id : NodeId} (hid : id ∈ d.loading templates) :=
      hd.idxOf_lt_marker_iff hm hk hid
    rw [← hd.loading_full] at before_iff ⊢
    constructor
    · intro hnil id hid m' hm'
      cases Option.mem_some.mp hm'
      refine (before_iff hid).mpr fun ha => ?_
      have ha := List.mem_filter.mpr ⟨ha, (List.mem_filter.mp hid).2⟩
      rw [hnil] at ha
      cases ha
    · intro hall
      refine List.filter_eq_nil_iff.mpr fun id ha hany => ?_
      have hid : id ∈ d.full.loading d.fullHead templates := by
        rw [hold]
        exact List.mem_append_right _ (List.mem_filter.mpr ⟨ha, hany⟩)
      exact (before_iff hid).mp (hall id hid m rfl) ha

/-- What the head had of a widget's scripts and style sheets stays in its order, and the others come
in one piece: behind all of it, unless some of it stands behind the marker. -/
theorem loads_compile (hd : d.WellFormed) (hp : d.HeadPlain) (hm : d.MarkerInHead)
    (h : d.compile url s = .ok page) (hw : w ∈ page.widgets) {others : List Template}
    (e : w.headTemplates = loaded ++ others) (hl : d.Loads w.headTemplates loaded) :
    ∃ first last, loaded = first ++ last ∧
      page.document.Loads w.headTemplates (first ++ others ++ last) ∧
      (last = [] ↔ ∀ id ∈ d.loading w.headTemplates, ∀ m ∈ d.marker?,
        d.headChildren.idxOf id < d.headChildren.idxOf m) := by
  have hne : page.widgets ≠ [] := List.ne_nil_of_mem hw
  obtain ⟨-, -, hpage⟩ := of_compile h hne
  have hu (v) (hv : v ∈ page.widgets) : v.page = page.url :=
    (page_of_mem_widgets h hv).trans (congrArg CompiledPage.url hpage).symm
  have filled := headFilled_compile hd hp hm h hne
  obtain ⟨before, new, after, hold, hk, hend, hafter, hnew⟩ := filled.loading_eq
    (fun a => CompiledPage.isHead_of_mem) fun a => WidgetDescriptor.isHead_of_mem_headTemplates
  have hmatch := hd.match_full hl
  rw [missing_of_match hu hw e hmatch] at hnew
  rw [hold] at hmatch
  obtain ⟨first, last, hsplit, hfirst, hlast⟩ := forall₂_split hmatch
  have kept {ids : List NodeId} {templates : List Template}
      (hids : ∀ id ∈ ids, id ∈ before ++ after)
      (hm : d.full.Match (ids.filter (d.full.matchesAny w.headTemplates)) templates) :
      page.document.tree.Match (ids.filter (d.full.matchesAny w.headTemplates)) templates :=
    hm.congr fun id hid => filled.matches_old (hk ▸ hids id (List.mem_filter.mp hid).1)
  refine ⟨first, last, hsplit, ?_, ?_⟩
  · rw [Loads, hafter]
    exact List.rel_append
      (List.rel_append (kept (fun id => List.mem_append_left _) hfirst) hnew)
      (kept (fun id => List.mem_append_right _) hlast)
  · rw [← hd.nil_behind_iff hold hk hend, ← List.length_eq_zero_iff, ← hlast.length_eq,
      List.length_eq_zero_iff]

/-- A widget's scripts and style sheets are in the widget's order, if the head had the first ones
of them in that order, exactly if it had all or the marker stands behind those that it had. -/
theorem loads_compile_iff (hd : d.WellFormed) (hp : d.HeadPlain) (hm : d.MarkerInHead)
    (h : d.compile url s = .ok page) (hw : w ∈ page.widgets) (hb : loaded <+: w.headTemplates)
    (hl : d.Loads w.headTemplates loaded) :
    page.document.Loads w.headTemplates w.headTemplates ↔ loaded = w.headTemplates ∨
      ∀ id ∈ d.loading w.headTemplates, ∀ m ∈ d.marker?,
        d.headChildren.idxOf id < d.headChildren.idxOf m := by
  obtain ⟨others, e⟩ := hb
  obtain ⟨first, last, rfl, hall, hbehind⟩ := loads_compile hd hp hm h hw e.symm hl
  have head (a) (ha : a ∈ w.headTemplates) : a.IsHead :=
    WidgetDescriptor.isHead_of_mem_headTemplates ha
  have order : page.document.Loads w.headTemplates w.headTemplates ↔
      first ++ others ++ last = w.headTemplates := by
    constructor
    · intro hall'
      refine hall.unique hall' (fun a ha => head a ?_) head
      rw [← e]
      simp only [List.mem_append] at ha ⊢
      exact or_right_comm.mp ha
    · intro e'
      rwa [e'] at hall
  have hn : (others ++ last).Nodup := by
    have hn : (first ++ last ++ others).Nodup := e ▸ WidgetContent.nodup_headTemplates _ _
    rw [List.append_assoc] at hn
    exact List.nodup_append_comm.mp (List.nodup_append.mp hn).2.1
  rw [order, ← hbehind, ← e, List.append_assoc, List.append_assoc, List.append_cancel_left_eq,
    append_comm_iff hn, ← List.append_assoc, List.self_eq_append_right]

/-- The class of a button goes before the class of all widgets, which stands behind the marker. -/
theorem not_loads_markedPage : ∃ page, markedPage.compile .root .default = .ok page ∧
    ∃ w ∈ page.widgets, [.scriptSource "Widget.js"] <+: w.headTemplates ∧
      markedPage.Loads w.headTemplates [.scriptSource "Widget.js"] ∧
      ¬ page.document.Loads w.headTemplates w.headTemplates := by
  have hbutton : (markedPage.compile .root .default).toOption.any fun page =>
      page.widgets.any fun w => decide
        (w.headTemplates = [.scriptSource "Widget.js", .scriptSource "ButtonWidget.js"]) := by
    decide +kernel
  obtain ⟨page, h, hany⟩ := exists_ok hbutton
  obtain ⟨w, hw, ht⟩ := List.any_eq_true.mp hany
  have ht := of_decide_eq_true ht
  have hd : markedPage.WellFormed := wellFormed_ofNodes "/" _
  have hhead : markedPage.head = some 2 := by decide +kernel
  have hmarker : markedPage.marker? = some 3 := by decide +kernel
  have hp : markedPage.HeadPlain := hd.headPlain_of_head hhead (by decide +kernel)
  have hm : markedPage.MarkerInHead := by
    intro head hh m hm
    cases Option.some.inj (hhead.symm.trans hh)
    cases Option.some.inj (hmarker.symm.trans hm)
    decide +kernel
  have hl : [.scriptSource "Widget.js"] <+: w.headTemplates := by
    rw [ht]
    exact List.prefix_append _ [Template.scriptSource "ButtonWidget.js"]
  have loading : markedPage.loading w.headTemplates = [4] := by
    rw [ht]
    decide +kernel
  have loads : markedPage.Loads w.headTemplates [.scriptSource "Widget.js"] := by
    rw [Loads, loading]
    exact .cons (by decide +kernel) .nil
  refine ⟨page, h, w, hw, hl, loads, ?_⟩
  rw [loads_compile_iff hd hp hm h hw hl loads, not_or]
  constructor
  · rw [ht]
    simp
  · intro hall
    have behind := hall 4 (by rw [loading]; exact List.mem_cons_self) 3 hmarker
    revert behind
    decide +kernel

end Document

end LivePages
