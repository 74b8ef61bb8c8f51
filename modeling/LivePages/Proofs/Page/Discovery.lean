import LivePages.Proofs.Page.Compilation
import LivePages.Proofs.Widget.Descriptor

namespace LivePages

theorem WidgetKind.ofTag?_isSome {tag : String} : (ofTag? tag).isSome ↔ tag ∈ tags := by
  rw [ofTag?, List.find?_isSome, tags, List.mem_map]
  simp only [beq_iff_eq]

namespace Tree

variable {t t' : Tree} {a id : NodeId}

theorem isWidget_iff : t.IsWidget id ↔ ((t.tag? id).bind WidgetKind.ofTag?).isSome := by
  rw [IsWidget]
  cases t.tag? id with
  | none => simp
  | some tag => simp [WidgetKind.ofTag?_isSome]

theorem isWidget_of_mem_elementsNamed (h : id ∈ t.elementsNamed a WidgetKind.tags) :
    t.IsWidget id := by
  rw [elementsNamed_tags] at h
  exact of_decide_eq_true (List.mem_filter.mp h).2

theorem WellFormed.mem_ancestors (h : t.WellFormed) {bound : Nat} (hb : t.Below a id)
    (hl : t.level id < bound) : a ∈ t.ancestors bound id := by
  induction bound generalizing id with
  | zero => omega
  | succ bound ih =>
    obtain ⟨p, -, hp⟩ := h.mem_of_below hb
    have hlt := h.level_lt hp
    rw [ancestors, h.consistent.parent_of_mem hp]
    rcases h.below_child hb hp with rfl | hb
    · exact List.mem_cons_self
    · exact List.mem_cons_of_mem p (ih hb (by omega))

/-- Where no widget is found around a node there is none above it. -/
theorem WellFormed.not_isWidget_above (h : t.WellFormed) (hb : t.Below a id)
    (ho : t.outerWidget? id = none) : ¬ t.IsWidget a := by
  have hm := h.mem_ancestors hb (h.level_lt_size (h.below_lt_size hb))
  rw [outerWidget?, List.findSome?_eq_none_iff] at ho
  rw [isWidget_iff, ho a hm]
  exact Bool.false_ne_true

/-- New nodes come between no two old ones. -/
theorem Extends.below_old (h : t.Extends t') {b : NodeId} (hb : t'.Below a b) (hlt : b < t.size) :
    t.Below a b := by
  have old {p c : NodeId} (hm : c ∈ t'.children p) (hc : c < t.size) : p < t.size ∧ c ∈ t.children p := by
    by_cases hp : p < t.size
    · exact ⟨hp, h.children p hp ▸ List.mem_filter.mpr ⟨hm, decide_eq_true hc⟩⟩
    · exact absurd (h.new p c (Nat.le_of_not_lt hp) hm) (Nat.not_le.mpr hc)
  induction hb with
  | single hm => exact .single (old hm hlt).2
  | tail _ hm ih =>
    obtain ⟨hp, hm⟩ := old hm hlt
    exact .tail (ih hp) hm

end Tree

namespace WidgetMarkup

variable {t : Tree} {page : PageUrl}

theorem nodes_ofElements {l : List NodeId} (h : ∀ id ∈ l, t.IsWidget id) (position : Nat) :
    (ofElements t page position l).map node = l := by
  induction l generalizing position with
  | nil => rfl
  | cons id l ih =>
    rw [List.forall_mem_cons] at h
    obtain ⟨kind, hk⟩ := Option.isSome_iff_exists.mp (Tree.isWidget_iff.mp h.1)
    rw [ofElements, hk]
    exact congrArg (id :: ·) (ih h.2 (position + 1))

/-- Every element is numbered once, in the order of the list. -/
theorem positions_ofElements {l : List NodeId} (h : ∀ id ∈ l, t.IsWidget id) (start : Nat) :
    (ofElements t page start l).map position = List.range' start l.length := by
  induction l generalizing start with
  | nil => rfl
  | cons id l ih =>
    rw [List.forall_mem_cons] at h
    obtain ⟨kind, hk⟩ := Option.isSome_iff_exists.mp (Tree.isWidget_iff.mp h.1)
    rw [ofElements, hk, List.length_cons, List.range'_succ]
    exact congrArg (start :: ·) (ih h.2 (start + 1))

theorem page_of_mem_ofElements {l : List NodeId} {start : Nat} {m : WidgetMarkup}
    (h : m ∈ ofElements t page start l) : m.page = page := by
  induction l generalizing start with
  | nil => cases h
  | cons id l ih =>
    rw [ofElements] at h
    split at h
    next =>
      rcases List.mem_cons.mp h with rfl | h
      · rfl
      · exact ih h
    next => exact ih h

end WidgetMarkup

namespace Document

variable {d : Document} {url : PageUrl} {s : Settings} {page : CompiledPage}

theorem nodes_widgets (d : Document) (url : PageUrl) :
    (d.widgets url).map WidgetMarkup.node = d.tree.elementsNamed Tree.root WidgetKind.tags :=
  WidgetMarkup.nodes_ofElements (fun _ => Tree.isWidget_of_mem_elementsNamed) 0

theorem positions_widgets (d : Document) (url : PageUrl) :
    (d.widgets url).map WidgetMarkup.position = List.range (d.widgets url).length := by
  have hl := congrArg List.length (nodes_widgets d url)
  rw [List.length_map] at hl
  rw [List.range_eq_range', hl]
  exact WidgetMarkup.positions_ofElements (fun _ => Tree.isWidget_of_mem_elementsNamed) 0

theorem compile_of_nil (h : d.widgets url = []) (s : Settings) :
    d.compile url s = .ok ⟨url, [], d, .empty⟩ := by
  rw [compile, h]
  rfl

/-- A page without widgets stays as it is; what has happened when another page has been compiled. -/
theorem compile_cases (h : d.compile url s = .ok page) :
    (d.widgets url = [] ∧ page = ⟨url, [], d, .empty⟩) ∨ d.widgets url ≠ [] ∧
      (∀ m ∈ d.widgets url, m.rejectNested d.tree = .ok ()) ∧
      List.Forall₂ (fun m w => m.descriptor s = .ok w) (d.widgets url) page.widgets ∧
      page = ⟨url, page.widgets,
        { d.ensureStructure.1 with
          tree := placeWidgets d.full d.fullHead d.fullBody url page.widgets },
        widgetAssets page.widgets⟩ := by
  rw [compile] at h
  dsimp only at h
  split at h
  next he => exact .inl ⟨List.isEmpty_iff.mp he, (Except.ok.inj h).symm⟩
  next hne =>
    obtain ⟨_, hn, h⟩ := bind_eq_ok.mp h
    obtain ⟨ws, hm, h⟩ := bind_eq_ok.mp h
    cases Except.ok.inj h
    exact .inr ⟨mt List.isEmpty_iff.mpr hne, forM_eq_ok.mp hn, mapM_eq_ok.mp hm, rfl⟩

theorem descriptors_compile (h : d.compile url s = .ok page) :
    List.Forall₂ (fun m w => m.descriptor s = .ok w) (d.widgets url) page.widgets := by
  rcases compile_cases h with ⟨hw, rfl⟩ | ⟨-, -, hm, -⟩
  · rw [hw]
    exact .nil
  · exact hm

theorem page_of_mem_widgets (h : d.compile url s = .ok page) {w : WidgetDescriptor}
    (hw : w ∈ page.widgets) : w.page = url := by
  obtain ⟨m, hm, hd⟩ := exists_of_forall₂ (descriptors_compile h) hw
  exact (WidgetMarkup.describes_descriptor hd).page.trans (WidgetMarkup.page_of_mem_ofElements hm)

theorem of_compile (h : d.compile url s = .ok page) (hw : page.widgets ≠ []) :
    (∀ m ∈ d.widgets url, m.rejectNested d.tree = .ok ()) ∧
      List.Forall₂ (fun m w => m.descriptor s = .ok w) (d.widgets url) page.widgets ∧
      page = ⟨url, page.widgets,
        { d.ensureStructure.1 with
          tree := placeWidgets d.full d.fullHead d.fullBody url page.widgets },
        widgetAssets page.widgets⟩ := by
  rcases compile_cases h with ⟨-, rfl⟩ | ⟨-, h⟩
  · exact absurd rfl hw
  · exact h

theorem eq_of_compile_nil (h : d.compile url s = .ok page) (hw : page.widgets = []) :
    page = ⟨url, [], d, .empty⟩ := by
  rcases compile_cases h with ⟨-, e⟩ | ⟨hne, -, hm, -⟩
  · exact e
  · rw [hw, List.forall₂_nil_right_iff] at hm
    exact absurd hm hne

/-- The widgets of a compiled page are those of the page, and none is below another. -/
structure Holds (d : Document) (page : CompiledPage) : Prop where
  nodes : page.widgets.map WidgetDescriptor.node = d.full.elementsNamed Tree.root WidgetKind.tags
  apart : ∀ v w, v ∈ page.widgets → w ∈ page.widgets → ¬ d.full.Below v.node w.node

theorem Holds.nodup (h : d.Holds page) (hw : d.full.WellFormed) :
    (page.widgets.map WidgetDescriptor.node).Nodup := by
  rw [h.nodes, Tree.elementsNamed_tags]
  exact (hw.nodup_descendants Tree.root).filter _

theorem WellFormed.holds (hd : d.WellFormed) (h : d.compile url s = .ok page)
    (hw : page.widgets ≠ []) : d.Holds page := by
  obtain ⟨hn, hm, -⟩ := of_compile h hw
  obtain ⟨he, -⟩ := hd.extends_full
  have hnodes : page.widgets.map WidgetDescriptor.node = (d.widgets url).map WidgetMarkup.node := by
    rw [← List.forall₂_eq_eq_eq, List.forall₂_map_left_iff, List.forall₂_map_right_iff]
    exact hm.flip.imp fun w m hw => (WidgetMarkup.describes_descriptor hw).node
  refine ⟨?_, fun v w hv hw hb => ?_⟩
  · rw [hnodes, nodes_widgets, he.elementsNamed_eq hd.tree hd.root]
  · have old {u : WidgetDescriptor} (hu : u ∈ page.widgets) :
        d.tree.IsWidget u.node ∧ ∃ m ∈ d.widgets url, m.node = u.node := by
      have hu := List.mem_map_of_mem (f := WidgetDescriptor.node) hu
      rw [hnodes] at hu
      obtain ⟨m, hm, e⟩ := List.mem_map.mp hu
      rw [nodes_widgets, Tree.elementsNamed_tags] at hu
      exact ⟨of_decide_eq_true (List.mem_filter.mp hu).2, m, hm, e⟩
    obtain ⟨hwi, m, hm, e⟩ := old hw
    have ho : d.tree.outerWidget? w.node = none := by
      have hr := hn m hm
      rw [WidgetMarkup.rejectNested, e] at hr
      split at hr
      next => cases hr
      next ho => exact ho
    obtain ⟨tag, -, ht⟩ := hwi
    obtain ⟨e', he', -⟩ := Tree.element?_of_tag? ht
    have hb := he.below_old hb (Tree.lt_size_of_element? he')
    exact hd.tree.not_isWidget_above hb ho (old hv).1

theorem WellFormed.compiled (hd : d.WellFormed) (h : d.compile url s = .ok page)
    (hw : page.widgets ≠ []) : ∃ html l connection ready, l.head = d.fullHead ∧
      d.full.Sections html l.head d.fullBody ∧
      d.full.Compiled d.fullBody url page.widgets l connection ready page.document.tree := by
  obtain ⟨-, -, hp⟩ := of_compile h hw
  obtain ⟨-, html, hs⟩ := hd.extends_full
  have hh := hd.holds h hw
  have ht := congrArg (fun p : CompiledPage => p.document.tree) hp
  dsimp only at ht
  have hn (w) (hw : w ∈ page.widgets) : d.full.IsWidget w.node ∧ d.full.Below Tree.root w.node := by
    have hm := List.mem_map_of_mem (f := WidgetDescriptor.node) hw
    rw [hh.nodes, Tree.elementsNamed_tags, List.mem_filter, hs.wellFormed.mem_descendants] at hm
    exact ⟨of_decide_eq_true hm.2, hm.1⟩
  obtain ⟨l, connection, ready, hl, hc⟩ := hs.compiled url hn (hh.nodup hs.wellFormed)
  rw [ht]
  exact ⟨html, l, connection, ready, hl, hl ▸ hs, hc⟩

/-- A page with one button, alone in its paragraph, and nothing else. -/
def buttonPage : Document :=
  ofNodes "/" [(0, .element ⟨"html", []⟩), (1, .element ⟨"body", []⟩), (2, .element ⟨"p", []⟩),
    (3, .element ⟨"x-button",
      [("name", "a"), ("command", "ls"), ("image", "alpine"), ("label", "List")]⟩)]

theorem exists_compile (h : (d.compile url s).toOption.any CompiledPage.isInteractive) :
    ∃ page, d.compile url s = .ok page ∧ page.widgets ≠ [] := by
  obtain ⟨page, h, hi⟩ := exists_ok h
  exact ⟨page, h, CompiledPage.isInteractive_iff.mp hi⟩

/-- A page with a marker in a template of its head, and four widgets that share the scripts of the
head: a hidden one, two in one paragraph, and one alone in its paragraph. -/
def labPage : Document :=
  ofNodes "/" [(0, .element ⟨"html", []⟩), (1, .element ⟨"head", []⟩), (2, .element ⟨"template", []⟩),
    (3, .comment " interactive-widgets "), (1, .element ⟨"body", []⟩),
    (5, .element ⟨"x-prologue", [("command", "ls"), ("image", "alpine"), ("hidden", "")]⟩),
    (5, .element ⟨"p", []⟩),
    (7, .element ⟨"x-button",
      [("name", "a"), ("command", "ls"), ("image", "alpine"), ("label", "List")]⟩),
    (7, .element ⟨"x-button",
      [("name", "b"), ("command", "pwd"), ("image", "alpine"), ("label", "Where")]⟩),
    (5, .element ⟨"p", []⟩), (10, .text " "),
    (10, .element ⟨"x-terminal", [("name", "t"), ("command", "sh"), ("image", "alpine")]⟩)]

theorem compile_labPage : ∃ page, labPage.compile .root .default = .ok page ∧
    page.widgets ≠ [] ∧ page.widgets.map (fun w => w.content.isHidden) = [true, false, false, false] := by
  have hidden : (labPage.compile .root .default).toOption.any fun page =>
      page.widgets.map (fun w => w.content.isHidden) == [true, false, false, false] := by
    decide +kernel
  obtain ⟨page, h, hw⟩ := exists_ok hidden
  rw [beq_iff_eq] at hw
  refine ⟨page, h, ?_, hw⟩
  rintro e
  rw [e] at hw
  cases hw

end Document

end LivePages
