import LivePages.Proofs.Page.Discovery
import LivePages.Proofs.Widget.Checks

namespace LivePages

namespace Tree

variable {t : Tree} {id p : NodeId} {k : WidgetKind}

/-- The kind of widget that an element stands for. -/
def widgetKind? (t : Tree) (id : NodeId) : Option WidgetKind :=
  (t.tag? id).bind WidgetKind.ofTag?

/-- A node is inside a widget; of all the widgets around the node, this one is the nearest. -/
def NestedIn (t : Tree) (id : NodeId) (k : WidgetKind) : Prop :=
  ∃ a, t.Below a id ∧ t.widgetKind? a = some k ∧
    ∀ b, t.Below b id → t.IsWidget b → b = a ∨ t.Below b a

def IsNested (t : Tree) (id : NodeId) : Prop :=
  ∃ a, t.Below a id ∧ t.IsWidget a

theorem isWidget_iff_exists : t.IsWidget id ↔ ∃ k, t.widgetKind? id = some k := by
  rw [isWidget_iff, Option.isSome_iff_exists]
  rfl

namespace WellFormed

variable (h : t.WellFormed)

include h

theorem nestedIn_parent (hc : id ∈ t.children p) (hp : t.widgetKind? p = some k) (k' : WidgetKind) :
    t.NestedIn id k' ↔ k' = k := by
  constructor
  · rintro ⟨a, hb, ha, near⟩
    rcases h.below_child hb hc with rfl | hb
    · exact Option.some.inj (ha.symm.trans hp)
    · -- The parent would be above a widget that is above the parent.
      have below := near p (.single hc) (isWidget_iff_exists.mpr ⟨k, hp⟩)
      rcases below with rfl | below
      · exact absurd hb (h.acyclic p)
      · exact absurd (hb.trans below) (h.acyclic a)
  · rintro rfl
    exact ⟨p, .single hc, hp, fun b hb _ => h.below_child hb hc⟩

theorem nestedIn_of_not_widget (hc : id ∈ t.children p) (hp : t.widgetKind? p = none)
    (k : WidgetKind) : t.NestedIn id k ↔ t.NestedIn p k := by
  have above {a : NodeId} (ha : t.IsWidget a) : t.Below a id ↔ t.Below a p := by
    constructor
    · intro hb
      rcases h.below_child hb hc with rfl | hb
      · obtain ⟨k, hk⟩ := isWidget_iff_exists.mp ha
        cases hp.symm.trans hk
      · exact hb
    · intro hb
      exact .tail hb hc
  constructor
  · rintro ⟨a, hb, ha, near⟩
    exact ⟨a, (above (isWidget_iff_exists.mpr ⟨k, ha⟩)).mp hb, ha, fun b hb hw =>
      near b ((above hw).mpr hb) hw⟩
  · rintro ⟨a, hb, ha, near⟩
    exact ⟨a, (above (isWidget_iff_exists.mpr ⟨k, ha⟩)).mpr hb, ha, fun b hb hw =>
      near b ((above hw).mp hb) hw⟩

/-- The walk from parent to parent stops at the nearest widget. -/
theorem findSome?_ancestors {bound : Nat} (hl : t.level id < bound) :
    (t.ancestors bound id).findSome? t.widgetKind? = some k ↔ t.NestedIn id k := by
  induction bound generalizing id with
  | zero => omega
  | succ bound ih =>
    unfold ancestors
    cases hp : t.parent? id with
    | none =>
      simp only [List.findSome?_nil, reduceCtorEq, false_iff]
      rintro ⟨a, hb, -⟩
      obtain ⟨p, -, hc⟩ := h.mem_of_below hb
      cases hp.symm.trans (h.consistent.parent_of_mem hc)
    | some p =>
      have hc : id ∈ t.children p := h.consistent.mem_of_parent hp
      have hlt := h.level_lt hc
      rw [List.findSome?_cons]
      cases hk : t.widgetKind? p with
      | some k' =>
        rw [h.nestedIn_parent hc hk k, Option.some.injEq]
        exact eq_comm
      | none =>
        rw [h.nestedIn_of_not_widget hc hk k]
        exact ih (by omega)

theorem outerWidget?_eq_some_iff (hid : id < t.size) :
    t.outerWidget? id = some k ↔ t.NestedIn id k :=
  h.findSome?_ancestors (h.level_lt_size hid)

theorem outerWidget?_eq_none_iff (hid : id < t.size) : t.outerWidget? id = none ↔ ¬ t.IsNested id := by
  constructor
  · rintro ho ⟨a, hb, hw⟩
    exact h.not_isWidget_above hb ho hw
  · intro hn
    by_contra ho
    obtain ⟨k, hk⟩ := Option.ne_none_iff_exists'.mp ho
    obtain ⟨a, hb, ha, -⟩ := (h.outerWidget?_eq_some_iff hid).mp hk
    exact hn ⟨a, hb, isWidget_iff_exists.mpr ⟨k, ha⟩⟩

end WellFormed

end Tree

namespace Document

variable {d : Document} {url : PageUrl} {s : Settings} {e : WidgetError}

/-- Why a page is refused. Nesting counts before everything else; then the first widget counts that
does not pass its checks, and of these the first that it does not pass. -/
inductive Refused (d : Document) (url : PageUrl) : WidgetError → Prop where
  | nested {before after : List WidgetMarkup} {m : WidgetMarkup} {outer : WidgetKind}
    (hw : d.widgets url = before ++ m :: after) (hb : ∀ b ∈ before, ¬ d.tree.IsNested b.node)
    (hm : d.tree.NestedIn m.node outer) : Refused d url ⟨m.kind, url, before.length, .nested outer⟩
  | failed {before after : List WidgetMarkup} {m : WidgetMarkup} {passed rest : List WidgetCheck}
    {c : WidgetCheck} (hn : ∀ m ∈ d.widgets url, ¬ d.tree.IsNested m.node)
    (hw : d.widgets url = before ++ m :: after) (hb : ∀ b ∈ before, ∀ c ∈ b.kind.checks, c.Passes b)
    (hc : m.kind.checks = passed ++ c :: rest) (hp : ∀ c ∈ passed, c.Passes m)
    (hm : ¬ c.Passes m) : Refused d url ⟨m.kind, url, before.length, c.fault m⟩

/-- An error about a widget tells its kind, its page and its place on the page. -/
theorem error_of_widgets {before after : List WidgetMarkup} {m : WidgetMarkup}
    (hw : d.widgets url = before ++ m :: after) (fault : Fault) :
    m.error fault = ⟨m.kind, url, before.length, fault⟩ := by
  have page : m.page = url :=
    WidgetMarkup.page_of_mem_ofElements (show m ∈ d.widgets url by simp [hw])
  have position : m.position = before.length := by
    have positions := congrArg (·[before.length]?) (d.positions_widgets url)
    simpa [hw] using positions
  rw [WidgetMarkup.error, page, position]

namespace WellFormed

variable (hd : d.WellFormed)

include hd

theorem lt_size_of_mem_widgets {m : WidgetMarkup} (hm : m ∈ d.widgets url) :
    m.node < d.tree.size := by
  have hm := List.mem_map_of_mem (f := WidgetMarkup.node) hm
  rw [nodes_widgets, Tree.elementsNamed_tags, List.mem_filter, hd.tree.mem_descendants] at hm
  exact hd.tree.below_lt_size hm.1

theorem rejectNested_eq_ok_iff {m : WidgetMarkup} (hm : m ∈ d.widgets url) :
    m.rejectNested d.tree = .ok () ↔ ¬ d.tree.IsNested m.node := by
  rw [← hd.tree.outerWidget?_eq_none_iff (hd.lt_size_of_mem_widgets hm)]
  unfold WidgetMarkup.rejectNested
  cases d.tree.outerWidget? m.node with
  | none => simp
  | some outer => simp

theorem rejectNested_eq_error_iff {m : WidgetMarkup} (hm : m ∈ d.widgets url) :
    m.rejectNested d.tree = .error e ↔
      ∃ outer, d.tree.NestedIn m.node outer ∧ e = m.error (.nested outer) := by
  simp only [← hd.tree.outerWidget?_eq_some_iff (hd.lt_size_of_mem_widgets hm)]
  unfold WidgetMarkup.rejectNested
  cases d.tree.outerWidget? m.node with
  | none => simp
  | some outer => simp [eq_comm]

theorem forM_rejectNested_eq_ok_iff : (d.widgets url).forM (fun m => m.rejectNested d.tree) = .ok () ↔
    ∀ m ∈ d.widgets url, ¬ d.tree.IsNested m.node := by
  rw [forM_eq_ok]
  exact forall₂_congr fun m hm => hd.rejectNested_eq_ok_iff hm

end WellFormed

/-- The nesting of all widgets is looked at before the first of them is made. -/
theorem compile_eq_error_iff : d.compile url s = .error e ↔
    (d.widgets url).forM (fun m => m.rejectNested d.tree) = .error e ∨
      (d.widgets url).forM (fun m => m.rejectNested d.tree) = .ok () ∧
        (d.widgets url).mapM (fun m => m.descriptor s) = .error e := by
  unfold compile
  by_cases hw : (d.widgets url).isEmpty
  · rw [if_pos hw, List.isEmpty_iff.mp hw]
    simp [List.forM, pure, Except.pure]
  · rw [if_neg hw]
    dsimp only
    rw [bind_eq_error]
    apply or_congr_right
    constructor
    · rintro ⟨u, hn, h⟩
      rcases bind_eq_error.mp h with h | ⟨ws, -, h⟩
      · exact ⟨hn, h⟩
      · cases h
    · rintro ⟨hn, h⟩
      exact ⟨(), hn, bind_eq_error.mpr (.inl h)⟩

theorem WellFormed.forM_rejectNested_eq_error_iff (hd : d.WellFormed) :
    (d.widgets url).forM (fun m => m.rejectNested d.tree) = .error e ↔
      ∃ before m after outer, d.widgets url = before ++ m :: after ∧
        (∀ b ∈ before, ¬ d.tree.IsNested b.node) ∧ d.tree.NestedIn m.node outer ∧
        e = ⟨m.kind, url, before.length, .nested outer⟩ := by
  rw [forM_eq_error]
  constructor
  · rintro ⟨before, m, after, hw, hb, hm⟩
    have mem (b : WidgetMarkup) (hb : b ∈ before ∨ b = m) : b ∈ d.widgets url := by
      rw [hw]
      grind
    obtain ⟨outer, hnested, rfl⟩ := (hd.rejectNested_eq_error_iff (mem m (.inr rfl))).mp hm
    refine ⟨before, m, after, outer, hw, ?_, hnested, error_of_widgets hw _⟩
    intro b hb'
    exact (hd.rejectNested_eq_ok_iff (mem b (.inl hb'))).mp (hb b hb')
  · rintro ⟨before, m, after, outer, hw, hb, hm, rfl⟩
    have mem (b : WidgetMarkup) (hb : b ∈ before ∨ b = m) : b ∈ d.widgets url := by
      rw [hw]
      grind
    refine ⟨before, m, after, hw, ?_, ?_⟩
    · intro b hb'
      exact (hd.rejectNested_eq_ok_iff (mem b (.inl hb'))).mpr (hb b hb')
    · rw [← error_of_widgets hw]
      exact (hd.rejectNested_eq_error_iff (mem m (.inr rfl))).mpr ⟨outer, hm, rfl⟩

theorem mapM_descriptor_eq_error_iff : (d.widgets url).mapM (fun m => m.descriptor s) = .error e ↔
    ∃ before m after passed c rest, d.widgets url = before ++ m :: after ∧
      (∀ b ∈ before, ∀ c ∈ b.kind.checks, c.Passes b) ∧ m.kind.checks = passed ++ c :: rest ∧
      (∀ c ∈ passed, c.Passes m) ∧ ¬ c.Passes m ∧
      e = ⟨m.kind, url, before.length, c.fault m⟩ := by
  simp only [mapM_eq_error, (WidgetMarkup.decides_descriptor _ s).ok_iff,
    (WidgetMarkup.decides_descriptor _ s).error_iff]
  constructor
  · rintro ⟨before, m, after, hw, hb, passed, c, rest, hc, hp, hm, rfl⟩
    exact ⟨before, m, after, passed, c, rest, hw, hb, hc, hp, hm, error_of_widgets hw _⟩
  · rintro ⟨before, m, after, passed, c, rest, hw, hb, hc, hp, hm, rfl⟩
    exact ⟨before, m, after, hw, hb, passed, c, rest, hc, hp, hm, (error_of_widgets hw _).symm⟩

/-- A page is compiled if none of its widgets is inside another one and all of them pass the checks of
their kinds. A page that is refused is refused for the first reason there is. -/
theorem refused_compile_iff (hd : d.WellFormed) (url : PageUrl) (s : Settings) :
    ((∃ page, d.compile url s = .ok page) ↔
      ∀ m ∈ d.widgets url, ¬ d.tree.IsNested m.node ∧ ∀ c ∈ m.kind.checks, c.Passes m) ∧
    ∀ e, d.compile url s = .error e ↔ d.Refused url e := by
  have refused (e : WidgetError) : d.compile url s = .error e ↔ d.Refused url e := by
    rw [compile_eq_error_iff, hd.forM_rejectNested_eq_ok_iff, hd.forM_rejectNested_eq_error_iff,
      mapM_descriptor_eq_error_iff]
    constructor
    · rintro (⟨before, m, after, outer, hw, hb, hm, rfl⟩ |
        ⟨hn, before, m, after, passed, c, rest, hw, hb, hc, hp, hm, rfl⟩)
      · exact .nested hw hb hm
      · exact .failed hn hw hb hc hp hm
    · rintro (⟨hw, hb, hm⟩ | ⟨hn, hw, hb, hc, hp, hm⟩)
      · exact .inl ⟨_, _, _, _, hw, hb, hm, rfl⟩
      · exact .inr ⟨hn, _, _, _, _, _, _, hw, hb, hc, hp, hm, rfl⟩
  refine ⟨?_, refused⟩
  constructor
  · rintro ⟨page, h⟩ m hm
    rcases compile_cases h with ⟨hw, -⟩ | ⟨-, hn, hok, -⟩
    · rw [hw] at hm
      cases hm
    · obtain ⟨w, -, hw⟩ := exists_of_forall₂ hok.flip hm
      exact ⟨(hd.rejectNested_eq_ok_iff hm).mp (hn m hm), (m.decides_descriptor s).ok_iff.mp ⟨w, hw⟩⟩
  · intro h
    cases he : d.compile url s with
    | ok page => exact ⟨page, rfl⟩
    | error e =>
      -- Every reason to refuse the page speaks of a widget that is in order.
      cases (refused e).mp he with
      | @nested before after m outer hw _ hm =>
        obtain ⟨a, hb, ha, -⟩ := hm
        obtain ⟨hn, -⟩ := h m (by simp [hw])
        exact absurd ⟨a, hb, Tree.isWidget_iff_exists.mpr ⟨outer, ha⟩⟩ hn
      | @failed before after m passed rest c _ hw _ hc _ hm =>
        obtain ⟨-, hp⟩ := h m (by simp [hw])
        exact absurd (hp c (by simp [hc])) hm

/-- A page with a button that lacks its label, and a terminal inside a later button. -/
def crowdedPage : Document :=
  let button := [("command", "ls"), ("image", "alpine")]
  .ofNodes "/" [(0, .element ⟨"html", []⟩), (1, .element ⟨"body", []⟩),
    (2, .element ⟨"x-button", button⟩), (2, .element ⟨"x-button", ("label", "List") :: button⟩),
    (3, .element ⟨"p", []⟩), (4, .element ⟨"x-terminal", button⟩)]

/-- The terminal counts, although the first button fails a check. -/
theorem refused_crowdedPage : crowdedPage.WellFormed ∧
    crowdedPage.Refused (.ofText "/guide/") ⟨.terminal, .ofText "/guide/", 2, .nested .button⟩ ∧
    ¬ ∀ m ∈ crowdedPage.widgets (.ofText "/guide/"),
      ¬ crowdedPage.tree.IsNested m.node ∧ ∀ c ∈ m.kind.checks, c.Passes m := by
  have hd : crowdedPage.WellFormed := wellFormed_ofNodes "/" _
  obtain ⟨ok, refused⟩ := refused_compile_iff hd (.ofText "/guide/") .default
  have error : crowdedPage.compile (.ofText "/guide/") .default =
      .error ⟨.terminal, .ofText "/guide/", 2, .nested .button⟩ := by
    apply eq_error
    decide +kernel
  refine ⟨hd, (refused _).mp error, ?_⟩
  intro h
  obtain ⟨page, h⟩ := ok.mpr h
  cases error.symm.trans h

end Document

end LivePages
