import LivePages.Proofs.Html.PieceReading
import LivePages.Proofs.Page.NewNodes
import LivePages.Proofs.Page.Survivors
import LivePages.Proofs.Site.Run
import LivePages.Proofs.Widget.ScriptText

namespace LivePages

theorem not_mem_intercalate {c : Char} {separator : String} {lines : List String}
    (hs : c ∉ separator.toList) (h : ∀ line ∈ lines, c ∉ line.toList) :
    c ∉ (separator.intercalate lines).toList := by
  induction lines with
  | nil => exact List.not_mem_nil
  | cons a lines ih =>
    rw [List.forall_mem_cons] at h
    cases lines with
    | nil => rw [String.intercalate_singleton]; exact h.1
    | cons b lines =>
      simp only [String.intercalate_cons_cons, String.toList_append, List.mem_append, not_or]
      exact ⟨⟨h.1, hs⟩, ih h.2⟩

set_option maxRecDepth 2000 in
theorem lt_not_mem_roomNameLines : ∀ line ∈ roomNameLines, '<' ∉ line.toList := by
  simp only [roomNameLines, List.forall_mem_cons, List.not_mem_nil, false_implies, implies_true,
    and_true]
  and_intros <;> exact not_mem_ofList (by decide)

/-- Data that cannot be taken for a start tag of a widget, wherever a node with it stands, and that
ends where it is written to end. -/
def NodeData.IsQuiet : NodeData → Prop
  | .element e =>
    isQuiet e.tag.toList ∧ isHarmless e.tag ∧ e.isWhole ∧ ∀ pair ∈ e.attributes, isQuiet pair.1.toList
  | .text content => '<' ∉ content.toList
  | _ => False

namespace Template

variable {a : Template}

/-- Names without such a start tag, and a text in which no tag begins. -/
theorem makes_isQuiet {tag : String} {names : List String} (ht : a.tag = tag)
    (hn : a.attributes.map Prod.fst = names)
    (h : isQuiet tag.toList ∧ isHarmless tag ∧ isTagName tag ∧
      names.all fun name => isQuiet name.toList && isTagWord name)
    (hx : ∀ text ∈ a.text, '<' ∉ text.toList) : a.Makes NodeData.IsQuiet := by
  subst ht hn
  obtain ⟨quiet, harmless, word, attributes⟩ := h
  have name (pair) (hp : pair ∈ a.attributes) : isQuiet pair.1.toList ∧ isTagWord pair.1 :=
    Bool.and_eq_true_iff.mp (List.all_eq_true.mp attributes _ (List.mem_map_of_mem hp))
  have whole : Element.isWhole ⟨a.tag, a.attributes⟩ :=
    Element.isWhole_iff.mpr ⟨word, fun pair hp => (name pair hp).2⟩
  exact ⟨⟨quiet, harmless, whole, fun pair hp => (name pair hp).1⟩, hx⟩

theorem makes_inlineScript {code : String} (h : '<' ∉ code.toList) :
    (inlineScript code).Makes NodeData.IsQuiet := by
  have names : (inlineScript code).attributes.map Prod.fst = [] := rfl
  refine makes_isQuiet (show (ofTag "script").tag = "script" by decide) names (by decide)
    fun text ht => ?_
  cases Option.some.inj ht
  exact h

theorem IsHead.makes (h : a.IsHead) : a.Makes NodeData.IsQuiet := by
  cases h with
  | roomName =>
    rw [roomNameScript]
    exact makes_inlineScript (not_mem_intercalate (by decide) lt_not_mem_roomNameLines)
  | source =>
    exact makes_isQuiet (show (ofTag "script").tag = "script" by decide) rfl
      (show _ ∧ _ ∧ _ ∧ ["src"].all _ by decide) fun _ ht => absurd ht (Option.not_mem_none _)
  | style =>
    exact makes_isQuiet (show (ofTag "link").tag = "link" by decide) rfl
      (show _ ∧ _ ∧ _ ∧ ["rel", "href"].all _ by decide) fun _ ht => absurd ht (Option.not_mem_none _)

end Template

theorem WidgetDescriptor.makes_templates {m : WidgetMarkup} {w : WidgetDescriptor} {a : Template}
    (h : m.Describes w) (ha : a ∈ w.templates) : a.Makes NodeData.IsQuiet := by
  rcases mem_templates.mp ha with hc | rfl
  · rw [container?] at hc
    split at hc
    next => cases hc
    next =>
      cases Option.some.inj hc
      exact Template.makes_isQuiet (show (Template.ofTag "div").tag = "div" by decide) rfl
        (show _ ∧ _ ∧ _ ∧ ["id", "class"].all _ by decide) fun _ ht => absurd ht (Option.not_mem_none _)
  · exact Template.makes_inlineScript (lt_not_mem_script h)

namespace Tree

variable {t t' : Tree} {id : NodeId} {data : NodeData}

theorem unmistakable_of_isQuiet (h : ∀ data, t.data? id = some data → data.IsQuiet) :
    t.Unmistakable id := by
  cases hd : t.data? id with
  | none =>
    refine ⟨fun text hm => ?_, fun e he => ?_⟩
    · rw [Tree.verbatim, hd] at hm
      cases hm
    · rw [element?, hd] at he
      cases he
  | some data =>
    have hq := h data hd
    cases data with
    | element e =>
      refine ⟨fun text hm => ?_, fun e' he => ?_⟩
      · rw [Tree.verbatim, hd] at hm
        rcases List.mem_cons.mp hm with rfl | hm
        · exact hq.1
        · obtain ⟨pair, hp, rfl⟩ := List.mem_map.mp hm
          exact hq.2.2.2 pair hp
      · rw [element?, hd] at he
        cases Option.some.inj he
        exact hq.2.1
    | text content =>
      refine ⟨fun text hm => ?_, fun e' he => ?_⟩
      · rw [Tree.verbatim, hd] at hm
        dsimp only at hm
        split at hm
        · cases List.mem_singleton.mp hm
          exact isQuiet_of_not_mem hq
        · cases hm
      · rw [element?, hd] at he
        cases he
    | _ => exact hq.elim

theorem isWhole_of_isQuiet (h : ∀ data, t.data? id = some data → data.IsQuiet) : t.isWhole id := by
  rw [isWhole]
  cases hd : t.data? id with
  | none => rfl
  | some data =>
    have hq := h data hd
    cases data with
    | element e => exact hq.2.2.1
    | text content => exact Bool.or_eq_true_iff.mpr (.inr (isInertText_of_not_mem hq))
    | _ => exact hq.elim

/-- A node is written as it was if it and its parent are what they were. -/
structure SameWriting (t t' : Tree) (id : NodeId) : Prop where
  data : t'.data? id = t.data? id
  raw : (t'.parent? id).any t'.isRaw = (t.parent? id).any t.isRaw

theorem sameWriting (hd : t'.data? id = t.data? id) (hp : t'.parent? id = t.parent? id)
    (hr : ∀ p, t.parent? id = some p → t'.data? p = t.data? p) : t.SameWriting t' id := by
  refine ⟨hd, ?_⟩
  rw [hp]
  cases ht : t.parent? id with
  | none => rfl
  | some p => rw [Option.any_some, Option.any_some, isRaw, isRaw, tag?_congr (hr p ht)]

theorem SameWriting.verbatim (h : t.SameWriting t' id) : t'.verbatim id = t.verbatim id := by
  rw [Tree.verbatim, Tree.verbatim, h.data, h.raw]

theorem SameWriting.isWhole (h : t.SameWriting t' id) : t'.isWhole id = t.isWhole id := by
  rw [Tree.isWhole, Tree.isWhole, h.data, h.raw]

end Tree

namespace Document

variable {d : Document} {url : PageUrl} {s : Settings} {page : CompiledPage} {id : NodeId}

/-- What a page has to be written as it is has no start tag of a widget. -/
def isQuiet (d : Document) : Bool :=
  (d.tree.descendants Tree.root).all fun id =>
    (d.tree.verbatim id).all fun text => LivePages.isQuiet text.toList

/-- What a page has to be written as it is ends where it is written to end: names of tags, comments,
which may hold markup, and text in which no markup begins. -/
def isWhole (d : Document) : Bool :=
  (d.tree.descendants Tree.root).all d.tree.isWhole

theorem makes_additions (h : d.compile url s = .ok page) :
    ∀ a ∈ page.additions, a.Makes NodeData.IsQuiet := by
  simp only [CompiledPage.additions, List.forall_mem_append, List.forall_mem_flatMap]
  refine ⟨⟨fun a ha => (CompiledPage.isHead_of_mem ha).makes, ?_⟩, fun w hw a ha => ?_⟩
  · simp only [List.forall_mem_cons, List.not_mem_nil, false_implies, implies_true, and_true]
    exact ⟨Template.makes_inlineScript (by decide), Template.makes_inlineScript (by decide)⟩
  · obtain ⟨m, -, hm⟩ := exists_of_forall₂ (descriptors_compile h) hw
    exact WidgetDescriptor.makes_templates (WidgetMarkup.describes_descriptor hm) ha

/-- What the compiler adds to a page cannot be taken for a widget. -/
theorem isQuiet_new (h : d.compile url s = .ok page) (hid : d.tree.size ≤ id) :
    ∀ data, page.document.tree.data? id = some data → data.IsQuiet := by
  have names : Tree.sectionTags.all fun tag =>
      LivePages.isQuiet tag.toList && isHarmless tag && isTagName tag := by decide
  have sections (tag : String) (ht : tag ∈ Tree.sectionTags) : NodeData.IsQuiet (.element ⟨tag, []⟩) := by
    have hn := List.all_eq_true.mp names tag ht
    rw [Bool.and_eq_true, Bool.and_eq_true] at hn
    exact ⟨hn.1.1, hn.1.2, Element.isWhole_iff.mpr ⟨hn.2, fun _ hp => absurd hp List.not_mem_nil⟩,
      fun _ hp => absurd hp List.not_mem_nil⟩
  exact fun data => adds_compile sections h (makes_additions h) id data hid

/-- What is left of a page is written as it was. -/
theorem sameWriting_old (hd : d.WellFormed) (h : d.compile url s = .ok page) (hw : page.widgets ≠ [])
    (hr : page.document.tree.Below Tree.root id) (hid : id < d.tree.size) :
    d.tree.Below Tree.root id ∧ d.tree.SameWriting page.document.tree id := by
  obtain ⟨html, l, connection, ready, -, hs, hc⟩ := hd.compiled h hw
  have hh := hd.holds h hw
  obtain ⟨he, -⟩ := hd.extends_full
  have hlt : id < d.full.size := Nat.lt_of_lt_of_le hid he.size_le
  obtain ⟨hb, ha⟩ := hc.below_of_new hs (fun w => below_of_widget hh hs) hr hlt
  have hold : d.tree.Below Tree.root id := he.below_old hb hid
  have data {i : NodeId} (hi : i < d.tree.size) : page.document.tree.data? i = d.tree.data? i :=
    (hc.follows.laid.grown.data i (Nat.lt_of_lt_of_le hi he.size_le)).trans (he.data i hi)
  obtain ⟨p, hp, hm⟩ := hd.tree.mem_of_below hold
  have parent : d.tree.parent? id = some p := hd.tree.consistent.parent_of_mem hm
  refine ⟨hold, Tree.sameWriting (data hid) ?_ fun q hq => ?_⟩
  · rw [parent_eq_of_not_removed hs hc hlt ((not_removed_iff hs.wellFormed hc).mpr ha), parent]
    exact he.wellFormed.consistent.parent_of_mem (he.mem_children hm hp)
  · cases Option.some.inj (parent.symm.trans hq)
    exact data hp

/-- No element of a compiled page is a widget, or could be taken for one. -/
theorem isHarmless_compile (hd : d.WellFormed)
    (hn : d.tree.Named fun name => name ∈ WidgetKind.tags ∨ isHarmless name)
    (h : d.compile url s = .ok page) (hw : page.widgets ≠ []) (hr : page.document.tree.Below Tree.root id)
    {e : Element} (he : page.document.tree.element? id = some e) : isHarmless e.tag := by
  by_cases hid : id < d.tree.size
  · obtain ⟨html, l, connection, ready, -, hs, hc⟩ := hd.compiled h hw
    obtain ⟨-, same⟩ := sameWriting_old hd h hw hr hid
    refine (hn id e (Tree.element?_congr same.data ▸ he)).resolve_left fun ht => ?_
    refine not_isWidget_of_attached (hd.holds h hw) hs hc hr ⟨e.tag, ht, ?_⟩
    rw [Tree.tag?, he]
    rfl
  · refine (Tree.unmistakable_of_isQuiet (isQuiet_new h (Nat.le_of_not_lt hid))).tag e he

/-- The text of a compiled page is the markup of its tree. -/
theorem toList_html (hd : d.WellFormed) (h : d.compile url s = .ok page) (hw : page.widgets ≠ []) :
    page.html.toList =
      (page.document.tree.markup Tree.root).chars (page.document.tree.isRaw Tree.root) := by
  obtain ⟨html, l, connection, ready, -, hs, -⟩ := hd.compiled h hw
  have keeps := keeps_compile hd h hw
  have root : page.document.tree.data? Tree.root = some .document :=
    (keeps.data _ (.inl rfl)).trans hs.root
  have raw : page.document.tree.isRaw Tree.root = false := by
    rw [Tree.isRaw, Tree.tag?, Tree.element?, root]
    rfl
  rw [raw]
  exact keeps.wellFormed.toList_innerHtml Tree.root

/-- No start tag of a widget begins in the text of a compiled page. -/
theorem isQuiet_html (hd : d.WellFormed) (hq : d.isQuiet)
    (hn : d.tree.Named fun name => name ∈ WidgetKind.tags ∨ isHarmless name)
    (h : d.compile url s = .ok page) (hw : page.widgets ≠ []) : LivePages.isQuiet page.html.toList := by
  rw [toList_html hd h hw]
  refine (keeps_compile hd h hw).wellFormed.isQuiet_markup Tree.root fun id hr => ?_
  by_cases hid : id < d.tree.size
  · obtain ⟨hb, same⟩ := sameWriting_old hd h hw hr hid
    refine ⟨fun text ht => ?_, fun e he => isHarmless_compile hd hn h hw hr he⟩
    rw [same.verbatim] at ht
    exact List.all_eq_true.mp (List.all_eq_true.mp hq id (hd.tree.mem_descendants.mpr hb)) text ht
  · exact Tree.unmistakable_of_isQuiet (isQuiet_new h (Nat.le_of_not_lt hid))

/-- The text of a compiled page falls into whole pieces, among them no start tag of a widget. -/
theorem inPieces_html (hd : d.WellFormed) (hq : d.isWhole)
    (hn : d.tree.Named fun name => name ∈ WidgetKind.tags ∨ isHarmless name)
    (h : d.compile url s = .ok page) (hw : page.widgets ≠ []) :
    InPieces (· ∉ WidgetKind.tags) page.html.toList := by
  rw [toList_html hd h hw]
  refine (keeps_compile hd h hw).wellFormed.inPieces_markup Tree.root fun id hr => ⟨?_, fun e he => ?_⟩
  · by_cases hid : id < d.tree.size
    · obtain ⟨hb, same⟩ := sameWriting_old hd h hw hr hid
      rw [same.isWhole]
      exact List.all_eq_true.mp hq id (hd.tree.mem_descendants.mpr hb)
    · exact Tree.isWhole_of_isQuiet (isQuiet_new h (Nat.le_of_not_lt hid))
  · exact readName_not_mem_of_isHarmless (isHarmless_compile hd hn h hw hr he)

theorem named_text (url html : String) :
    (ofHtml url html).tree.Named fun name => name ∈ WidgetKind.tags ∨ isHarmless name :=
  named_ofHtml (by decide) yields_tagsNamed url fun _ _ _ _ hl => widget_or_harmless hl

end Document

namespace SiteBuild

variable {b b' c : SiteBuild} {url html output : String}

/-- A page without widgets is counted, and the build is otherwise as it was. -/
theorem compilePage_of_nil (c : SiteBuild)
    (h : (Document.ofHtml (PageUrl.ofText url).text html).widgets (.ofText url) = []) :
    c.compilePage url html = .ok ({ c with pagesCompiled := c.pagesCompiled + 1 }, html) := by
  rw [compilePage, compileDocument, Document.compile_of_nil h]
  rfl

/-- The text of a compiled page is compiled to itself: it has no widgets, in any build. -/
theorem compilePage_idempotent
    (quiet : (Document.ofHtml (PageUrl.ofText url).text html).isQuiet ∨
      (Document.ofHtml (PageUrl.ofText url).text html).isWhole)
    (h : b.compilePage url html = .ok (b', output)) (c : SiteBuild) :
    c.compilePage url output = .ok ({ c with pagesCompiled := c.pagesCompiled + 1 }, output) := by
  obtain ⟨⟨build, page⟩, hd, he⟩ := bind_eq_ok.mp h
  obtain ⟨hp, -⟩ := compileDocument_eq_ok.mp hd
  have hf := Document.wellFormed_ofHtml (PageUrl.ofText url).text html
  have names := Document.named_text (PageUrl.ofText url).text html
  have ho : output = if page.isInteractive then page.html else html :=
    (congrArg Prod.snd (Except.ok.inj he)).symm
  refine compilePage_of_nil c ?_
  by_cases hw : page.widgets = []
  · -- A page without widgets is given back, so it is the same page once more.
    rw [ho, if_neg (mt CompiledPage.isInteractive_iff.mp (not_not.mpr hw))]
    rcases Document.compile_cases hp with ⟨none, -⟩ | ⟨some, -, descriptors, -⟩
    · exact none
    · rw [hw, List.forall₂_nil_right_iff] at descriptors
      exact absurd descriptors some
  · rw [ho, if_pos (CompiledPage.isInteractive_iff.mpr hw)]
    rcases quiet with quiet | whole
    · exact Document.widgets_ofHtml_of_quiet (Document.isQuiet_html hf quiet names hp hw) _ _
    · have pieces := Document.inPieces_html hf whole names hp hw
      exact Document.widgets_ofHtml_of_yields yields_inPieces pieces.dropByteOrderMark.normalizeLineEnds _ _

/-- A page with a button, and with a comment and a text that have others in them. -/
def quotedButtons : String :=
  "<!-- was: <p><x-button name=a command=ls image=alpine label=b></x-button></p> -->" ++
  "<p>&#60;x-button&#62;</p><x-button name=a command=ls image=alpine label=b></x-button>"

theorem compilePage_idempotent_quotedButtons :
    ((Document.ofHtml (PageUrl.ofText "/").text quotedButtons).isQuiet ∨
      (Document.ofHtml (PageUrl.ofText "/").text quotedButtons).isWhole) ∧ ∃ b output,
      (start .default).compilePage "/" quotedButtons = .ok (b, output) ∧
      (start .default).compilePage "/" output =
        .ok ({ start .default with pagesCompiled := 1 }, output) := by
  have whole : (Document.ofHtml (PageUrl.ofText "/").text quotedButtons).isWhole := by
    unfold quotedButtons
    rw [Document.ofHtml_append]
    decide +kernel
  obtain ⟨⟨b, output⟩, h, -⟩ : ∃ r, (start .default).compilePage "/" quotedButtons = .ok r ∧ true := by
    refine exists_ok (p := fun _ => true) ?_
    unfold quotedButtons
    rw [compilePage, Document.ofHtml_append]
    decide +kernel
  exact ⟨.inr whole, b, output, h, compilePage_idempotent (.inr whole) h (start .default)⟩

end SiteBuild

end LivePages
