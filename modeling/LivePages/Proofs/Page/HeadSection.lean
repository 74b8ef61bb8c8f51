import LivePages.Proofs.Page.Discovery

namespace LivePages

namespace Template

theorem Agrees.trans {a b c : Template} (h : a.Agrees b) (h' : b.Agrees c) : a.Agrees c :=
  ⟨h.tag.trans h'.tag, h.attributes.trans h'.attributes, h.text.trans h'.text⟩

theorem Agrees.congr {a b : Template} (h : a.Agrees b) (c : Template) : c.Agrees a ↔ c.Agrees b :=
  ⟨fun h' => h'.trans h, fun h' => h'.trans h.symm⟩

/-- Where additions are seen, what is lacking is added once. -/
theorem countP_lacking {present : Template → Bool}
    (hp : ∀ a b, a.Agrees b → present a = present b) (as : List Template) (a : Template) :
    ((lacking true present as).countP fun b => b.Agrees a) =
      if present a = false ∧ ∃ b ∈ as, b.Agrees a then 1 else 0 := by
  induction as generalizing present with
  | nil => simp [lacking]
  | cons b as ih =>
    rw [lacking]
    simp only [List.exists_mem_cons_iff]
    cases hb : present b with
    | true =>
      rw [if_pos rfl, ih hp]
      refine if_congr (and_congr_right fun ha => ?_) rfl rfl
      exact (or_iff_right fun hba => by rw [hp b a hba, ha] at hb; cases hb).symm
    | false =>
      have hp' (c d : Template) (h : c.Agrees d) :
          (present c || true && decide (b.Agrees c)) = (present d || true && decide (b.Agrees d)) := by
        rw [hp c d h, decide_eq_decide.mpr (h.congr b)]
      rw [if_neg Bool.false_ne_true, List.countP_cons, ih hp']
      by_cases hba : b.Agrees a
      · have ha : present a = false := hp b a hba ▸ hb
        simp [hba, ha]
      · simp [hba]

end Template

namespace Tree

variable {t t' : Tree} {p q : NodeId} {tag : String}

theorem Gains.matchCount_eq (h : t.Gains p tag t') (hw : t.WellFormed) (hq : q < t.size) (hne : q ≠ p)
    (hp : p ∉ t.children q) (a : Template) : t'.matchCount q a = t.matchCount q a := by
  rw [matchCount, matchCount, h.others q hq hne]
  refine List.countP_congr fun c hc => ?_
  have hlt := hw.consistent.lt_size hc
  have hcp : c ≠ p := fun e => hp (e ▸ hc)
  rw [matchesTemplate_congr (h.grows.data c hlt) (h.others c hlt hcp) fun x hx =>
    h.grows.data x (hw.consistent.lt_size hx)]

theorem Gains.matchCount_new (h : t.Gains p tag t') (a : Template) : t'.matchCount t.size a = 0 := by
  rw [matchCount, List.countP_eq_zero]
  intro c hc hm
  obtain ⟨e, he, -⟩ := element?_of_matches hm
  have ht := h.texts c hc
  rw [text?_of_element? he] at ht
  cases ht

/-- New nodes are no comments, so the first comment of a kind stays the first. -/
theorem Extends.findComment?_eq (h : t.Extends t') (hw : t.WellFormed) (hp : p < t.size)
    (test : String → Bool) : t'.findComment? p test = t.findComment? p test := by
  let found (s : Tree) (id : NodeId) : Bool := ((s.comment? id).map test).getD false
  have hf (s : Tree) : s.findComment? p test = (s.descendants p).find? (found s) := by
    refine congrArg (List.find? · _) (funext fun id => ?_)
    simp only [found]
    cases s.comment? id <;> rfl
  have hold : found t' = fun c => decide (decide (c < t.size) = true ∧ found t c = true) := by
    funext c
    by_cases hc : c < t.size
    · simp [found, hc, comment?_congr (h.data c hc)]
    · simp [found, hc, h.silent c (Nat.le_of_not_lt hc)]
  have hnew : found t = fun c => decide (decide (c < t.size) = true ∧ found t c = true) := by
    funext c
    by_cases hc : c < t.size
    · simp [hc]
    · simp [found, hc, comment?, data?_eq_none (Nat.le_of_not_lt hc)]
  have hd := h.filter_descendants hw (f := fun c => c < t.size)
    (fun q hq => decide_eq_false (Nat.not_lt.mpr hq)) hp
  rw [hf, hf, hold, ← List.find?_filter, hd, List.find?_filter, ← hnew]

theorem Extends.findComment?_new (h : t.Extends t') (hp : t.size ≤ p) (test : String → Bool) :
    t'.findComment? p test = none := by
  refine List.find?_eq_none.mpr fun c hc => ?_
  rw [h.silent c (h.above_new (h.wellFormed.mem_descendants.mp hc) hp)]
  exact Bool.false_ne_true

end Tree

namespace Document

variable {d : Document} {url : PageUrl} {s : Settings} {page : CompiledPage} {html head : NodeId}

/-- How many children of the head match a template; none if there is no head. -/
def headCount (d : Document) (a : Template) : Nat :=
  (d.head.map fun head => d.tree.matchCount head a).getD 0

theorem headCount_congr {a b : Template} (h : a.Agrees b) : d.headCount a = d.headCount b := by
  rw [headCount, headCount]
  refine congrArg (fun f => (d.head.map f).getD 0) (funext fun head => List.countP_congr fun id _ => ?_)
  constructor
  · exact fun hm => (Tree.matches_iff_agrees hm).mpr h
  · exact fun hm => (Tree.matches_iff_agrees hm).mpr h.symm

/-- The first comment in the head that shows where an author wants the scripts. -/
def marker? (d : Document) : Option NodeId :=
  d.head.bind fun head => d.tree.findComment? head isMarkerComment

theorem ensureHead_of_none (h : d.head = none) (hw : d.tree.WellFormed) (hp : html < d.tree.size) :
    (d.ensureHead html).2 = d.tree.size ∧
      d.tree.Gains html "head" (d.ensureHead html).1.tree := by
  rw [ensureHead, h]
  exact ⟨rfl, Tree.gains_prepend hw hp (by decide)⟩

theorem matchCount_ensureBody (hw : d.tree.WellFormed) (hs : d.tree.IsSection html "head" head)
    (a : Template) : (d.ensureBody html).1.tree.matchCount head a = d.tree.matchCount head a := by
  rw [ensureBody]
  split
  next => rfl
  next =>
    have ht : "body" ∈ Tree.sectionTags := by decide
    have hg := Tree.gains_append hw (hw.consistent.parent_lt_size hs.mem) ht
    refine hg.matchCount_eq hw (hw.consistent.lt_size hs.mem) (hw.ne_of_child hs.mem).symm
      (fun hm => ?_) a
    exact hw.acyclic html (.tail (.single hs.mem) hm)

theorem WellFormed.full_of_some (h : d.WellFormed) (hh : d.head = some head) :
    d.fullHead = head ∧ ∃ html, d.tree.IsSection html "head" head ∧
      d.full = (d.ensureBody html).1.tree := by
  obtain ⟨html, hs, hsec⟩ := h.sections.2.1 head hh
  have e : d.ensureHtml.1.ensureHead d.ensureHtml.2 = (d, head) := by
    rw [ensureHtml_of_some hs, ensureHead_of_some hh]
  refine ⟨congrArg Prod.snd e, html, hsec, ?_⟩
  have hf : d.full = ((d.ensureHtml.1.ensureHead d.ensureHtml.2).1.ensureBody d.ensureHtml.2).1.tree :=
    rfl
  rw [hf, e, ensureHtml_of_some hs]

theorem WellFormed.full_of_none (h : d.WellFormed) (hh : d.head = none) :
    d.tree.size ≤ d.fullHead ∧ ∀ a, d.full.matchCount d.fullHead a = 0 := by
  obtain ⟨e₁, s₁⟩ := ensureHtml_spec h.tree (Tree.lt_size_of_data? h.root) h.sections.1
  have w₁ := e₁.wellFormed
  have hh₁ : d.ensureHtml.1.head = none := (ensureHtml_head d).trans hh
  obtain ⟨hid, hg⟩ := ensureHead_of_none hh₁ w₁ (w₁.consistent.lt_size s₁.mem)
  have hid : d.fullHead = d.ensureHtml.1.tree.size := hid
  refine ⟨hid ▸ e₁.size_le, fun a => ?_⟩
  rw [hid]
  exact (matchCount_ensureBody hg.grows.wellFormed hg.isSection a).trans (hg.matchCount_new a)

theorem WellFormed.headCount_full (h : d.WellFormed) (a : Template) :
    d.full.matchCount d.fullHead a = d.headCount a := by
  cases hh : d.head with
  | none => rw [(h.full_of_none hh).2, headCount, hh]; rfl
  | some head =>
    obtain ⟨hf, html, hsec, ht⟩ := h.full_of_some hh
    rw [hf, ht, matchCount_ensureBody h.tree hsec, headCount, hh]
    rfl

theorem WellFormed.marker?_full (h : d.WellFormed) :
    d.full.findComment? d.fullHead isMarkerComment = d.marker? := by
  obtain ⟨he, -⟩ := h.extends_full
  cases hh : d.head with
  | none => rw [he.findComment?_new (h.full_of_none hh).1, marker?, hh]; rfl
  | some head =>
    obtain ⟨hf, html, hsec, -⟩ := h.full_of_some hh
    rw [hf, he.findComment?_eq h.tree (h.tree.consistent.lt_size hsec.mem), marker?, hh]
    rfl

/-- Whether the first marker in the head, if there is one, is a child of the head. -/
def MarkerInHead (d : Document) : Prop :=
  ∀ head, d.head = some head → ∀ m, d.marker? = some m → m ∈ d.tree.children head

theorem WellFormed.seen_iff (h : d.WellFormed) {l : Layout} (hl : l.head = d.fullHead)
    (hm : l.marker = d.full.findComment? l.head isMarkerComment) :
    l.seen d.full ↔ d.MarkerInHead := by
  obtain ⟨he, -⟩ := h.extends_full
  rw [hl, h.marker?_full] at hm
  rw [Layout.seen, hm, hl]
  cases hmk : d.marker? with
  | none => simp [MarkerInHead, hmk]
  | some m =>
    obtain ⟨head, hh, hf⟩ := Option.bind_eq_some_iff.mp hmk
    obtain ⟨hfull, html, hsec, -⟩ := h.full_of_some hh
    have hb := (Tree.findComment?_spec h.tree hf).1
    have hlt := h.tree.below_lt_size hb
    have hmem : m ∈ d.full.children head ↔ m ∈ d.tree.children head := by
      rw [← he.children head (h.tree.consistent.lt_size hsec.mem), List.mem_filter,
        decide_eq_true_iff]
      exact (and_iff_left hlt).symm
    simp [MarkerInHead, hh, hmk, hfull, hmem]

end Document

/-- What a page needs in its head: the session's scripts, then what each widget needs. -/
def CompiledPage.headTemplates (p : CompiledPage) : List Template :=
  p.url.sessionScripts ++ p.widgets.flatMap WidgetDescriptor.headTemplates

theorem CompiledPage.isHead_of_mem {p : CompiledPage} {a : Template} (h : a ∈ p.headTemplates) :
    a.IsHead := by
  rcases List.mem_append.mp h with h | h
  · exact isHead_of_mem_sessionScripts h
  · obtain ⟨w, -, h⟩ := List.mem_flatMap.mp h
    exact WidgetDescriptor.isHead_of_mem_headTemplates h

namespace Document

variable {d : Document} {url : PageUrl} {s : Settings} {page : CompiledPage}

section Counts

variable (hd : d.WellFormed) (h : d.compile url s = .ok page) (hw : page.widgets ≠ [])
include hd h hw

theorem WellFormed.headCount_eq : ∃ seen : Bool, (seen ↔ d.MarkerInHead) ∧
    ∀ a ∈ page.headTemplates, page.document.headCount a = d.headCount a +
      if seen then (Template.lacking seen (fun a => decide (0 < d.headCount a))
        page.headTemplates).countP fun b => b.Agrees a else 0 := by
  obtain ⟨-, -, hp⟩ := of_compile h hw
  obtain ⟨html, l, connection, ready, hl, hs, hc⟩ := hd.compiled h hw
  have hhead : page.document.head = some d.fullHead :=
    (congrArg (fun p : CompiledPage => p.document.head) hp).trans (ensureStructure_known d).2.1
  have hurl : page.url = url := congrArg CompiledPage.url hp
  have hpres : d.full.containsTemplate l.head = fun a => decide (0 < d.headCount a) := by
    funext a
    rw [Bool.eq_iff_iff, decide_eq_true_iff, Tree.containsTemplate_iff, hl, hd.headCount_full]
  refine ⟨l.seen d.full, hd.seen_iff hl hc.marker, fun a ha => ?_⟩
  have hn := hc.follows.matchCount_eq hs (CompiledPage.isHead_of_mem ha)
  have hcount : page.document.headCount a = page.document.tree.matchCount d.fullHead a := by
    rw [headCount, hhead]
    rfl
  have hadd := hc.follows.added
  rw [hpres, ← hurl, ← CompiledPage.headTemplates] at hadd
  rw [hl, hd.headCount_full] at hn
  rw [hcount, hn, ← hadd, List.countP_map]
  rfl

/-- With the marker in its place, everything that the page needs is in the head, and nothing is
there twice that has not been before. -/
theorem WellFormed.headCount_of_markerInHead (hm : d.MarkerInHead) {a : Template}
    (ha : a ∈ page.headTemplates) : page.document.headCount a = max 1 (d.headCount a) := by
  obtain ⟨seen, hseen, hcount⟩ := hd.headCount_eq h hw
  have hex : ∃ b ∈ page.headTemplates, b.Agrees a := ⟨a, ha, .refl a⟩
  have hc (a b : Template) (hab : a.Agrees b) :
      decide (0 < d.headCount a) = decide (0 < d.headCount b) := by
    rw [headCount_congr hab]
  rw [hcount a ha, hseen.mpr hm, if_pos rfl, Template.countP_lacking hc]
  by_cases hpos : 0 < d.headCount a
  · rw [if_neg (by simp [hpos])]
    omega
  · rw [if_pos ⟨decide_eq_false hpos, hex⟩]
    omega

/-- With the marker deeper in the head, its children get nothing. -/
theorem WellFormed.headCount_of_not_markerInHead (hm : ¬ d.MarkerInHead) {a : Template}
    (ha : a ∈ page.headTemplates) : page.document.headCount a = d.headCount a := by
  obtain ⟨seen, hseen, hcount⟩ := hd.headCount_eq h hw
  rw [hcount a ha, if_neg (hseen.not.mpr hm), Nat.add_zero]

/-- Everything that a page needs is in its head, and nothing twice that has not been before,
exactly if the marker is a child of the head or nothing was lacking. -/
theorem headCount_compile :
    (∀ a ∈ page.headTemplates, 0 < page.document.headCount a ∧
        (d.headCount a ≤ 1 → page.document.headCount a = 1)) ↔
      d.MarkerInHead ∨ ∀ a ∈ page.headTemplates, 0 < d.headCount a := by
  by_cases hm : d.MarkerInHead
  · refine iff_of_true (fun a ha => ?_) (.inl hm)
    rw [hd.headCount_of_markerInHead h hw hm ha]
    omega
  · rw [or_iff_right hm]
    refine forall₂_congr fun a ha => ?_
    rw [hd.headCount_of_not_markerInHead h hw hm ha]
    omega

end Counts

/-- The marker is below a template in the head, and some files are there twice. -/
theorem headCount_labPage : ∃ page, labPage.compile .root .default = .ok page ∧
    page.widgets ≠ [] ∧ ¬ labPage.MarkerInHead ∧
    ¬ ∀ a ∈ page.headTemplates, 0 < page.document.headCount a ∧
      (labPage.headCount a ≤ 1 → page.document.headCount a = 1) := by
  obtain ⟨page, h, hw, -⟩ := compile_labPage
  have nested : ¬ labPage.MarkerInHead := by
    intro hm
    exact absurd (hm 2 (by decide +kernel) 4 (by decide +kernel)) (by decide +kernel)
  have needed : ¬ ∀ a ∈ page.headTemplates, 0 < labPage.headCount a := by
    intro hall
    obtain ⟨-, -, hp⟩ := of_compile h hw
    have url : page.url = .root := congrArg CompiledPage.url hp
    have none : ∀ a ∈ PageUrl.root.sessionScripts, labPage.headCount a = 0 := by decide +kernel
    obtain ⟨a, ha⟩ := List.exists_mem_of_ne_nil PageUrl.root.sessionScripts (by decide)
    have present := hall a (List.mem_append_left _ (url ▸ ha))
    rw [none a ha] at present
    exact absurd present (by decide)
  exact ⟨page, h, hw, nested, mt (headCount_compile (wellFormed_ofNodes "/" _) h hw).mp
    (not_or.mpr ⟨nested, needed⟩)⟩

end Document

end LivePages
