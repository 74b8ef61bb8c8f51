import LivePages.Proofs.Site.Run
import LivePages.Proofs.Widget.Defining

namespace LivePages

/-- Different texts have different digests. -/
def DigestsDiffer (texts : List String) : Prop :=
  ∀ a ∈ texts, ∀ b ∈ texts, digest (bytesOf a) = digest (bytesOf b) → a = b

namespace Document

variable {d : Document} {url : PageUrl} {s : Settings} {page : CompiledPage}

/-- The texts whose digests are the generated names of a page. -/
def hashedTexts (d : Document) (url : PageUrl) (s : Settings) : List String :=
  (d.widgets url).filterMap fun m => m.hashedText? s

/-- An author has chosen one name for two widgets. -/
def SharesToken (d : Document) (url : PageUrl) : Prop :=
  ∃ m₁ ∈ d.widgets url, ∃ m₂ ∈ d.widgets url, m₁.position ≠ m₂.position ∧
    ∃ token, m₁.explicitName? = some token ∧ m₂.explicitName? = some token

theorem positions_compile (h : d.compile url s = .ok page) :
    page.widgets.map WidgetDescriptor.position = List.range page.widgets.length := by
  have hf := descriptors_compile h
  rw [← hf.length_eq, ← positions_widgets, ← List.forall₂_eq_eq_eq, List.forall₂_map_left_iff,
    List.forall₂_map_right_iff]
  exact hf.flip.imp fun w m hw => (WidgetMarkup.describes_descriptor hw).position

theorem position_lt_compile (h : d.compile url s = .ok page) :
    page.widgets.Pairwise fun v w => v.position < w.position := by
  rw [← List.pairwise_map, positions_compile h]
  exact List.pairwise_lt_range

/-- The markup that a widget of a compiled page was made from. -/
theorem markup_compile (h : d.compile url s = .ok page) {w : WidgetDescriptor}
    (hw : w ∈ page.widgets) :
    ∃ m ∈ d.widgets url, w.position = m.position ∧ m.Names s w.name := by
  obtain ⟨m, hm, hd⟩ := exists_of_forall₂ (descriptors_compile h) hw
  exact ⟨m, hm, (WidgetMarkup.describes_descriptor hd).position, WidgetMarkup.names_descriptor hd⟩

theorem widget_compile (h : d.compile url s = .ok page) {m : WidgetMarkup}
    (hm : m ∈ d.widgets url) : ∃ w ∈ page.widgets, w.position = m.position ∧ m.Names s w.name := by
  obtain ⟨w, hw, hd⟩ := exists_of_forall₂ (descriptors_compile h).flip hm
  exact ⟨w, hw, (WidgetMarkup.describes_descriptor hd).position, WidgetMarkup.names_descriptor hd⟩

end Document

namespace CompiledPage

variable {page : CompiledPage} {w : WidgetDescriptor}

/-- An earlier widget of the page has the name of a widget. -/
def Repeats (page : CompiledPage) (w : WidgetDescriptor) : Prop :=
  w ∈ page.widgets ∧ ∃ v ∈ page.widgets, v.position < w.position ∧ v.name = w.name

/-- The first widget whose name an earlier one has. -/
def FirstRepeat (page : CompiledPage) (w : WidgetDescriptor) : Prop :=
  page.Repeats w ∧ ∀ u, page.Repeats u → w.position ≤ u.position

theorem firstRepeat_of_append {before after : List WidgetDescriptor}
    (hp : page.widgets.Pairwise fun v w => v.position < w.position)
    (hw : page.widgets = before ++ w :: after) (hn : (before.map WidgetDescriptor.name).Nodup)
    (hm : w.name ∈ before.map WidgetDescriptor.name) : page.FirstRepeat w := by
  rw [hw, List.pairwise_append, List.pairwise_cons] at hp
  obtain ⟨hb, ⟨hafter, -⟩, hbefore⟩ := hp
  obtain ⟨v, hv, hvw⟩ := List.mem_map.mp hm
  refine ⟨⟨?_, v, ?_, hbefore v hv w List.mem_cons_self, hvw⟩, fun u ⟨hu, v', hv', hlt, he⟩ => ?_⟩
  · rw [hw]
    exact List.mem_append_right _ List.mem_cons_self
  · rw [hw]
    exact List.mem_append_left _ hv
  · by_contra hlt'
    have early {x : WidgetDescriptor} (hx : x ∈ page.widgets) (h : x.position < w.position) :
        x ∈ before := by
      rw [hw] at hx
      rcases List.mem_append.mp hx with hx | hx
      · exact hx
      · rcases List.mem_cons.mp hx with rfl | hx
        · omega
        · have := hafter x hx
          omega
    -- Both stand before the first widget that is refused.
    have hu := early hu (by omega)
    have hv' := early hv' (by omega)
    cases List.inj_on_of_nodup_map hn hv' hu he
    omega

end CompiledPage

namespace Document

variable {d : Document} {url : PageUrl} {s : Settings} {page : CompiledPage}

/-- Two widgets of a page share a name if an author has chosen it for both. -/
theorem name_eq_iff (hu : url.Proper) (hash : DigestsDiffer (d.hashedTexts url s))
    {m₁ m₂ : WidgetMarkup} (hm₁ : m₁ ∈ d.widgets url) (hm₂ : m₂ ∈ d.widgets url)
    (hp : m₁.position ≠ m₂.position) {n₁ n₂ : String} (h₁ : m₁.Names s n₁) (h₂ : m₂.Names s n₂) :
    n₁ = n₂ ↔ ∃ token, m₁.explicitName? = some token ∧ m₂.explicitName? = some token := by
  have page₁ := WidgetMarkup.page_of_mem_ofElements hm₁
  have page₂ := WidgetMarkup.page_of_mem_ofElements hm₂
  exact WidgetMarkup.name_eq_iff_chosen h₁ h₂ (page₁ ▸ hu) (page₁.trans page₂.symm) hp
    fun a ha b hb => hash a (List.mem_filterMap.mpr ⟨m₁, hm₁, ha⟩) b
      (List.mem_filterMap.mpr ⟨m₂, hm₂, hb⟩)

theorem nodup_names_iff (h : d.compile url s = .ok page) (hu : url.Proper)
    (hash : DigestsDiffer (d.hashedTexts url s)) :
    (page.widgets.map WidgetDescriptor.name).Nodup ↔ ¬ d.SharesToken url := by
  constructor
  · rintro hn ⟨m₁, hm₁, m₂, hm₂, hp, hs⟩
    obtain ⟨v, hv, pv, nv⟩ := widget_compile h hm₁
    obtain ⟨w, hw, pw, nw⟩ := widget_compile h hm₂
    have he := (name_eq_iff hu hash hm₁ hm₂ hp nv nw).mpr hs
    rw [← pv, ← pw] at hp
    exact hp (congrArg _ (List.inj_on_of_nodup_map hn hv hw he))
  · intro hs
    refine List.pairwise_map.mpr ((position_lt_compile h).imp_of_mem fun hv hw hlt he => hs ?_)
    obtain ⟨m₁, hm₁, p₁, n₁⟩ := markup_compile h hv
    obtain ⟨m₂, hm₂, p₂, n₂⟩ := markup_compile h hw
    have hp : m₁.position ≠ m₂.position := by
      rw [← p₁, ← p₂]
      exact hlt.ne
    exact ⟨m₁, hm₁, m₂, hm₂, hp, (name_eq_iff hu hash hm₁ hm₂ hp n₁ n₂).mp he⟩

end Document

namespace ExecutionPlan

variable {p : ExecutionPlan} {page : CompiledPage} {s s' : Settings}

/-- A plan without a room for a page takes the page unless an author has chosen one name twice, as
long as the digest tells the texts under it apart. It is the first widget with the name of an
earlier one that is refused. -/
theorem duplicate_addPage {url : String} {d : Document}
    (h : d.compile (.ofText url) s = .ok page)
    (hr : p.room? (PageUrl.ofText url).text = none)
    (hash : DigestsDiffer (d.hashedTexts (.ofText url) s)) :
    ((∃ e, p.addPage page s' = .error e) ↔ d.SharesToken (.ofText url)) ∧
      (∀ e, p.addPage page s' = .error e → ∃ w, page.FirstRepeat w ∧
        e = ⟨w.kind, .ofText url, w.position, .duplicateName w.name⟩) ∧
      ((∀ m ∈ d.widgets (.ofText url), m.explicitName? = none) →
        ∃ p', p.addPage page s' = .ok p') := by
  have he : p.executorsAt page.url.text = .empty := by
    rw [Document.url_compile h, executorsAt_of_none hr]
  have hok : (∃ p', p.addPage page s' = .ok p') ↔ ¬ d.SharesToken (.ofText url) := by
    rw [exists_addPage_iff, he]
    exact Document.nodup_names_iff h (PageUrl.proper_ofText url) hash
  refine ⟨?_, fun e h' => ?_, fun ha => hok.mpr ?_⟩
  · rw [← not_iff_not, ← hok]
    cases p.addPage page s' with
    | error e => simp
    | ok p' => simp
  · have h' := addPage_eq_error h'
    rw [he] at h'
    obtain ⟨before, w, after, hw, hn, hm, rfl⟩ := addExecutors_eq_error h'
    have hmem : w ∈ page.widgets := hw ▸ List.mem_append_right _ List.mem_cons_self
    have hpage := Document.page_of_mem_widgets h hmem
    exact ⟨w, CompiledPage.firstRepeat_of_append (Document.position_lt_compile h) hw hn hm,
      by rw [hpage]⟩
  · rintro ⟨m, hm, -, -, -, token, ht, -⟩
    rw [ha m hm] at ht
    cases ht

/-- A page with two terminals alike and without names, then a button and a terminal of one name. -/
def namesakePage : Document :=
  let terminal := [("command", "sh"), ("image", "alpine")]
  .ofNodes "/" [(0, .element ⟨"html", []⟩), (1, .element ⟨"body", []⟩),
    (2, .element ⟨"x-terminal", terminal⟩), (2, .element ⟨"x-terminal", terminal⟩),
    (2, .element ⟨"x-button",
      [("name", "a"), ("command", "ls"), ("image", "alpine"), ("label", "List")]⟩),
    (2, .element ⟨"x-terminal", ("name", "a") :: terminal⟩)]

theorem duplicate_namesakePage : ∃ page, namesakePage.compile (.ofText "/") .default = .ok page ∧
    (ofSettings .default).room? (PageUrl.ofText "/").text = none ∧
    DigestsDiffer (namesakePage.hashedTexts (.ofText "/") .default) ∧
    (∃ e, (ofSettings .default).addPage page .default = .error e) ∧
    ∀ e, (ofSettings .default).addPage page .default = .error e → ∃ w, page.FirstRepeat w ∧
      e = ⟨w.kind, .ofText "/", w.position, .duplicateName w.name⟩ := by
  obtain ⟨page, h, -⟩ : ∃ page, namesakePage.compile (.ofText "/") .default = .ok page ∧
      page.isInteractive :=
    exists_ok (by decide +kernel)
  have hr : (ofSettings .default).room? (PageUrl.ofText "/").text = none := TextMap.lookup_empty _
  have hash : DigestsDiffer (namesakePage.hashedTexts (.ofText "/") .default) := by
    unfold DigestsDiffer
    decide +kernel
  have shared : ∃ m₁ ∈ namesakePage.widgets (.ofText "/"), ∃ m₂ ∈ namesakePage.widgets (.ofText "/"),
      m₁.position ≠ m₂.position ∧ m₁.explicitName? = some "a" ∧ m₂.explicitName? = some "a" := by
    decide +kernel
  obtain ⟨m₁, hm₁, m₂, hm₂, hp, ht⟩ := shared
  obtain ⟨hiff, herr, -⟩ := duplicate_addPage h hr hash
  exact ⟨page, h, hr, hash, hiff.mpr ⟨m₁, hm₁, m₂, hm₂, hp, "a", ht⟩, herr⟩

end ExecutionPlan

end LivePages
