import LivePages.Proofs.Page.Discovery
import LivePages.Proofs.Text.Map

namespace LivePages

theorem map_bind {ε α β γ : Type} (x : Except ε α) (f : α → Except ε β) (g : β → γ) :
    (x >>= f).map g = x >>= fun a => (f a).map g := by
  cases x <;> rfl

theorem map_pure {ε α β : Type} (a : α) (g : α → β) :
    (pure a : Except ε α).map g = pure (g a) :=
  rfl

namespace WidgetDescriptor

/-- The widget at another node of a tree, or of another tree. -/
def movedTo (w : WidgetDescriptor) (node : NodeId) : WidgetDescriptor :=
  { w with node }

/-- What a widget is to its page, its visitors and its room, wherever its element is. -/
structure Alike (s : Settings) (w w' : WidgetDescriptor) : Prop where
  name : w.name = w'.name
  headTemplates : w.headTemplates = w'.headTemplates
  instantiation : w.instantiation = w'.instantiation
  container : w.container? = w'.container?
  assets : w.content.assets = w'.content.assets
  executor : w.executor s = w'.executor s

theorem alike_movedTo (s : Settings) (w : WidgetDescriptor) (node : NodeId) :
    w.Alike s (w.movedTo node) :=
  ⟨rfl, rfl, rfl, rfl, rfl, rfl⟩

end WidgetDescriptor

namespace WidgetMarkup

variable {s : Settings} {t : Tree} {page : PageUrl}

def movedTo (m : WidgetMarkup) (node : NodeId) : WidgetMarkup :=
  { m with node }

section Builders

variable (m : WidgetMarkup) (s : Settings) (node : NodeId)

@[simp] theorem require_movedTo (name : String) :
    (m.movedTo node).require name = m.require name :=
  rfl

@[simp] theorem attribute?_movedTo (name : String) :
    (m.movedTo node).attribute? name = m.attribute? name :=
  rfl

@[simp] theorem hasAttribute_movedTo (name : String) :
    (m.movedTo node).hasAttribute name = m.hasAttribute name :=
  rfl

@[simp] theorem workingDirectory?_movedTo :
    (m.movedTo node).workingDirectory? = m.workingDirectory? :=
  rfl

@[simp] theorem invalid_movedTo (name value : String) :
    (m.movedTo node).invalid name value = m.invalid name value :=
  rfl

@[simp] theorem count?_movedTo (name : String) :
    (m.movedTo node).count? name = m.count? name := by
  simp only [count?, attribute?_movedTo, invalid_movedTo]

@[simp] theorem amount?_movedTo (name : String) :
    (m.movedTo node).amount? name = m.amount? name := by
  simp only [amount?, attribute?_movedTo, invalid_movedTo]

@[simp] theorem limits_movedTo : (m.movedTo node).limits s = m.limits s := by
  simp only [limits, memoryLimit, cpuLimit, pidsLimit, count?_movedTo, amount?_movedTo]

@[simp] theorem successTimeout_movedTo : (m.movedTo node).successTimeout s = m.successTimeout s := by
  simp only [successTimeout, timeout, amount?_movedTo]

@[simp] theorem failureTimeout_movedTo : (m.movedTo node).failureTimeout s = m.failureTimeout s := by
  simp only [failureTimeout, timeout, amount?_movedTo]

@[simp] theorem assignName_movedTo (defining : List String) :
    (m.movedTo node).assignName defining = m.assignName defining :=
  rfl

@[simp] theorem runCommand_movedTo (limits : ResourceLimits) (name image command : String)
    (content : WidgetContent) : (m.movedTo node).runCommand limits name image command content =
      (m.runCommand limits name image command content).map (·.movedTo node) := by
  rw [runCommand, runCommand, map_bind]
  rfl

@[simp] theorem monitorFile_movedTo (limits : ResourceLimits)
    (name file success failure : String) (content : WidgetContent) :
    (m.movedTo node).monitorFile s limits name file success failure content =
      (m.monitorFile s limits name file success failure content).movedTo node :=
  rfl

/-- No kind of widget looks at the node of its markup. -/
theorem descriptor_movedTo :
    (m.movedTo node).descriptor s = (m.descriptor s).map (·.movedTo node) := by
  have kind : (m.movedTo node).kind = m.kind := rfl
  rw [descriptor, descriptor, kind]
  cases m.kind with
  | button => simp [button, map_bind]
  | epilogue => simp [stage, map_bind]
  | imageViewer => simp [-bind_pure_comp, imageViewer, map_bind, map_pure]
  | prologue => simp [stage, map_bind]
  | terminal => simp [terminal, map_bind]
  | textEditor => simp [-bind_pure_comp, textEditor, map_bind, map_pure]
  | textViewer => simp [-bind_pure_comp, textViewer, map_bind, map_pure]

end Builders

/-- A markup has what its element has, and its place in the list. -/
theorem getElem?_ofElements {l : List NodeId} (h : ∀ id ∈ l, t.IsWidget id) (start i : Nat) :
    (ofElements t page start l)[i]? = l[i]?.bind fun id =>
      ((t.tag? id).bind WidgetKind.ofTag?).map fun kind =>
        ⟨kind, page, start + i, .ofList (t.attributes id), id⟩ := by
  induction l generalizing start i with
  | nil => rfl
  | cons id l ih =>
    rw [List.forall_mem_cons] at h
    obtain ⟨kind, hk⟩ := Option.isSome_iff_exists.mp (Tree.isWidget_iff.mp h.1)
    rw [ofElements, hk]
    cases i with
    | zero => rw [List.getElem?_cons_zero, List.getElem?_cons_zero, Option.bind_some, hk]; rfl
    | succ i =>
      rw [List.getElem?_cons_succ, ih h.2, List.getElem?_cons_succ, Nat.add_right_comm,
        Nat.add_assoc]

end WidgetMarkup

namespace Tree

variable {t t' : Tree} {id id' : NodeId}

/-- The value that an element gives to a name; of several values the last counts. -/
def value? (t : Tree) (id : NodeId) (name : String) : Option String :=
  (t.attributes id).reverse.lookup name

/-- Two elements, of one tree or of two, have the same tag and the same values. -/
structure SameMarkup (t : Tree) (id : NodeId) (t' : Tree) (id' : NodeId) : Prop where
  tag : t.tag? id = t'.tag? id'
  values : ∀ name, t.value? id name = t'.value? id' name

theorem SameMarkup.attributes (h : t.SameMarkup id t' id') :
    TextMap.ofList (t.attributes id) = TextMap.ofList (t'.attributes id') := by
  refine TextMap.eq_of_lookup fun name => ?_
  rw [TextMap.lookup_ofList, TextMap.lookup_ofList]
  exact h.values name

/-- An author may write attributes in any order. -/
theorem sameMarkup_of_perm (ht : t.tag? id = t'.tag? id')
    (ha : (t.attributes id).Perm (t'.attributes id'))
    (hn : ((t.attributes id).map Prod.fst).Nodup) : t.SameMarkup id t' id' where
  tag := ht
  values name := by
    rw [value?, value?, ← TextMap.lookup_ofList, ← TextMap.lookup_ofList,
      TextMap.ofList_of_perm ha hn]

end Tree

namespace Document

variable {d d₁ d₂ : Document} {url : PageUrl} {s : Settings} {i : Nat} {n n₁ n₂ : NodeId}

/-- The elements of a page that stand for widgets, each one before what is below it. -/
def widgetElements (d : Document) : List NodeId :=
  (d.tree.preorder d.tree.size Tree.root).filter fun id => d.tree.IsWidget id

theorem WellFormed.widgetElements_eq (h : d.WellFormed) :
    d.widgetElements = d.tree.elementsNamed Tree.root WidgetKind.tags := by
  rw [Tree.elementsNamed_tags, h.tree.descendants_eq_preorder, widgetElements]

/-- The markup at an element has the element's kind, values and index, and knows nothing else of
its page. -/
theorem WellFormed.getElem?_widgets (h : d.WellFormed) (e : d.widgetElements[i]? = some n)
    (url : PageUrl) : ∃ kind, (d.tree.tag? n).bind WidgetKind.ofTag? = some kind ∧
      (d.widgets url)[i]? = some ⟨kind, url, i, .ofList (d.tree.attributes n), n⟩ := by
  rw [h.widgetElements_eq] at e
  have hw := Tree.isWidget_of_mem_elementsNamed (List.mem_of_getElem? e)
  obtain ⟨kind, hk⟩ := Option.isSome_iff_exists.mp (Tree.isWidget_iff.mp hw)
  refine ⟨kind, hk, ?_⟩
  rw [widgets, WidgetMarkup.getElem?_ofElements fun _ => Tree.isWidget_of_mem_elementsNamed, e,
    Option.bind_some, hk, Option.map_some, Nat.zero_add]

theorem getElem?_compile {page : CompiledPage} {m : WidgetMarkup} (h : d.compile url s = .ok page)
    (hm : (d.widgets url)[i]? = some m) :
    ∃ w, page.widgets[i]? = some w ∧ m.descriptor s = .ok w := by
  have hf := descriptors_compile h
  obtain ⟨hi, rfl⟩ := List.getElem?_eq_some_iff.mp hm
  have hi' : i < page.widgets.length := hf.length_eq ▸ hi
  exact ⟨_, List.getElem?_eq_getElem hi', hf.get hi hi'⟩

/-- Where two pages have the same markup at the same index, it makes the same widget or fails with
the same error, whatever else is on the pages. The widgets differ in nothing but the numbers of
their nodes, also when both pages have been compiled. -/
theorem descriptor_of_sameMarkup (h₁ : d₁.WellFormed) (h₂ : d₂.WellFormed)
    (e₁ : d₁.widgetElements[i]? = some n₁) (e₂ : d₂.widgetElements[i]? = some n₂)
    (h : d₁.tree.SameMarkup n₁ d₂.tree n₂) (url : PageUrl) (s : Settings) :
    ∃ m₁ m₂, (d₁.widgets url)[i]? = some m₁ ∧ (d₂.widgets url)[i]? = some m₂ ∧
      m₁.node = n₁ ∧ m₂.node = n₂ ∧
      m₂.descriptor s = (m₁.descriptor s).map (·.movedTo n₂) ∧
      (∀ w₁ w₂, m₁.descriptor s = .ok w₁ → m₂.descriptor s = .ok w₂ → w₁.Alike s w₂) ∧
      ∀ page₁ page₂, d₁.compile url s = .ok page₁ → d₂.compile url s = .ok page₂ →
        ∃ w, page₁.widgets[i]? = some w ∧ page₂.widgets[i]? = some (w.movedTo n₂) := by
  obtain ⟨k₁, hk₁, hm₁⟩ := h₁.getElem?_widgets e₁ url
  obtain ⟨k₂, hk₂, hm₂⟩ := h₂.getElem?_widgets e₂ url
  have kind : k₁ = k₂ := by
    rw [h.tag, hk₂] at hk₁
    exact (Option.some.inj hk₁).symm
  rw [← kind, ← h.attributes] at hm₂
  have moved := WidgetMarkup.descriptor_movedTo
    ⟨k₁, url, i, .ofList (d₁.tree.attributes n₁), n₁⟩ s n₂
  refine ⟨_, _, hm₁, hm₂, rfl, rfl, moved, fun w₁ w₂ hw₁ hw₂ => ?_, fun page₁ page₂ hp₁ hp₂ => ?_⟩
  · rw [hw₁] at moved
    cases hw₂.symm.trans moved
    exact w₁.alike_movedTo s n₂
  · obtain ⟨w₁, hi₁, hw₁⟩ := getElem?_compile hp₁ hm₁
    obtain ⟨w₂, hi₂, hw₂⟩ := getElem?_compile hp₂ hm₂
    rw [hw₁] at moved
    cases hw₂.symm.trans moved
    exact ⟨w₁, hi₁, hi₂⟩

/-- The button of another page, its attributes in another order and a terminal without an image
behind it. -/
def buttonBeforeTerminal : Document :=
  ofNodes "/" [(0, .element ⟨"html", []⟩), (1, .element ⟨"body", []⟩), (2, .text "Look:"),
    (2, .element ⟨"div", []⟩),
    (3, .element ⟨"x-button",
      [("label", "List"), ("image", "alpine"), ("name", "a"), ("command", "ls")]⟩),
    (2, .element ⟨"x-terminal", [("command", "sh")]⟩)]

theorem descriptor_buttonBeforeTerminal : ∃ n₁ n₂,
    buttonPage.widgetElements[0]? = some n₁ ∧ buttonBeforeTerminal.widgetElements[0]? = some n₂ ∧
    n₁ ≠ n₂ ∧ buttonPage.tree.SameMarkup n₁ buttonBeforeTerminal.tree n₂ ∧
    ∃ m₁ m₂, (buttonPage.widgets .root)[0]? = some m₁ ∧
      (buttonBeforeTerminal.widgets .root)[0]? = some m₂ ∧
      m₂.descriptor .default = (m₁.descriptor .default).map (·.movedTo n₂) ∧
      ∃ w, m₁.descriptor .default = .ok w := by
  have e₁ : buttonPage.widgetElements[0]? = some 4 := by decide +kernel
  have e₂ : buttonBeforeTerminal.widgetElements[0]? = some 5 := by decide +kernel
  have same : buttonPage.tree.SameMarkup 4 buttonBeforeTerminal.tree 5 :=
    Tree.sameMarkup_of_perm (by decide +kernel) (by decide +kernel) (by decide +kernel)
  obtain ⟨m₁, m₂, hm₁, hm₂, -, -, moved, -⟩ := descriptor_of_sameMarkup
    (wellFormed_ofNodes "/" _) (wellFormed_ofNodes "/" _) e₁ e₂ same .root .default
  obtain ⟨page, hp, -⟩ : ∃ page, buttonPage.compile .root .default = .ok page ∧
      page.isInteractive := exists_ok (by decide +kernel)
  obtain ⟨w, -, hw⟩ := getElem?_compile hp hm₁
  exact ⟨4, 5, e₁, e₂, by decide, same, m₁, m₂, hm₁, hm₂, moved, w, hw⟩

end Document

end LivePages
