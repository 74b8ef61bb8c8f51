import LivePages.Proofs.Page.NewNodes

namespace LivePages

/-- What the attributes of an element refer to. -/
def referencesOf (attributes : List (String × String)) : List String :=
  (attributes.lookup "src").toList ++ (attributes.lookup "href").toList

def Template.references (a : Template) : List String :=
  referencesOf a.attributes

namespace Tree

variable {t : Tree}

def references (t : Tree) (id : NodeId) : List String :=
  referencesOf (t.attributes id)

/-- The nodes from a number on refer to nothing but what is allowed. -/
def Confined (t : Tree) (start : Nat) (allowed : List String) : Prop :=
  ∀ id, start ≤ id → t.references id ⊆ allowed

theorem references_of_data? {id : NodeId} {data : NodeData} (h : t.data? id = some data) :
    t.references id = referencesOf ((data.element?.map Element.attributes).getD []) := by
  rw [references, attributes, element?, h]
  rfl

end Tree

namespace CompiledPage

/-- Only what goes to the head of a page refers to anything. -/
theorem references_additions {page : CompiledPage} {a : Template} (h : a ∈ page.additions) :
    a.references ⊆ page.headTemplates.flatMap Template.references := by
  have none (ha : a.references = []) : a.references ⊆ page.headTemplates.flatMap Template.references :=
    ha ▸ List.nil_subset _
  simp only [additions, List.mem_append, List.mem_cons, List.not_mem_nil, or_false] at h
  rcases h with (h | rfl | rfl) | h
  · exact fun r hr => List.mem_flatMap.mpr ⟨a, h, hr⟩
  · exact none rfl
  · exact none rfl
  · obtain ⟨w, -, h⟩ := List.mem_flatMap.mp h
    rcases WidgetDescriptor.mem_templates.mp h with h | rfl
    · rw [WidgetDescriptor.container?] at h
      split at h
      next => cases h
      next =>
        cases Option.some.inj h
        exact none rfl
    · exact none rfl

end CompiledPage

namespace Document

variable {d : Document} {url : PageUrl} {s : Settings} {page : CompiledPage}

/-- What the compiler adds to a document refers to what the head of the page needs. -/
theorem confined_compile (h : d.compile url s = .ok page) :
    page.document.tree.Confined d.tree.size (page.headTemplates.flatMap Template.references) := by
  let allowed := page.headTemplates.flatMap Template.references
  have added : page.document.tree.Adds d.tree.size fun data =>
      referencesOf ((data.element?.map Element.attributes).getD []) ⊆ allowed :=
    adds_compile (fun _ _ => List.nil_subset _) h fun a ha =>
      ⟨CompiledPage.references_additions ha, fun _ _ => List.nil_subset _⟩
  intro id hid
  cases hd : page.document.tree.data? id with
  | none =>
    rw [Tree.references, Tree.attributes, Tree.element?, hd]
    exact List.nil_subset _
  | some data =>
    rw [Tree.references_of_data? hd]
    exact added id data hid hd

end Document

end LivePages
