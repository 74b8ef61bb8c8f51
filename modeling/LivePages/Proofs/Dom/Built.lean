import LivePages.Proofs.Dom.EditRuns

namespace LivePages

namespace NameTable

variable {t : NameTable} {name other : String}

theorem lookup_isSome_iff : (t.lookup name).isSome ↔ name ∈ t.names := by
  rw [← not_iff_not, ← lookup_eq_none_iff, Option.not_isSome_iff_eq_none]

theorem names_intern (t : NameTable) (name : String) :
    (t.intern name).1.names = if name ∈ t.names then t.names else t.names ++ [name] := by
  unfold intern
  split
  next number hl =>
    rw [if_pos (lookup_isSome_iff.mp (Option.isSome_of_eq_some hl))]
  next hl => rw [if_neg (lookup_eq_none_iff.mp hl)]

theorem mem_intern : other ∈ (t.intern name).1.names ↔ other ∈ t.names ∨ other = name := by
  rw [names_intern]
  split
  next hm => exact ⟨.inl, fun h => h.elim id (· ▸ hm)⟩
  next => rw [List.mem_append, List.mem_singleton]

end NameTable

namespace Tree

/-- The trees that are made from the empty one. A new element has a tag that is in use as a name;
everything may be changed as often as one likes, with numbers that no node has too. -/
inductive Built : Tree → Prop where
  | blank : Built blank
  | intern {t : Tree} (name : String) : Built t → Built (t.intern name)
  | create {t : Tree} {data : NodeData} :
      (∀ e, data = .element e → e.tag ∈ t.names.names) → Built t → Built (t.create data).1
  | setAttribute {t : Tree} (id : NodeId) (name value : String) :
      Built t → Built (t.setAttribute id name value)
  | edit {t : Tree} (e : TreeEdit) : Built t → Built (e.apply t)

/-- Every tag in a tree is in use as a name. -/
def TagsInUse (t : Tree) : Prop :=
  t.Named (· ∈ t.names.names)

instance (t : Tree) : Decidable t.TagsInUse :=
  decidable_of_iff (∀ id < t.size, ∀ e ∈ t.element? id, e.tag ∈ t.names.names)
    ⟨fun h id e he => h id (lt_size_of_element? he) e he, fun h id _ e he => h id e he⟩

variable {t : Tree}

theorem data?_apply (t : Tree) (e : TreeEdit) : (e.apply t).data? = t.data? := by
  cases e <;> simp [TreeEdit.apply]

@[simp] theorem names_update (t : Tree) (id : NodeId) (f : Node → Node) :
    (t.update id f).names = t.names :=
  rfl

@[simp] theorem names_detach (t : Tree) (id : NodeId) : (t.detach id).names = t.names := by
  cases hp : t.parent? id with
  | none => rw [detach_of_parent_eq_none hp]
  | some p =>
    rw [detach_of_parent hp]
    cases t.prev? id <;> cases t.next? id <;> simp

@[simp] theorem names_appendChild (t : Tree) (p c : NodeId) :
    (t.appendChild p c).names = t.names := by
  unfold appendChild
  split
  next => rfl
  next =>
    dsimp only
    split <;> simp

@[simp] theorem names_insertBefore (t : Tree) (r n : NodeId) :
    (t.insertBefore r n).names = t.names := by
  unfold insertBefore
  split
  next => rfl
  next =>
    split
    next => rfl
    next =>
      dsimp only
      split <;> simp

@[simp] theorem names_prependChild (t : Tree) (p c : NodeId) :
    (t.prependChild p c).names = t.names := by
  unfold prependChild
  split <;> simp

@[simp] theorem names_insertAfter (t : Tree) (r n : NodeId) :
    (t.insertAfter r n).names = t.names := by
  unfold insertAfter
  split_ifs
  · rfl
  · split
    · split <;> simp
    · split <;> simp

@[simp] theorem names_replace (t : Tree) (old new : NodeId) :
    (t.replace old new).names = t.names := by
  unfold replace
  split <;> simp

theorem names_apply (t : Tree) (e : TreeEdit) : (e.apply t).names = t.names := by
  cases e <;> simp [TreeEdit.apply]

theorem Linked.linked_intern {kids : NodeId → List NodeId} (h : t.Linked kids) (name : String) :
    (t.intern name).Linked kids :=
  h.congr rfl rfl rfl rfl rfl

namespace TagsInUse

theorem intern (h : t.TagsInUse) (name : String) : (t.intern name).TagsInUse :=
  fun id e he => NameTable.mem_intern.mpr (.inl (h id e he))

theorem setAttribute (h : t.TagsInUse) (id : NodeId) (name value : String) :
    (t.setAttribute id name value).TagsInUse := by
  have named : t.Named (· ∈ (t.intern name).names.names) := h.intern name
  exact named.setAttribute id name value

theorem apply (h : t.TagsInUse) (e : TreeEdit) : (e.apply t).TagsInUse := by
  unfold TagsInUse
  rw [names_apply]
  exact h.congr (data?_apply t e)

end TagsInUse

namespace Built

theorem consistent (h : t.Built) : t.Consistent := by
  induction h with
  | blank => exact blank_wellFormed.consistent
  | intern name _ ih => exact (Linked.linked_intern ih name).consistent
  | create _ _ ih => exact ih.create _
  | setAttribute id name value _ ih => exact (Linked.linked_setAttribute ih id name value).consistent
  | edit e _ ih => exact ih.apply e

theorem tagsInUse (h : t.Built) : t.TagsInUse := by
  induction h with
  | blank => decide
  | intern name _ ih => exact ih.intern name
  | create hd _ ih => exact ih.create hd
  | setAttribute id name value _ ih => exact ih.setAttribute id name value
  | edit e _ ih => exact ih.apply e

/-- An element is made with its tag taken into use. -/
theorem createElement (h : t.Built) (tag : String) : (t.createElement tag).1.Built := by
  refine .create ?_ (h.intern tag)
  rintro e he
  cases he
  exact NameTable.mem_intern.mpr (.inr rfl)

theorem createText (h : t.Built) (content : String) : (t.createText content).1.Built :=
  .create nofun h

theorem setAttributes (h : t.Built) (id : NodeId) (pairs : List (String × String)) :
    (pairs.foldl (fun acc (name, value) => acc.setAttribute id name value) t).Built := by
  induction pairs generalizing t with
  | nil => exact h
  | cons first rest ih => exact ih (h.setAttribute id first.1 first.2)

theorem instantiate (h : t.Built) (template : Template) : (t.instantiate template).1.Built := by
  have dressed : (t.dressed template).Built := (h.createElement _).setAttributes _ _
  rw [instantiate_eq]
  cases template.text with
  | none => exact dressed
  | some text => exact .edit (.appendChild _ _) (dressed.createText text)

end Built

end Tree

end LivePages
