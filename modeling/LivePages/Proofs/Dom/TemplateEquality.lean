import LivePages.Proofs.Dom.Names
import LivePages.Proofs.Text.Order

namespace LivePages

namespace Tree

variable {t : Tree} {id p c : NodeId} {template : Template}

theorem gatherText?_eq (text : String) (l : List NodeId) :
    t.gatherText? text l = (t.joinedText? l).map (text ++ ·) := by
  induction l generalizing text with
  | nil => simp [gatherText?, joinedText?]
  | cons id l ih =>
    rw [gatherText?, joinedText?]
    cases t.text? id with
    | none => rfl
    | some first =>
      cases hl : t.joinedText? l <;> simp [ih, hl, String.append_assoc]

theorem matchesSorted_eq (t : Tree) (id : NodeId) (template : Template) :
    t.matchesSorted id template = t.matchesTemplate id template := by
  have attributes (e : Element) : ((e.attributes.mergeSort pairNotAfter ==
      template.attributes.mergeSort pairNotAfter) : Bool) = e.attributes.isPerm template.attributes := by
    rw [Bool.eq_iff_iff, beq_iff_eq, mergeSort_eq_iff pairNotAfter_iff toLex.injective,
      List.isPerm_iff]
  rw [matchesSorted, matchesTemplate, gatherText?_eq, isElementNamed, tag?, Tree.attributes]
  cases t.element? id with
  | none => rfl
  | some e => simp [attributes e]

theorem text?_eq_some_iff {text : String} : t.text? c = some text ↔ t.data? c = some (.text text) := by
  rw [text?]
  rcases t.data? c with _ | data
  · simp
  · cases data <;> simp [NodeData.text?]

/-- Nodes that are texts make up a text together. -/
theorem joinedText?_eq_some_iff {l : List NodeId} {text : String} : t.joinedText? l = some text ↔
    ∃ texts, l.map t.data? = texts.map (some ∘ .text) ∧ String.join texts = text := by
  induction l generalizing text with
  | nil =>
    constructor
    · exact fun h => ⟨[], rfl, Option.some.inj h⟩
    · rintro ⟨texts, ht, rfl⟩
      cases texts with
      | nil => rfl
      | cons first texts => cases ht
  | cons c l ih =>
    constructor
    · intro h
      obtain ⟨first, hf, h⟩ := Option.bind_eq_some_iff.mp h
      obtain ⟨others, ho, h⟩ := Option.bind_eq_some_iff.mp h
      obtain ⟨texts, ht, rfl⟩ := ih.mp ho
      refine ⟨first :: texts, ?_, String.join_cons.trans (Option.some.inj h)⟩
      rw [List.map_cons, List.map_cons, ht, text?_eq_some_iff.mp hf]
      rfl
    · rintro ⟨texts, ht, rfl⟩
      cases texts with
      | nil => cases ht
      | cons first texts =>
        obtain ⟨hf, ht⟩ := List.cons.inj ht
        rw [joinedText?, text?_eq_some_iff.mpr hf, ih.mpr ⟨texts, ht, rfl⟩, String.join_cons]
        rfl

/-- An element with the tag and the attributes of a template, in any order, and its text in any number
of pieces. -/
structure Shows (t : Tree) (id : NodeId) (template : Template) (attributes : List (String × String))
    (texts : List String) : Prop where
  element : t.data? id = some (.element ⟨template.tag, attributes⟩)
  attributes : attributes.Perm template.attributes
  children : (t.children id).map t.data? = texts.map (some ∘ .text)
  text : String.join texts = template.text.getD ""

theorem matches_iff_shows : t.matchesTemplate id template ↔
    ∃ attributes texts, t.Shows id template attributes texts := by
  rw [matchesTemplate_iff]
  constructor
  · rintro ⟨⟨tag, attributes⟩, he, rfl, hp, hj⟩
    obtain ⟨texts, ht, hj⟩ := joinedText?_eq_some_iff.mp hj
    exact ⟨attributes, texts, data?_of_element? he, hp, ht, hj⟩
  · rintro ⟨attributes, texts, h⟩
    have he : t.element? id = some ⟨template.tag, attributes⟩ := by
      rw [element?, h.element]
      rfl
    exact ⟨_, he, rfl, h.attributes, joinedText?_eq_some_iff.mpr ⟨texts, h.children, h.text⟩⟩

theorem names_setAttributes (id : NodeId) (pairs : List (String × String)) :
    (pairs.foldl (fun acc (name, value) => acc.setAttribute id name value) t).names =
      t.names.internAll (pairs.map Prod.fst) := by
  induction pairs generalizing t with
  | nil => rfl
  | cons first rest ih => exact ih

theorem names_instantiate (t : Tree) (template : Template) : (t.instantiate template).1.names =
    t.names.internAll (template.tag :: template.attributes.map Prod.fst) := by
  have dressed : (t.dressed template).names =
      t.names.internAll (template.tag :: template.attributes.map Prod.fst) :=
    names_setAttributes t.size template.attributes
  rw [instantiate_eq]
  cases template.text with
  | none => exact dressed
  | some text => exact (names_appendChild _ _ _).trans dressed

/-- A new element, made from a template beside the nodes of any tree. -/
structure Instantiated (t t' : Tree) (id : NodeId) (template : Template) : Prop where
  old : ∀ j < t.size, t'.node? j = t.node? j
  /-- The old names keep their numbers. -/
  names : t.names.names <+: t'.names.names
  new : t.size ≤ id
  loose : t'.parent? id = none ∧ t'.prev? id = none ∧ t'.next? id = none
  below : ∀ c ∈ t'.children id, t.size ≤ c ∧ t'.parent? c = some id ∧ t'.children c = []
  complete : ∀ j, t.size ≤ j → j < t'.size → j = id ∨ j ∈ t'.children id
  found : t'.matchesTemplate id template

theorem instantiated (t : Tree) {template : Template}
    (hd : (template.attributes.map Prod.fst).Nodup) :
    t.Instantiated (t.instantiate template).1 (t.instantiate template).2 template := by
  have nodes := node?_instantiate (t := t) hd
  have new := (nodes t.size).trans (if_pos rfl)
  rw [instantiate_id]
  constructor
  case old =>
    intro j hj
    have hm : j ∉ t.textIds template := by
      intro hm
      rw [(mem_textIds.mp hm).2] at hj
      exact absurd hj (Nat.not_lt.mpr (Nat.le_succ _))
    rw [nodes, if_neg (Nat.ne_of_lt hj), if_neg hm]
  case names =>
    rw [names_instantiate]
    exact NameTable.prefix_internAll _ _
  case new => exact Nat.le_refl _
  case loose =>
    rw [parent?, prev?, next?, new]
    exact ⟨rfl, rfl, rfl⟩
  case below =>
    intro c hc
    rw [children_made hd] at hc
    obtain ⟨hs, rfl⟩ := mem_textIds.mp hc
    obtain ⟨text, ht⟩ := Option.isSome_iff_exists.mp hs
    have below := nodes (t.size + 1)
    rw [if_neg (Nat.succ_ne_self _), if_pos hc, ht, Option.map_some] at below
    refine ⟨Nat.le_succ _, ?_, children_of_none ?_⟩
    · rw [parent?, below]
      rfl
    · rw [firstChild?, below]
      rfl
  case complete =>
    intro j hj hlt
    rw [children_made hd, mem_textIds]
    rw [size_instantiate, textIds] at hlt
    cases e : template.text with
    | none =>
      rw [e] at hlt
      exact .inl (Nat.le_antisymm (Nat.le_of_lt_succ hlt) hj)
    | some text =>
      rw [e] at hlt
      rcases Nat.eq_or_lt_of_le hj with h | h
      · exact .inl h.symm
      · exact .inr ⟨rfl, Nat.le_antisymm (Nat.le_of_lt_succ hlt) h⟩
  case found => exact (madeFrom_instantiate hd).matches

/-- Templates that some element matches both agree, and templates that agree have such an element. -/
theorem exists_matches_iff {a b : Template} (ha : (a.attributes.map Prod.fst).Nodup) :
    (∃ (t : Tree) (id : NodeId), t.matchesTemplate id a ∧ t.matchesTemplate id b) ↔ a.Agrees b := by
  constructor
  · rintro ⟨t, id, hma, hmb⟩
    exact (matches_iff_agrees hma).mp hmb
  · intro h
    have found := (instantiated blank ha).found
    exact ⟨_, _, found, (matches_iff_agrees found).mpr h⟩

/-- A template with distinct attributes is made into an element that it matches, in every tree; it
matches what shows it, and nothing else; and it has an element in common exactly with the templates that
differ from it in the order of the attributes, or in an empty text for none. -/
theorem instantiated_matches_agrees {a : Template} (ha : (a.attributes.map Prod.fst).Nodup) :
    (∀ t : Tree, t.Instantiated (t.instantiate a).1 (t.instantiate a).2 a) ∧
    (∀ (t : Tree) (id : NodeId) (template : Template),
      (t.matchesTemplate id template ↔ ∃ attributes texts, t.Shows id template attributes texts) ∧
        t.matchesSorted id template = t.matchesTemplate id template) ∧
    ∀ b : Template, (∃ (t : Tree) (id : NodeId), t.matchesTemplate id a ∧ t.matchesTemplate id b) ↔
      a.Agrees b := by
  refine ⟨fun t => instantiated t ha, fun t id template => ⟨matches_iff_shows, ?_⟩, fun b => ?_⟩
  · exact matchesSorted_eq t id template
  · exact exists_matches_iff ha

theorem instantiated_stylesheet : ((Template.stylesheet "x.css").attributes.map Prod.fst).Nodup ∧
    (shortPage.instantiate (.stylesheet "x.css")).1.matchesTemplate 8 (.stylesheet "x.css") ∧
    ∃ (t : Tree) (id : NodeId), t.matchesTemplate id (.stylesheet "x.css") ∧
      t.matchesTemplate id ⟨"link", [("href", "x.css"), ("rel", "stylesheet")], some ""⟩ := by
  have distinct : ((Template.stylesheet "x.css").attributes.map Prod.fst).Nodup := by decide
  obtain ⟨made, -, common⟩ := instantiated_matches_agrees distinct
  refine ⟨distinct, (made shortPage).found, (common _).mpr ⟨?_, ?_, rfl⟩⟩
  · decide
  · exact List.Perm.swap ..

end Tree

end LivePages
