import LivePages.Proofs.Dom.Templates

namespace LivePages

/-- Two templates that the same elements match. -/
structure Template.Agrees (a b : Template) : Prop where
  tag : a.tag = b.tag
  attributes : a.attributes.Perm b.attributes
  text : a.text.getD "" = b.text.getD ""

theorem Template.Agrees.refl (a : Template) : a.Agrees a :=
  ⟨rfl, .refl _, rfl⟩

theorem Template.Agrees.symm {a b : Template} (h : a.Agrees b) : b.Agrees a :=
  ⟨h.tag.symm, h.attributes.symm, h.text.symm⟩

namespace Tree

variable {t t' : Tree} {id c : NodeId}

theorem data?_of_element? {e : Element} (h : t.element? id = some e) :
    t.data? id = some (.element e) := by
  obtain ⟨data, hd, he⟩ := Option.bind_eq_some_iff.mp h
  cases data with
  | element e' => rw [hd, ← Option.some.inj he]
  | _ => cases he

theorem text?_of_element? {e : Element} (h : t.element? id = some e) : t.text? id = none := by
  rw [text?, data?_of_element? h]
  rfl

theorem data?_of_comment? {content : String} (h : t.comment? id = some content) :
    t.data? id = some (.comment content) := by
  obtain ⟨data, hd, he⟩ := Option.bind_eq_some_iff.mp h
  cases data with
  | comment content' => rw [hd, ← Option.some.inj he]
  | _ => cases he

theorem text?_of_comment? {content : String} (h : t.comment? id = some content) :
    t.text? id = none := by
  rw [text?, data?_of_comment? h]
  rfl

theorem element?_of_comment? {content : String} (h : t.comment? id = some content) :
    t.element? id = none := by
  rw [element?, data?_of_comment? h]
  rfl

theorem lt_size_of_data? {data : NodeData} (h : t.data? id = some data) : id < t.size :=
  data?_isSome.mp (h ▸ rfl)

theorem data?_eq_none (h : t.size ≤ id) : t.data? id = none := by
  rw [← Option.not_isSome_iff_eq_none, data?_isSome]
  exact Nat.not_lt.mpr h

theorem lt_size_of_element? {e : Element} (h : t.element? id = some e) : id < t.size :=
  lt_size_of_data? (data?_of_element? h)

theorem element?_congr (h : t'.data? id = t.data? id) : t'.element? id = t.element? id := by
  rw [element?, h, element?]

theorem text?_congr (h : t'.data? id = t.data? id) : t'.text? id = t.text? id := by
  rw [text?, h, text?]

theorem comment?_congr (h : t'.data? id = t.data? id) : t'.comment? id = t.comment? id := by
  rw [comment?, h, comment?]

theorem tag?_congr (h : t'.data? id = t.data? id) : t'.tag? id = t.tag? id := by
  rw [tag?, element?_congr h, tag?]

theorem joinedText?_congr {l : List NodeId} (h : ∀ c ∈ l, t'.text? c = t.text? c) :
    t'.joinedText? l = t.joinedText? l := by
  induction l with
  | nil => rfl
  | cons c l ih =>
    rw [joinedText?, joinedText?, h c List.mem_cons_self, ih fun d hd => h d (List.mem_cons_of_mem c hd)]

theorem joinedText?_isSome {l : List NodeId} :
    (t.joinedText? l).isSome ↔ ∀ c ∈ l, (t.text? c).isSome := by
  induction l with
  | nil => simp [joinedText?]
  | cons c l ih =>
    rw [List.forall_mem_cons, ← ih, joinedText?]
    cases t.text? c <;> cases t.joinedText? l <;> simp

theorem matchesTemplate_iff {template : Template} : t.matchesTemplate id template ↔
    ∃ e, t.element? id = some e ∧ e.tag = template.tag ∧ e.attributes.Perm template.attributes ∧
      t.joinedText? (t.children id) = some (template.text.getD "") := by
  rw [matchesTemplate]
  cases t.element? id with
  | none => simp
  | some e => simp [List.isPerm_iff, and_assoc]

theorem matchesTemplate_congr (hd : t'.data? id = t.data? id) (hk : t'.children id = t.children id)
    (ht : ∀ c ∈ t.children id, t'.data? c = t.data? c) (template : Template) :
    t'.matchesTemplate id template = t.matchesTemplate id template := by
  rw [matchesTemplate, matchesTemplate, element?_congr hd, hk,
    joinedText?_congr fun c hc => text?_congr (ht c hc)]

theorem MadeFrom.congr {template : Template} (h : t.MadeFrom id template)
    (hd : t'.data? id = t.data? id) (hk : t'.children id = t.children id)
    (ht : ∀ c ∈ t.children id, t'.data? c = t.data? c) : t'.MadeFrom id template where
  element := (element?_congr hd).trans h.element
  text := by
    rw [hk, ← h.text]
    exact List.map_congr_left fun c hc => text?_congr (ht c hc)

theorem element?_of_matches {template : Template} (h : t.matchesTemplate id template) :
    ∃ e, t.element? id = some e ∧ e.tag = template.tag := by
  obtain ⟨e, he, ht, -⟩ := matchesTemplate_iff.mp h
  exact ⟨e, he, ht⟩

theorem text?_of_matches {template : Template} (h : t.matchesTemplate id template)
    (hc : c ∈ t.children id) : (t.text? c).isSome := by
  obtain ⟨e, -, -, -, hj⟩ := matchesTemplate_iff.mp h
  exact joinedText?_isSome.mp (hj ▸ rfl) c hc

/-- Of two templates an element matches both or one, as they agree or not. -/
theorem matches_iff_agrees {a b : Template} (h : t.matchesTemplate id a) :
    t.matchesTemplate id b ↔ a.Agrees b := by
  obtain ⟨e, he, ht, ha, hj⟩ := matchesTemplate_iff.mp h
  rw [matchesTemplate_iff]
  constructor
  · rintro ⟨e', he', ht', ha', hj'⟩
    cases Option.some.inj (he.symm.trans he')
    exact ⟨ht.symm.trans ht', ha.symm.trans ha', Option.some.inj (hj.symm.trans hj')⟩
  · intro hab
    exact ⟨e, he, ht.trans hab.tag, ha.trans hab.attributes, hab.text ▸ hj⟩

theorem mem_textIds {template : Template} :
    c ∈ t.textIds template ↔ template.text.isSome ∧ c = t.size + 1 := by
  rw [textIds]
  cases template.text <;> simp

section Instantiate

variable {template : Template} (hd : (template.attributes.map Prod.fst).Nodup)
include hd

theorem data?_instantiate_of_lt {j : NodeId} (hj : j < t.size) :
    (t.instantiate template).1.data? j = t.data? j := by
  have hm : j ∉ t.textIds template := fun hm =>
    absurd hj ((mem_textIds.mp hm).2 ▸ Nat.not_lt.mpr (Nat.le_succ _))
  rw [data?_instantiate hd, if_neg (Nat.ne_of_lt hj), if_neg hm]

theorem data?_instantiate_text (hc : c ∈ t.textIds template) :
    (t.instantiate template).1.data? c = template.text.map .text := by
  have hne : c ≠ t.size := (mem_textIds.mp hc).2 ▸ Nat.succ_ne_self _
  rw [data?_instantiate hd, if_neg hne, if_pos hc]

theorem text?_instantiate (hc : c ∈ t.textIds template) :
    ((t.instantiate template).1.text? c).isSome := by
  obtain ⟨text, ht⟩ := Option.isSome_iff_exists.mp (mem_textIds.mp hc).1
  rw [text?, data?_instantiate_text hd hc, ht]
  rfl

theorem element?_instantiate {j : NodeId} {e : Element}
    (he : (t.instantiate template).1.element? j = some e) :
    j = t.size ∨ t.element? j = some e := by
  by_cases hj : j = t.size
  · exact .inl hj
  · by_cases hc : j ∈ t.textIds template
    · have ht := text?_instantiate hd hc
      rw [text?_of_element? he] at ht
      cases ht
    · have hs : (t.instantiate template).1.data? j = t.data? j := by
        rw [data?_instantiate hd, if_neg hj, if_neg hc]
      exact .inr (element?_congr hs ▸ he)

theorem comment?_instantiate (j : NodeId) : (t.instantiate template).1.comment? j = none ∨
    (t.instantiate template).1.comment? j = t.comment? j := by
  rw [comment?, data?_instantiate hd]
  split
  next => exact .inl rfl
  next =>
    split
    next => exact .inl (by cases template.text <;> rfl)
    next => exact .inr rfl

end Instantiate

section Names

variable {P : String → Prop}

/-- All elements have a name of a class. -/
def Named (P : String → Prop) (t : Tree) : Prop :=
  ∀ id e, t.element? id = some e → P e.tag

theorem Named.congr (h : t.Named P) (hd : t'.data? = t.data?) : t'.Named P := fun id e he =>
  h id e (element?_congr (congrFun hd id) ▸ he)

theorem Named.create (h : t.Named P) {data : NodeData} (hd : ∀ e, data = .element e → P e.tag) :
    (t.create data).1.Named P := by
  intro id e he
  rw [element?, data?_create] at he
  split at he
  next =>
    cases data with
    | element e' => cases Option.some.inj he; exact hd _ rfl
    | _ => cases he
  next => exact h id e he

theorem Named.update (h : t.Named P) (id : NodeId) {f : Node → Node}
    (hf : ∀ n e, (f n).data.element? = some e → ∃ e', n.data.element? = some e' ∧ e'.tag = e.tag) :
    (t.update id f).Named P := by
  intro j e he
  rw [element?, data?, node?, Tree.update, Array.getElem?_modify] at he
  split at he
  next =>
    cases hn : t.nodes[j]? with
    | none => rw [hn] at he; cases he
    | some n =>
      rw [hn] at he
      obtain ⟨e', he', ht⟩ := hf n e he
      exact ht ▸ h j e' (by rw [element?, data?, node?, hn]; exact he')
  next => exact h j e he

theorem Named.setAttribute (h : t.Named P) (id : NodeId) (name value : String) :
    (t.setAttribute id name value).Named P := by
  have interned : (t.intern name).Named P := h
  refine interned.update id fun n e he => ?_
  split at he
  next e' hn =>
    cases Option.some.inj he
    exact ⟨e', by rw [hn]; rfl, rfl⟩
  next => exact ⟨e, he, rfl⟩

end Names

end Tree

end LivePages
