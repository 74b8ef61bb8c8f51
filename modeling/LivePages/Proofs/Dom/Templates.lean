import LivePages.Dom.Template
import LivePages.Proofs.Dom.Edits

namespace LivePages

namespace Element

theorem putAttribute_of_not_mem {name value : String} {l : List (String × String)}
    (h : name ∉ l.map Prod.fst) : putAttribute name value l = l ++ [(name, value)] := by
  induction l with
  | nil => rfl
  | cons first rest ih =>
    obtain ⟨n, v⟩ := first
    obtain ⟨hn, hr⟩ := List.ne_and_not_mem_of_not_mem_cons h
    rw [putAttribute, if_neg hn.symm, ih hr, List.cons_append]

end Element

namespace Tree

variable {t : Tree} {kids : NodeId → List NodeId} {id p c : NodeId}

theorem Linked.congr {t' : Tree} (h : t.Linked kids) (hp : t'.parent? = t.parent?)
    (hf : t'.firstChild? = t.firstChild?) (hl : t'.lastChild? = t.lastChild?)
    (hv : t'.prev? = t.prev?) (hx : t'.next? = t.next?) : t'.Linked kids where
  first := hf ▸ h.first
  last := hl ▸ h.last
  entry hk := by
    rw [hp, hv, hx]
    exact h.entry hk
  distinct := h.distinct
  loose hc := by
    rw [hp, hv, hx]
    exact h.loose hc

theorem node?_create (t : Tree) (data : NodeData) (j : NodeId) :
    (t.create data).1.node? j = if j = t.size then some { data } else t.node? j :=
  Array.getElem?_push

theorem size_create (t : Tree) (data : NodeData) : (t.create data).1.size = t.size + 1 := by
  simp [create, size]

theorem data?_create (t : Tree) (data : NodeData) (j : NodeId) :
    (t.create data).1.data? j = if j = t.size then some data else t.data? j := by
  rw [data?, node?_create]
  split <;> simp [data?]

theorem bind_node?_create (t : Tree) (data : NodeData) {g : Node → Option NodeId}
    (hg : g { data } = none) :
    (fun j => ((t.create data).1.node? j).bind g) = fun j => (t.node? j).bind g := by
  funext j
  rw [node?_create]
  split
  next hj =>
    subst hj
    have hn : t.node? t.size = none := by simp [node?, size]
    simp [hg, hn]
  next => rfl

theorem Linked.linked_create (h : t.Linked kids) (data : NodeData) :
    (t.create data).1.Linked kids :=
  h.congr (bind_node?_create t data (g := Node.parent) rfl)
    (bind_node?_create t data (g := Node.firstChild) rfl)
    (bind_node?_create t data (g := Node.lastChild) rfl)
    (bind_node?_create t data (g := Node.prev) rfl) (bind_node?_create t data (g := Node.next) rfl)

theorem Linked.linked_createElement (h : t.Linked kids) (tag : String) :
    (t.createElement tag).1.Linked kids :=
  Linked.linked_create (t := t.intern tag) (h.congr rfl rfl rfl rfl rfl) _

theorem bind_node?_setAttribute (t : Tree) (id : NodeId) (name value : String)
    {g : Node → Option NodeId} (hg : ∀ n d, g { n with data := d } = g n) :
    (fun j => ((t.setAttribute id name value).node? j).bind g) = fun j => (t.node? j).bind g := by
  funext j
  rw [setAttribute, bind_node?_update]
  split
  next =>
    refine congrArg _ (funext fun n => ?_)
    split
    next => exact hg n _
    next => rfl
  next => rfl

theorem Linked.linked_setAttribute (h : t.Linked kids) (id : NodeId) (name value : String) :
    (t.setAttribute id name value).Linked kids :=
  h.congr (bind_node?_setAttribute t id name value (g := Node.parent) fun _ _ => rfl)
    (bind_node?_setAttribute t id name value (g := Node.firstChild) fun _ _ => rfl)
    (bind_node?_setAttribute t id name value (g := Node.lastChild) fun _ _ => rfl)
    (bind_node?_setAttribute t id name value (g := Node.prev) fun _ _ => rfl)
    (bind_node?_setAttribute t id name value (g := Node.next) fun _ _ => rfl)

theorem node?_update (f : Node → Node) (j : NodeId) :
    (t.update id f).node? j = if id = j then (t.node? j).map f else t.node? j :=
  Array.getElem?_modify

/-- Attributes under new names stand behind those that are there, in the order in which they are set.
No other node is touched. -/
theorem node?_setAttributes {n : Node} {e : Element} {pairs : List (String × String)}
    (hn : t.node? id = some { n with data := .element e })
    (hd : ((e.attributes ++ pairs).map Prod.fst).Nodup) (j : NodeId) :
    (pairs.foldl (fun acc (name, value) => acc.setAttribute id name value) t).node? j =
      if j = id then some { n with data := .element ⟨e.tag, e.attributes ++ pairs⟩ }
      else t.node? j := by
  induction pairs generalizing t e with
  | nil =>
    split
    next hj => rw [hj, List.append_nil]; exact hn
    next => rfl
  | cons first rest ih =>
    obtain ⟨name, value⟩ := first
    have fresh : name ∉ e.attributes.map Prod.fst := by
      rw [List.map_append, List.map_cons, List.nodup_middle] at hd
      exact fun h => (List.nodup_cons.mp hd).1 (List.mem_append_left _ h)
    have set (i : NodeId) : (t.setAttribute id name value).node? i =
        if i = id then some { n with data := .element ⟨e.tag, e.attributes ++ [(name, value)]⟩ }
        else t.node? i := by
      rw [setAttribute, node?_update]
      by_cases hi : i = id
      · subst hi
        have same : (t.intern name).node? i = t.node? i := rfl
        simp [same, hn, Element.setAttribute, Element.putAttribute_of_not_mem fresh]
      · rw [if_neg (Ne.symm hi), if_neg hi]
        rfl
    rw [List.foldl_cons, ih (set id ▸ if_pos rfl) (by simpa using hd), set j]
    split
    next => simp
    next => rfl

theorem Linked.linked_setAttributes (h : t.Linked kids) (id : NodeId)
    (pairs : List (String × String)) :
    (pairs.foldl (fun acc (name, value) => acc.setAttribute id name value) t).Linked kids := by
  induction pairs generalizing t with
  | nil => exact h
  | cons first rest ih => exact ih (h.linked_setAttribute id first.1 first.2)

/-- The element of a template before its text. -/
def dressed (t : Tree) (template : Template) : Tree :=
  template.attributes.foldl (fun acc (name, value) => acc.setAttribute t.size name value)
    (t.createElement template.tag).1

theorem instantiate_eq (t : Tree) (template : Template) :
    t.instantiate template = match template.text with
      | none => (t.dressed template, t.size)
      | some text => (((t.dressed template).createText text).1.appendChild t.size
          (t.dressed template).size, t.size) := by
  rfl

@[simp] theorem instantiate_id (t : Tree) (template : Template) :
    (t.instantiate template).2 = t.size := by
  rw [instantiate_eq]
  cases template.text <;> rfl

theorem node?_dressed {template : Template} (hd : (template.attributes.map Prod.fst).Nodup) (j : NodeId) :
    (t.dressed template).node? j =
      if j = t.size then some { data := .element ⟨template.tag, template.attributes⟩ }
      else t.node? j := by
  have created := node?_create (t.intern template.tag) (.element ⟨template.tag, []⟩)
  have new : (t.createElement template.tag).1.node? t.size =
      some { data := .element ⟨template.tag, []⟩ } := (created t.size).trans (if_pos rfl)
  rw [dressed, node?_setAttributes (n := { data := .document }) new (by simpa using hd)]
  split
  next => rfl
  next hj => exact (created j).trans (if_neg hj)

theorem data?_dressed {template : Template} (hd : (template.attributes.map Prod.fst).Nodup)
    (j : NodeId) : (t.dressed template).data? j =
      if j = t.size then some (.element ⟨template.tag, template.attributes⟩) else t.data? j := by
  rw [data?, node?_dressed hd, data?]
  split <;> rfl

theorem size_setAttributes (id : NodeId) (pairs : List (String × String)) :
    (pairs.foldl (fun acc (name, value) => acc.setAttribute id name value) t).size = t.size := by
  induction pairs generalizing t with
  | nil => rfl
  | cons first rest ih =>
    rw [List.foldl_cons, ih]
    exact Array.size_modify

theorem size_dressed (t : Tree) (template : Template) : (t.dressed template).size = t.size + 1 := by
  rw [dressed, size_setAttributes]
  exact size_create (t.intern template.tag) _

theorem Linked.linked_dressed (h : t.Linked kids) (template : Template) :
    (t.dressed template).Linked kids :=
  (h.linked_createElement template.tag).linked_setAttributes t.size template.attributes

/-- The text below a new element, if its template has one. -/
def textIds (t : Tree) (template : Template) : List NodeId :=
  (template.text.map fun _ => t.size + 1).toList

theorem size_instantiate (t : Tree) (template : Template) :
    (t.instantiate template).1.size = t.size + 1 + (t.textIds template).length := by
  rw [instantiate_eq, textIds]
  cases template.text with
  | none => exact size_dressed t template
  | some text =>
    dsimp only
    rw [size_eq_of_data?_eq (data?_appendChild _ _ _), createText, size_create, size_dressed]
    rfl

/-- A loose node put below one without children. -/
theorem node?_appendChild {parent child : Node} (hne : p ≠ c) (hp : t.node? p = some parent)
    (hc : t.node? c = some child) (hl : parent.lastChild = none) (hf : child.parent = none)
    (j : NodeId) : (t.appendChild p c).node? j =
      if j = p then some { parent with firstChild := some c, lastChild := some c }
      else if j = c then some { child with parent := some p, prev := none }
      else t.node? j := by
  have free : t.detach c = t := detach_of_parent_eq_none (by rw [parent?, hc]; exact hf)
  have last : t.lastChild? p = none := by
    rw [lastChild?, hp]
    exact hl
  have known {i : NodeId} {n : Node} (h : t.node? i = some n) : i < t.size :=
    node?_isSome.mp (Option.isSome_of_eq_some h)
  rw [appendChild_of_lt hne (known hp) (known hc), free, last]
  dsimp only
  simp only [node?_update, eq_comm (b := j)]
  by_cases hj : j = p
  · subst hj
    simp [hp, hne]
  · by_cases hj' : j = c
    · subst hj'
      simp [hj, hc]
    · simp [hj, hj']

/-- The nodes after a template has been made: old ones are as they were. -/
theorem node?_instantiate {template : Template} (hd : (template.attributes.map Prod.fst).Nodup) (j : NodeId) :
    (t.instantiate template).1.node? j =
      if j = t.size then some {
        data := .element ⟨template.tag, template.attributes⟩
        firstChild := (t.textIds template).head?
        lastChild := (t.textIds template).head? }
      else if j ∈ t.textIds template then
        template.text.map fun text => { data := .text text, parent := some t.size }
      else t.node? j := by
  rw [instantiate_eq, textIds]
  cases template.text with
  | none => simpa using node?_dressed hd j
  | some text =>
    have created := node?_create (t.dressed template) (.text text)
    rw [size_dressed] at created
    have hne : t.size ≠ t.size + 1 := (Nat.succ_ne_self _).symm
    have new : ((t.dressed template).createText text).1.node? t.size =
        some { data := .element ⟨template.tag, template.attributes⟩ } := by
      rw [createText, created, if_neg hne, node?_dressed hd, if_pos rfl]
    have below : ((t.dressed template).createText text).1.node? (t.size + 1) =
        some { data := .text text } := (created _).trans (if_pos rfl)
    dsimp only
    rw [size_dressed, node?_appendChild hne new below rfl rfl, createText, created,
      node?_dressed hd]
    by_cases hj : j = t.size
    · simp [hj]
    · by_cases hj' : j = t.size + 1 <;> simp [hj, hj']

theorem data?_instantiate {template : Template} (hd : (template.attributes.map Prod.fst).Nodup)
    (j : NodeId) : (t.instantiate template).1.data? j =
      if j = t.size then some (.element ⟨template.tag, template.attributes⟩)
      else if j ∈ t.textIds template then template.text.map .text else t.data? j := by
  rw [data?, node?_instantiate hd, data?]
  split
  next => rfl
  next =>
    split
    next => cases template.text <;> rfl
    next => rfl

/-- A new element is in no list; below it there is its text alone. -/
theorem Linked.linked_instantiate (h : t.Linked kids) (template : Template) :
    (t.instantiate template).1.Linked fun q =>
      if q = t.size then t.textIds template else kids q := by
  have hn := h.eq_nil_of_size_le (Nat.le_refl t.size)
  rw [instantiate_eq, textIds]
  cases template.text with
  | none =>
    refine (congrArg _ (funext fun q => ?_)).mp (h.linked_dressed template)
    split
    next hq => rw [hq, hn]; rfl
    next => rfl
  | some text =>
    have hc := (h.linked_dressed template).linked_create (.text text)
    have hs := size_create (t.dressed template) (.text text)
    have hm (q) : t.size + 1 ∉ kids q := h.not_mem_of_size_le (Nat.le_succ t.size)
    rw [size_dressed] at hs
    have hp : t.size < ((t.dressed template).create (.text text)).1.size := by omega
    have ht : t.size + 1 < ((t.dressed template).create (.text text)).1.size := by omega
    have ha := hc.linked_appendChild (p := t.size) (c := t.size + 1) (Nat.ne_of_lt (by simp)) hp ht
    have e : (t.dressed template).size = t.size + 1 := size_dressed t template
    dsimp only
    rw [e]
    refine (congrArg _ (funext fun q => ?_)).mp ha
    rw [hn, List.erase_of_not_mem (hm q)]
    rfl

/-- An element as it has been made from a template: attributes in their order, text in one piece. -/
structure MadeFrom (t : Tree) (id : NodeId) (template : Template) : Prop where
  element : t.element? id = some ⟨template.tag, template.attributes⟩
  text : (t.children id).map t.text? = template.text.toList.map some

theorem MadeFrom.matches {id : NodeId} {template : Template} (h : t.MadeFrom id template) :
    t.matchesTemplate id template := by
  have hj : t.joinedText? (t.children id) = some (template.text.getD "") := by
    have ht := h.text
    cases e : template.text with
    | none =>
      rw [e] at ht
      rw [List.map_eq_nil_iff.mp ht]
      rfl
    | some text =>
      rw [e] at ht
      obtain ⟨c, hc, ht⟩ := List.map_eq_singleton_iff.mp ht
      simp [hc, joinedText?, ht]
  rw [matchesTemplate, h.element, hj]
  simp [List.isPerm_iff]

theorem children_of_none (h : t.firstChild? id = none) : t.children id = [] := by
  rw [children, h]
  cases t.size <;> rfl

theorem children_of_only {n : Node} (h : t.firstChild? id = some c) (hn : t.node? c = some n)
    (hx : n.next = none) : t.children id = [c] := by
  have hs : c < t.size := node?_isSome.mp (Option.isSome_of_eq_some hn)
  obtain ⟨bound, hb⟩ := Nat.exists_eq_succ_of_ne_zero (Nat.ne_zero_of_lt hs)
  rw [children, h, hb, siblingsFrom, hn]
  dsimp only
  rw [hx]
  cases bound <;> rfl

section Made

variable {template : Template} (hd : (template.attributes.map Prod.fst).Nodup)
include hd

theorem children_made : (t.instantiate template).1.children t.size = t.textIds template := by
  have first : (t.instantiate template).1.firstChild? t.size = (t.textIds template).head? := by
    rw [firstChild?, node?_instantiate hd, if_pos rfl]
    rfl
  have text := node?_instantiate (t := t) hd (t.size + 1)
  rw [if_neg (Nat.succ_ne_self _)] at text
  cases e : template.text with
  | none =>
    rw [textIds, e] at first ⊢
    exact children_of_none first
  | some content =>
    rw [textIds, e] at first text ⊢
    exact children_of_only first (text.trans (if_pos List.mem_cons_self)) rfl

theorem madeFrom_instantiate : (t.instantiate template).1.MadeFrom t.size template where
  element := by
    rw [element?, data?_instantiate hd, if_pos rfl]
    rfl
  text := by
    rw [children_made hd, textIds]
    cases e : template.text with
    | none => rfl
    | some text =>
      have ht : (t.instantiate template).1.text? (t.size + 1) = some text := by
        rw [text?, data?_instantiate hd]
        simp [textIds, e, NodeData.text?]
      simp [ht]

end Made

end Tree

end LivePages
