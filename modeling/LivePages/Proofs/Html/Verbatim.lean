import LivePages.Proofs.Html.Decoding
import LivePages.Proofs.Html.Openings
import LivePages.Proofs.Html.Unambiguous

namespace LivePages

theorem lt_not_mem_valueChars (value : String) : '<' ∉ valueChars value := by
  rw [valueChars]
  split
  · exact List.not_mem_nil
  · simp [lt_not_mem_escapeAttribute]

theorem isQuiet_attributesChars {attributes : List (String × String)}
    (h : ∀ pair ∈ attributes, isQuiet pair.1.toList) : isQuiet (attributesChars attributes) := by
  have value (v : String) : isQuiet (valueChars v) := isQuiet_of_not_mem (lt_not_mem_valueChars v)
  induction attributes with
  | nil => rfl
  | cons pair attributes ih =>
    rw [List.forall_mem_cons] at h
    have hp : isQuiet (' ' :: (pair.1.toList ++ valueChars pair.2)) :=
      isQuiet_cons.mpr ⟨fun e => absurd e (by decide), isQuiet_append h.1 (value _)⟩
    exact isQuiet_append hp (ih h.2)

theorem isQuiet_writeStartTag {e : Element} (ht : isQuiet e.tag.toList) (hh : isHarmless e.tag)
    (ha : ∀ pair ∈ e.attributes, isQuiet pair.1.toList) : isQuiet (writeStartTag e).toList := by
  rw [toList_writeStartTag, isQuiet_cons]
  refine ⟨fun _ => ?_, isQuiet_append ht (isQuiet_append (isQuiet_attributesChars ha) (by decide))⟩
  obtain ⟨c, cs, hcs, hc⟩ := attributesChars_ends e.attributes []
  rw [hcs]
  exact (isHarmless_iff (by rcases hc with rfl | rfl <;> decide) cs).mp hh

theorem isQuiet_endTag {tag : String} (ht : isQuiet tag.toList) :
    isQuiet ("</" ++ tag ++ ">").toList := by
  have opening : isQuiet ('<' :: '/' :: (tag.toList ++ ['>'])) := by
    rw [isQuiet_cons, isQuiet_cons]
    exact ⟨fun _ widget hw => canBegin_of_ne hw (by decide) _, fun e => absurd e (by decide),
      isQuiet_append ht (by decide)⟩
  simpa using opening

namespace Tree

variable {t : Tree} {p id : NodeId}

/-- Whether the texts right below a node are written as they are. -/
def isRaw (t : Tree) (id : NodeId) : Bool :=
  (t.tag? id).any rawTextTags.contains

/-- The parts of a node's own markup that are written as they are. -/
def verbatim (t : Tree) (id : NodeId) : List String :=
  match t.data? id with
  | some (.element e) => e.tag :: e.attributes.map Prod.fst
  | some (.text content) => if (t.parent? id).any t.isRaw then [content] else []
  | some (.comment content) => [content]
  | some (.doctype name _ _) => [name]
  | some (.instruction target data) => [target, data]
  | _ => []

/-- A node has nothing in its own markup that could be taken for a start tag of a widget. -/
structure Unmistakable (t : Tree) (id : NodeId) : Prop where
  verbatim : ∀ text ∈ t.verbatim id, isQuiet text.toList
  tag : ∀ e, t.element? id = some e → isHarmless e.tag

theorem isQuiet_chars {data : NodeData} {raw : Bool} {inner : Bool → List Char}
    (hd : t.data? id = some data) (h : t.Unmistakable id)
    (hr : raw → (t.parent? id).any t.isRaw) (hi : isQuiet (inner (t.isRaw id))) :
    isQuiet (data.chars raw inner) := by
  have hv := h.verbatim
  rw [Tree.verbatim, hd] at hv
  cases data with
  | document =>
    rw [isRaw, tag?, element?, hd] at hi
    exact hi
  | element e =>
    have he : t.element? id = some e := by rw [element?, hd]; rfl
    have hraw : t.isRaw id = rawTextTags.contains e.tag := by rw [isRaw, tag?, he]; rfl
    obtain ⟨ht, ha⟩ := List.forall_mem_cons.mp hv
    have start : isQuiet (writeStartTag e).toList :=
      isQuiet_writeStartTag ht (h.tag e he) fun pair hm => ha _ (List.mem_map_of_mem hm)
    rw [NodeData.chars]
    split
    · exact start
    · exact isQuiet_append start (isQuiet_append (hraw ▸ hi) (isQuiet_endTag ht))
  | text content =>
    rw [NodeData.chars]
    split
    next hraw =>
      dsimp only at hv
      rw [if_pos (hr hraw)] at hv
      exact hv _ List.mem_cons_self
    next => exact isQuiet_of_not_mem (lt_not_mem_escapeText content)
  | comment content =>
    simp only [NodeData.chars, String.toList_append]
    exact isQuiet_append (isQuiet_append (by decide) (hv _ List.mem_cons_self)) (by decide)
  | doctype name publicId systemId =>
    simp only [NodeData.chars, String.toList_append]
    exact isQuiet_append (isQuiet_append (by decide) (hv _ List.mem_cons_self)) (by decide)
  | instruction target content =>
    obtain ⟨ht, hc⟩ := List.forall_mem_cons.mp hv
    have hc := hc _ List.mem_cons_self
    rw [NodeData.chars]
    split <;> simp only [String.toList_append]
    · exact isQuiet_append (isQuiet_append (by decide) ht) (by decide)
    · exact isQuiet_append (isQuiet_append (isQuiet_append (isQuiet_append (by decide) ht) (by decide)) hc)
        (by decide)

/-- What holds of nothing, and of what nodes write if it holds of what is below them, holds of all
markup. -/
theorem WellFormed.chars_markup {Q : List Char → Prop} (h : t.WellFormed) (nil : Q [])
    (append : ∀ {as bs}, Q as → Q bs → Q (as ++ bs)) (p : NodeId)
    (node : ∀ id, t.Below p id → ∀ (data : NodeData) (raw : Bool) (inner : Bool → List Char),
      t.data? id = some data → (raw → (t.parent? id).any t.isRaw) → Q (inner (t.isRaw id)) → Q (data.chars raw inner)) :
    Q ((t.markup p).chars (t.isRaw p)) := by
  induction p using h.child_induction with
  | step p ih =>
    rw [h.markup_eq]
    have hc : ∀ c ∈ t.children p, t.Below p c := fun c hc => .single hc
    have hk : ∀ c ∈ t.children p, t.parent? c = some p := fun c hc => h.consistent.parent_of_mem hc
    revert hc hk ih
    generalize t.children p = cs
    intro ih hc hk
    induction cs with
    | nil => exact nil
    | cons c cs ihc =>
      rw [List.forall_mem_cons] at ih hc hk
      have rest := ihc ih.2 hc.2 hk.2
      rw [List.foldr_cons]
      cases hd : t.data? c with
      | none => exact rest
      | some data =>
        have inner := ih.1 fun id hid => node id (hc.1.trans hid)
        dsimp only
        rw [Markup.chars]
        refine append (node c hc.1 data _ (fun raw => (t.markup c).chars raw) hd (fun hr => ?_) inner) rest
        rw [hk.1]
        exact hr

/-- Markup in which no node can be mistaken has no start tag of a widget. -/
theorem WellFormed.isQuiet_markup (h : t.WellFormed) (p : NodeId) (hu : ∀ id, t.Below p id → t.Unmistakable id) :
    isQuiet ((t.markup p).chars (t.isRaw p)) :=
  h.chars_markup (Q := fun cs => isQuiet cs) rfl isQuiet_append p fun id hb _ _ _ hd hr hi =>
    isQuiet_chars hd (hu id hb) hr hi

end Tree

end LivePages
