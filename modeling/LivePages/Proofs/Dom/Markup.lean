import LivePages.Html.Serialize
import LivePages.Proofs.Dom.DocumentOrder

namespace LivePages

/-- Siblings with all that is below them, apart from any tree. -/
inductive Markup where
  | nil
  | node (data : NodeData) (inner rest : Markup)
  deriving DecidableEq

namespace Tree

variable {t : Tree} {p : NodeId}

/-- What is below a node, to a given depth. -/
def markupUpTo (t : Tree) : Nat → NodeId → Markup
  | 0, _ => .nil
  | depth + 1, id => (t.children id).foldr (fun c rest =>
      match t.data? c with
      | some data => .node data (t.markupUpTo depth c) rest
      | none => rest) .nil

/-- All that is below a node. -/
def markup (t : Tree) (id : NodeId) : Markup :=
  t.markupUpTo t.size id

theorem markupUpTo_succ (t : Tree) (depth : Nat) (id : NodeId) :
    t.markupUpTo (depth + 1) id = (t.children id).foldr (fun c rest =>
      match t.data? c with
      | some data => .node data (t.markupUpTo depth c) rest
      | none => rest) .nil :=
  rfl

theorem WellFormed.markupUpTo_weight (h : t.WellFormed) {n : Nat} (hn : t.weight p ≤ n) :
    t.markupUpTo (n + 1) p = t.markupUpTo n p := by
  induction n generalizing p with
  | zero =>
    have hk : t.children p = [] := by
      by_contra hne
      obtain ⟨c, hc⟩ := List.exists_mem_of_ne_nil _ hne
      have := h.weight_lt hc
      omega
    rw [markupUpTo_succ, hk]
    rfl
  | succ n ih =>
    rw [markupUpTo_succ, markupUpTo_succ]
    refine List.foldr_ext _ _ _ fun c hc rest => ?_
    have := h.weight_lt hc
    rw [ih (by omega)]

/-- Below a node there are its children, each with what is below it. -/
theorem WellFormed.markup_eq (h : t.WellFormed) (p : NodeId) :
    t.markup p = (t.children p).foldr (fun c rest =>
      match t.data? c with
      | some data => .node data (t.markup c) rest
      | none => rest) .nil := by
  rw [markup, ← h.markupUpTo_weight (t.weight_le_size p), markupUpTo_succ]
  rfl

end Tree

/-- The text of a node around that of what is below it; `raw` says that texts are not escaped. -/
def NodeData.chars (raw : Bool) (inner : Bool → List Char) : NodeData → List Char
  | document => inner false
  | element e =>
    if voidTags.contains e.tag then (writeStartTag e).toList
    else (writeStartTag e).toList ++
      (inner (rawTextTags.contains e.tag) ++ ("</" ++ e.tag ++ ">").toList)
  | text content => if raw then content.toList else (escapeText content).toList
  | comment content => ("<!--" ++ content ++ "-->").toList
  | doctype name _ _ => ("<!DOCTYPE " ++ name ++ ">").toList
  | instruction target data =>
    (if data.isEmpty then "<?" ++ target ++ ">" else "<?" ++ target ++ " " ++ data ++ ">").toList

namespace Markup

/-- The text of siblings. -/
def chars : Bool → Markup → List Char
  | _, nil => []
  | raw, node data inner rest => data.chars raw (fun raw => inner.chars raw) ++ rest.chars raw

end Markup

namespace Tree

variable {t : Tree}

theorem toList_join_writeNode {depth : Nat}
    (inner : ∀ raw id, (String.join ((t.children id).map (t.writeNode depth raw))).toList =
      (t.markupUpTo depth id).chars raw) (raw : Bool) (ids : List NodeId) :
    (String.join (ids.map (t.writeNode (depth + 1) raw))).toList =
      (ids.foldr (fun c rest =>
        match t.data? c with
        | some data => .node data (t.markupUpTo depth c) rest
        | none => rest) Markup.nil).chars raw := by
  induction ids with
  | nil => rfl
  | cons c ids ih =>
    rw [List.map_cons, String.join_cons, String.toList_append, ih, List.foldr_cons, writeNode]
    cases t.data? c with
    | none => rfl
    | some data =>
      dsimp only
      rw [Markup.chars]
      congr 1
      cases data with
      | document => exact inner false c
      | element e =>
        dsimp only [NodeData.chars]
        split
        next => rfl
        next => simp only [String.toList_append, inner, List.append_assoc]
      | text content => cases raw <;> rfl
      | comment content => rfl
      | doctype name publicId systemId => rfl
      | instruction target data => rfl

theorem toList_join_children (t : Tree) (depth : Nat) (raw : Bool) (id : NodeId) :
    (String.join ((t.children id).map (t.writeNode depth raw))).toList =
      (t.markupUpTo depth id).chars raw := by
  induction depth generalizing raw id with
  | zero =>
    have h : t.writeNode 0 raw = fun _ => "" := rfl
    simp [h, markupUpTo, Markup.chars, String.toList_join]
  | succ depth ih => exact toList_join_writeNode ih raw (t.children id)

/-- Only what is below a node counts for its inner markup. -/
theorem WellFormed.toList_innerHtml (h : t.WellFormed) (id : NodeId) :
    (t.innerHtml id).toList = (t.markup id).chars false := by
  rw [innerHtml, toList_join_children, h.markupUpTo_weight (t.weight_le_size id), markup]

end Tree

end LivePages
