import LivePages.Page.Url
import Mathlib.Data.List.Basic

namespace LivePages

theorem splitAtChar_of_not_mem {separator : Char} {piece : List Char} (h : separator ∉ piece) :
    splitAtChar separator piece = [piece] := by
  induction piece with
  | nil => rfl
  | cons c piece ih =>
    rw [List.mem_cons, not_or] at h
    rw [splitAtChar, if_neg (Ne.symm h.1), ih h.2]

theorem splitAtChar_ne_nil (separator : Char) (cs : List Char) : splitAtChar separator cs ≠ [] := by
  cases cs with
  | nil => exact List.cons_ne_nil _ _
  | cons c cs =>
    rw [splitAtChar]
    split
    next => exact List.cons_ne_nil _ _
    next => split <;> exact List.cons_ne_nil _ _

/-- A separator parts what is before it from what is behind it. -/
theorem splitAtChar_separator (separator : Char) (before after : List Char) :
    splitAtChar separator (before ++ separator :: after) =
      splitAtChar separator before ++ splitAtChar separator after := by
  induction before with
  | nil => simp [splitAtChar]
  | cons c before ih =>
    rw [List.cons_append, splitAtChar, splitAtChar, ih]
    split
    next => rfl
    next =>
      obtain ⟨piece, pieces, e⟩ :=
        List.exists_cons_of_ne_nil (splitAtChar_ne_nil separator before)
      rw [e]
      rfl

theorem splitAtChar_append {separator : Char} {piece : List Char} (h : separator ∉ piece)
    (rest : List Char) : splitAtChar separator (piece ++ separator :: rest) =
      piece :: splitAtChar separator rest := by
  rw [splitAtChar_separator, splitAtChar_of_not_mem h, List.singleton_append]

/-- Pieces that each follow a separator come back when the whole is split. -/
theorem splitAtChar_flatMap {separator : Char} {pieces : List (List Char)}
    (h : ∀ piece ∈ pieces, separator ∉ piece) :
    splitAtChar separator (pieces.flatMap (separator :: ·)) = [] :: pieces := by
  induction pieces with
  | nil => rfl
  | cons piece pieces ih =>
    rw [List.forall_mem_cons] at h
    rw [List.flatMap_cons, List.cons_append, splitAtChar, if_pos rfl]
    cases pieces with
    | nil => rw [List.flatMap_nil, List.append_nil, splitAtChar_of_not_mem h.1]
    | cons next pieces =>
      have ih := ih h.2
      rw [List.flatMap_cons, List.cons_append, splitAtChar, if_pos rfl, List.cons_eq_cons] at ih
      rw [List.flatMap_cons, List.cons_append, splitAtChar_append h.1, ih.2]

namespace PageUrl

/-- The segments of an address have content and no slash. -/
def Proper (u : PageUrl) : Prop :=
  ∀ segment ∈ u.segments, isSegment segment.toList ∧ '/' ∉ segment.toList

theorem proper_ofText (text : String) : (ofText text).Proper := by
  intro segment hs
  obtain ⟨piece, hp, rfl⟩ := List.mem_map.mp hs
  obtain ⟨hp, hc⟩ := List.mem_filter.mp hp
  rw [String.toList_ofList]
  exact ⟨hc, not_mem_of_mem_splitAtChar hp⟩

theorem Proper.slash_not_mem {u : PageUrl} (h : u.Proper) :
    ∀ piece ∈ u.segments.map String.toList, '/' ∉ piece := by
  intro piece hp
  obtain ⟨segment, hs, rfl⟩ := List.mem_map.mp hp
  exact (h segment hs).2

theorem toList_text {u : PageUrl} (h : ¬ u.isRoot) :
    u.text.toList = (u.segments.map String.toList).flatMap ('/' :: ·) := by
  rw [text, if_neg h, String.toList_join, List.flatMap_map, List.flatMap_map]
  refine List.flatMap_congr fun segment _ => ?_
  rw [String.toList_append]
  rfl

/-- The canonical form of an address is read as the address. -/
theorem Proper.ofText_text {u : PageUrl} (h : u.Proper) : ofText u.text = u := by
  by_cases hr : u.isRoot
  · have hu : u = root := congrArg PageUrl.mk (List.isEmpty_iff.mp hr)
    rw [hu]
    decide
  · have content (piece) (hp : piece ∈ u.segments.map String.toList) : isSegment piece := by
      obtain ⟨segment, hs, rfl⟩ := List.mem_map.mp hp
      exact (h segment hs).1
    have hs : segmentsOf u.text = u.segments := by
      rw [segmentsOf, toList_text hr, splitAtChar_flatMap h.slash_not_mem,
        List.filter_cons_of_neg (by decide), List.filter_eq_self.mpr content, List.map_map]
      exact (List.map_congr_left fun segment _ => String.ofList_toList).trans (List.map_id _)
    rw [ofText, hs]

theorem Proper.eq_of_text_eq {u v : PageUrl} (hu : u.Proper) (hv : v.Proper) (h : u.text = v.text) :
    u = v := by
  rw [← hu.ofText_text, h, hv.ofText_text]

theorem eq_of_text_eq {a b : String} (h : (ofText a).text = (ofText b).text) : ofText a = ofText b :=
  (proper_ofText a).eq_of_text_eq (proper_ofText b) h

/-- The root is no exception: its segments, of which there are none, come before the last one. -/
theorem toList_socketPath (u : PageUrl) : u.socketPath.toList =
    (u.segments.map String.toList).flatMap ('/' :: ·) ++ "/ws".toList := by
  rw [socketPath]
  split
  next hr =>
    rw [isRoot, List.isEmpty_iff] at hr
    rw [hr]
    rfl
  next hr => rw [String.toList_append, toList_text hr]

theorem Proper.eq_of_socketPath_eq {u v : PageUrl} (hu : u.Proper) (hv : v.Proper)
    (h : u.socketPath = v.socketPath) : u = v := by
  have e := congrArg String.toList h
  rw [toList_socketPath, toList_socketPath, List.append_cancel_right_eq] at e
  have split := congrArg (splitAtChar '/') e
  rw [splitAtChar_flatMap hu.slash_not_mem, splitAtChar_flatMap hv.slash_not_mem,
    List.cons.injEq] at split
  have segments := List.map_injective_iff.mpr (fun a b => String.toList_inj.mp) split.2
  exact congrArg PageUrl.mk segments

end PageUrl

end LivePages
