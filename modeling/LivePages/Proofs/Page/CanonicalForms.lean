import LivePages.Proofs.Page.Url
import LivePages.Proofs.Text.Hex
import Mathlib.Tactic.TFAE

namespace LivePages

namespace PageUrl

variable {u : PageUrl}

/-- The canonical form of an address: it is read as the address, it is rooted, only that of the root
has a slash at its end, and the pieces behind the first slash are the segments, none of which is
empty or a dot. -/
structure Canonical (u : PageUrl) : Prop where
  reads : ofText u.text = u
  rooted : u.text.toList.head? = some '/'
  ends : u.text.toList.getLast? = some '/' ↔ u = root
  pieces : splitText '/' u.text = "" :: if u = root then [""] else u.segments
  content : ∀ segment ∈ u.segments, segment ≠ "" ∧ segment ≠ "."

theorem not_isRoot (h : u ≠ root) : ¬ u.isRoot :=
  fun hr => h (congrArg PageUrl.mk (List.isEmpty_iff.mp hr))

theorem head_text (u : PageUrl) : u.text.toList.head? = some '/' := by
  by_cases hr : u = root
  · rw [hr]
    rfl
  · rw [toList_text (not_isRoot hr)]
    cases hs : u.segments with
    | nil => exact absurd (congrArg PageUrl.mk hs) hr
    | cons segment segments => rfl

namespace Proper

theorem splitText_text (h : u.Proper) :
    splitText '/' u.text = "" :: if u = root then [""] else u.segments := by
  split
  next hr =>
    rw [hr]
    decide
  next hr =>
    rw [splitText, toList_text (not_isRoot hr), splitAtChar_flatMap h.slash_not_mem, List.map_cons,
      List.map_map]
    exact congrArg _
      ((List.map_congr_left fun segment _ => String.ofList_toList).trans (List.map_id _))

/-- The last character is one of the last segment. -/
theorem getLast_text (h : u.Proper) (hr : u ≠ root) : u.text.toList.getLast? ≠ some '/' := by
  rw [toList_text (not_isRoot hr)]
  rcases List.eq_nil_or_concat u.segments with hs | ⟨before, last, hs⟩
  · exact absurd (congrArg PageUrl.mk hs) hr
  · obtain ⟨content, slash⟩ := h last (by simp [hs])
    have hne : last.toList ≠ [] := by
      intro e
      rw [e] at content
      exact absurd content (by decide)
    rw [hs, List.concat_eq_append, List.map_append, List.flatMap_append, List.map_singleton,
      List.flatMap_singleton, List.getLast?_append_cons, List.getLast?_cons_of_ne_nil hne]
    exact fun e => slash (List.mem_of_getLast? e)

theorem canonical (h : u.Proper) : u.Canonical where
  reads := h.ofText_text
  rooted := head_text u
  ends := by
    refine ⟨fun e => ?_, fun e => e ▸ rfl⟩
    by_contra hr
    exact h.getLast_text hr e
  pieces := h.splitText_text
  content segment hs := by
    have content := (h segment hs).1
    constructor <;>
    · rintro rfl
      exact absurd content (by decide)

end Proper

/-- Whatever two addresses are written like, they are the same exactly if the names of their rooms
are, the starts of the names chosen on them, or the places where their rooms are reached. -/
theorem canonical_forms (a b : String) :
    [ofText a = ofText b, (ofText a).text = (ofText b).text, (ofText a).hex = (ofText b).hex,
      (ofText a).socketPath = (ofText b).socketPath].TFAE ∧ (ofText a).Canonical := by
  refine ⟨?_, (proper_ofText a).canonical⟩
  tfae_have 1 → 3 := congrArg hex
  tfae_have 3 → 2 := hexOfText_injective
  tfae_have 2 → 1 := eq_of_text_eq
  tfae_have 1 → 4 := congrArg socketPath
  tfae_have 4 → 1 := (proper_ofText a).eq_of_socketPath_eq (proper_ofText b)
  tfae_finish

example : (ofText ".//guide/./intro/").text = "/guide/intro" := by decide

end PageUrl

end LivePages
