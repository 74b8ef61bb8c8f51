import LivePages.Page.Url
import Mathlib.Data.List.Lex
import Mathlib.Data.Prod.Lex
import Mathlib.Data.String.Basic

namespace LivePages

theorem charsBefore_iff {as bs : List Char} : charsBefore as bs = true ↔ as < bs := by
  induction as generalizing bs with
  | nil => cases bs <;> simp [charsBefore]
  | cons a as ih =>
    cases bs with
    | nil => simp [charsBefore]
    | cons b bs =>
      have less : a.toNat < b.toNat ↔ a < b := Iff.rfl
      have same : a.toNat = b.toNat ↔ a = b := Char.toNat_inj
      simp [charsBefore, ih, less, same, List.cons_lt_cons_iff]

theorem textBefore_iff {a b : String} : textBefore a b = true ↔ a < b :=
  charsBefore_iff.trans String.lt_iff_toList_lt.symm

theorem textBefore_eq_false {a b : String} : textBefore a b = false ↔ b ≤ a := by
  rw [← Bool.not_eq_true, textBefore_iff, not_lt]

theorem pairNotAfter_iff (a b : String × String) :
    pairNotAfter a b = true ↔ toLex a ≤ toLex b := by
  rw [pairNotAfter, Bool.or_eq_true, Bool.and_eq_true, textBefore_iff, beq_iff_eq, Bool.not_eq_true',
    textBefore_eq_false]
  exact Prod.Lex.toLex_le_toLex.symm

/-- Names are compared in the order of lists. -/
theorem compareSegments_eq_gt {as bs : List String} :
    PageUrl.compareSegments as bs = .gt ↔ bs < as := by
  induction as generalizing bs with
  | nil => cases bs <;> simp [PageUrl.compareSegments]
  | cons a as ih =>
    cases bs with
    | nil => simp [PageUrl.compareSegments]
    | cons b bs =>
      rw [PageUrl.compareSegments, List.cons_lt_cons_iff]
      rcases lt_trichotomy a b with h | rfl | h
      · rw [if_pos (textBefore_iff.mpr h)]
        simp [lt_asymm h, h.ne']
      · rw [textBefore_irrefl, if_neg Bool.false_ne_true, if_neg Bool.false_ne_true, ih]
        simp
      · rw [if_neg (mt textBefore_iff.mp (lt_asymm h)), if_pos (textBefore_iff.mpr h)]
        simp [h]

section Sorting

variable {α β : Type} [LinearOrder β] {le : α → α → Bool} {key : α → β}
  (h : ∀ a b, le a b = true ↔ key a ≤ key b)
include h

theorem pairwise_mergeSort_key (l : List α) :
    (l.mergeSort le).Pairwise fun a b => key a ≤ key b := by
  have trans (a b c : α) (hab : le a b = true) (hbc : le b c = true) : le a c = true :=
    (h a c).mpr (((h a b).mp hab).trans ((h b c).mp hbc))
  have total (a b : α) : (le a b || le b a) = true := by
    rw [Bool.or_eq_true, h, h]
    exact le_total _ _
  exact (List.pairwise_mergeSort trans total l).imp fun {a b} => (h a b).mp

/-- Sorted lists are the same exactly if the lists are the same in some order. -/
theorem mergeSort_eq_iff (hk : Function.Injective key) {l l' : List α} :
    l.mergeSort le = l'.mergeSort le ↔ l.Perm l' := by
  constructor
  · intro e
    exact ((List.mergeSort_perm l _).symm.trans (.of_eq e)).trans (List.mergeSort_perm l' _)
  · intro hp
    refine List.Perm.eq_of_pairwise (fun a b _ _ hab hba => hk (le_antisymm hab hba))
      (pairwise_mergeSort_key h l) (pairwise_mergeSort_key h l') ?_
    exact ((List.mergeSort_perm l _).trans hp).trans (List.mergeSort_perm l' _).symm

end Sorting

end LivePages
