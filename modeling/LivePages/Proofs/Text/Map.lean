import LivePages.Text.Map
import Mathlib.Data.List.Induction

namespace LivePages

theorem ne_of_textBefore {a b : String} (h : textBefore a b = true) : a ≠ b := by
  rintro rfl
  rw [textBefore_irrefl] at h
  cases h

namespace TextMap

variable {α : Type} {m : TextMap α} {k key : String} {value : α}

theorem lookup_insertInto (k key : String) (value : α) (entries : List (String × α)) :
    (insertInto key value entries).lookup k = if k = key then some value else entries.lookup k := by
  have cons {k' : String} {v : α} {rest : List (String × α)} :
      ((k', v) :: rest).lookup k = if k = k' then some v else rest.lookup k := by
    by_cases h : k = k'
    · simp [h]
    · simp [List.lookup_cons, beq_eq_false_iff_ne.mpr h, h]
  induction entries with
  | nil => exact cons
  | cons first rest ih =>
    obtain ⟨k', v⟩ := first
    rw [insertInto]
    split
    next e => rw [cons, cons, e]; split <;> rfl
    next ne =>
      split
      next => exact cons
      next =>
        rw [cons, cons, ih]
        by_cases hk : k = k'
        · rw [if_pos hk, if_pos hk, if_neg (hk ▸ Ne.symm ne)]
        · rw [if_neg hk, if_neg hk]

theorem lookup_insert (m : TextMap α) (k key : String) (value : α) :
    (m.insert key value).lookup k = if k = key then some value else m.lookup k :=
  lookup_insertInto k key value m.entries

@[simp] theorem lookup_empty (k : String) : (empty : TextMap α).lookup k = none :=
  rfl

theorem contains_insert (m : TextMap α) (k key : String) (value : α) :
    (m.insert key value).contains k = (k == key || m.contains k) := by
  rw [contains, lookup_insert]
  split
  next h => simp [h]
  next h => simp [h, contains]

theorem contains_iff : m.contains k ↔ k ∈ m.keys := by
  rw [contains, lookup, keys]
  induction m.entries with
  | nil => simp
  | cons first rest ih =>
    obtain ⟨k', v⟩ := first
    rw [List.map_cons, List.mem_cons, ← ih, List.lookup_cons]
    by_cases h : k = k'
    · simp [h]
    · simp [h, beq_eq_false_iff_ne.mpr h]

theorem entries_insert (h : ¬ m.contains key) (value : α) :
    (m.insert key value).entries.Perm (m.entries ++ [(key, value)]) := by
  have into {entries : List (String × α)} (h : key ∉ entries.map Prod.fst) :
      (insertInto key value entries).Perm ((key, value) :: entries) := by
    induction entries with
    | nil => exact .refl _
    | cons first rest ih =>
      obtain ⟨k', v⟩ := first
      rw [List.map_cons, List.mem_cons, not_or] at h
      rw [insertInto, if_neg h.1]
      split
      next => exact .refl _
      next => exact ((ih h.2).cons (k', v)).trans (List.Perm.swap ..)
  rw [contains_iff] at h
  exact (into h).trans (List.perm_append_singleton ..).symm

theorem keys_insert (h : ¬ m.contains key) : (m.insert key value).keys.Perm (m.keys ++ [key]) := by
  have hp := (entries_insert h value).map Prod.fst
  rwa [List.map_append] at hp

theorem nodup_keys (m : TextMap α) : m.keys.Nodup :=
  List.pairwise_map.mpr (m.sorted.imp ne_of_textBefore)

theorem nodup_entries (m : TextMap α) : m.entries.Nodup :=
  m.sorted.imp fun h e => ne_of_textBefore h (congrArg Prod.fst e)

theorem mem_entries : (k, value) ∈ m.entries ↔ m.lookup k = some value := by
  rw [lookup, List.lookup_eq_some_iff]
  constructor
  · intro h
    obtain ⟨l₁, l₂, e⟩ := List.append_of_mem h
    refine ⟨l₁, l₂, e, fun p hp => ?_⟩
    have hs := m.sorted
    rw [e] at hs
    have before := (List.pairwise_append.mp hs).2.2 p hp _ List.mem_cons_self
    exact bne_iff_ne.mpr (ne_of_textBefore before).symm
  · rintro ⟨l₁, l₂, e, -⟩
    rw [e]
    exact List.mem_append_right l₁ List.mem_cons_self

/-- The order of the texts leaves one way to keep the same entries. -/
theorem eq_of_perm {m' : TextMap α} (h : m.entries.Perm m'.entries) : m = m' := by
  have e : m.entries = m'.entries := by
    refine h.eq_of_pairwise (fun a b _ _ hab hba => ?_) m.sorted m'.sorted
    exact absurd rfl (ne_of_textBefore (textBefore_trans hab hba))
  cases m
  cases m'
  cases e
  rfl

theorem eq_of_lookup {m' : TextMap α} (h : ∀ k, m.lookup k = m'.lookup k) : m = m' := by
  refine eq_of_perm ((List.perm_ext_iff_of_nodup m.nodup_entries m'.nodup_entries).mpr ?_)
  rintro ⟨k, v⟩
  rw [mem_entries, mem_entries, h]

theorem entries_foldl_insert {entries : List (String × α)}
    (h : (m.keys ++ entries.map Prod.fst).Nodup) :
    (entries.foldl (fun m entry => m.insert entry.1 entry.2) m).entries.Perm
      (m.entries ++ entries) := by
  induction entries generalizing m with
  | nil => rw [List.append_nil, List.foldl_nil]
  | cons entry entries ih =>
    rw [List.map_cons, List.append_cons] at h
    have hn : ¬ m.contains entry.1 := by
      rw [contains_iff]
      intro hm
      exact (List.nodup_append.mp (List.nodup_append.mp h).1).2.2 _ hm _ List.mem_cons_self rfl
    rw [List.foldl_cons, List.append_cons]
    refine (ih ?_).trans ((entries_insert hn entry.2).append_right _)
    exact (((keys_insert hn).append_right _).nodup_iff).mpr h

/-- A map is what its entries make. -/
theorem ofList_entries (m : TextMap α) : ofList m.entries = m :=
  eq_of_perm (entries_foldl_insert (m := empty) m.nodup_keys)

/-- The order of entries under distinct texts makes no difference. -/
theorem ofList_of_perm {entries entries' : List (String × α)} (h : entries.Perm entries')
    (hn : (entries.map Prod.fst).Nodup) : ofList entries = ofList entries' := by
  have hn' : (entries'.map Prod.fst).Nodup := (h.map Prod.fst).nodup hn
  refine eq_of_perm ((entries_foldl_insert (m := empty) hn).trans ?_)
  exact h.trans (entries_foldl_insert (m := empty) hn').symm

/-- Of entries under one text the last counts. -/
theorem lookup_ofList (entries : List (String × α)) (k : String) :
    (ofList entries).lookup k = entries.reverse.lookup k := by
  induction entries using List.reverseRecOn with
  | nil => rfl
  | append_singleton entries entry ih =>
    obtain ⟨key, value⟩ := entry
    have last : ofList (entries ++ [(key, value)]) = (ofList entries).insert key value := by
      rw [ofList, List.foldl_append]
      rfl
    rw [last, lookup_insert, ih, List.reverse_append, List.reverse_singleton, List.singleton_append,
      List.lookup_cons]
    by_cases h : k = key
    · rw [if_pos h, beq_iff_eq.mpr h]
    · rw [if_neg h, beq_eq_false_iff_ne.mpr h]

theorem isEmpty_iff : m.isEmpty ↔ ∀ k, k ∉ m.keys := by
  rw [isEmpty, List.isEmpty_iff, ← List.eq_nil_iff_forall_not_mem, keys, List.map_eq_nil_iff]

end TextMap

end LivePages
