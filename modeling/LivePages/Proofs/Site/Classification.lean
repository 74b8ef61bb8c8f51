import LivePages.Proofs.Page.Url
import LivePages.Site.Discovery

namespace LivePages

theorem eq_empty_of_splitText {separator : Char} {text : String}
    (h : splitText separator text = [""]) : text = "" := by
  apply String.toList_inj.mp
  unfold splitText at h
  cases e : text.toList with
  | nil => rfl
  | cons c cs =>
    rw [e, splitAtChar] at h
    split at h
    next =>
      obtain ⟨piece, pieces, e⟩ := List.exists_cons_of_ne_nil (splitAtChar_ne_nil separator cs)
      rw [e] at h
      cases (List.cons.inj h).2
    next =>
      obtain ⟨piece, pieces, e⟩ := List.exists_cons_of_ne_nil (splitAtChar_ne_nil separator cs)
      rw [e] at h
      have empty := congrArg String.toList (List.cons.inj h).1
      rw [String.toList_ofList] at empty
      cases empty

variable {name stem ending : String} {f : SiteFile}

theorem splitText_ending (h : '.' ∉ ending.toList) :
    splitText '.' (stem ++ "." ++ ending) = splitText '.' stem ++ [ending] := by
  have e : (stem ++ "." ++ ending).toList = stem.toList ++ '.' :: ending.toList := by
    rw [String.toList_append, String.toList_append, List.append_assoc]
    rfl
  unfold splitText
  rw [e, splitAtChar_separator, splitAtChar_of_not_mem h, List.map_append, List.map_singleton,
    String.ofList_toList]

theorem extension?_ending (h : '.' ∉ ending.toList) :
    extension? (stem ++ "." ++ ending) = if stem = "" then none else some ending := by
  unfold extension?
  rw [splitText_ending h, List.reverse_append, List.reverse_singleton, List.singleton_append]
  by_cases hs : stem = ""
  · subst hs
    rfl
  · obtain ⟨first, rest, e⟩ := List.exists_cons_of_ne_nil (l := (splitText '.' stem).reverse) (by
      simp [splitText, splitAtChar_ne_nil])
    have single : ¬ (rest.isEmpty && first == "") := by
      rw [Bool.and_eq_true, List.isEmpty_iff, beq_iff_eq]
      rintro ⟨rfl, rfl⟩
      exact hs (eq_empty_of_splitText (List.reverse_eq_iff.mp e))
    rw [e, if_neg hs]
    dsimp only
    rw [if_neg single]

/-- A name with a point has a last one. -/
theorem exists_ending (h : '.' ∈ name.toList) :
    ∃ stem ending, name = stem ++ "." ++ ending ∧ '.' ∉ ending.toList := by
  obtain ⟨after, before, e, hn⟩ := List.eq_append_cons_of_mem (List.mem_reverse.mpr h)
  refine ⟨String.ofList before.reverse, String.ofList after.reverse, String.toList_inj.mp ?_, ?_⟩
  · rw [String.toList_append, String.toList_append, String.toList_ofList, String.toList_ofList,
      ← List.reverse_reverse name.toList, e]
    simp
  · rw [String.toList_ofList, List.mem_reverse]
    exact hn

theorem extension?_eq_some_iff (h : '.' ∉ ending.toList) :
    extension? name = some ending ↔ ∃ stem, stem ≠ "" ∧ name = stem ++ "." ++ ending := by
  constructor
  · intro he
    by_cases hm : '.' ∈ name.toList
    · obtain ⟨stem, ending', rfl, hn⟩ := exists_ending hm
      rw [extension?_ending hn] at he
      split at he
      next => cases he
      next hs =>
        cases he
        exact ⟨stem, hs, rfl⟩
    · unfold extension? splitText at he
      rw [splitAtChar_of_not_mem hm] at he
      cases he
  · rintro ⟨stem, hs, rfl⟩
    rw [extension?_ending h, if_neg hs]

theorem SiteFile.isPage_iff (f : SiteFile) :
    f.isPage ↔ ∃ stem, stem ≠ "" ∧ f.names.getLast? = some (stem ++ ".html") := by
  unfold SiteFile.isPage
  rw [beq_iff_eq, Option.bind_eq_some_iff]
  have html (stem : String) : stem ++ "." ++ "html" = stem ++ ".html" := String.append_assoc
  constructor
  · rintro ⟨name, hname, he⟩
    obtain ⟨stem, hs, rfl⟩ := (extension?_eq_some_iff (by decide)).mp he
    exact ⟨stem, hs, html stem ▸ hname⟩
  · rintro ⟨stem, hs, hname⟩
    exact ⟨_, hname, (extension?_eq_some_iff (by decide)).mpr ⟨stem, hs, (html stem).symm⟩⟩

theorem intercalate_slash {names : List String} (h : names ≠ []) :
    "/".intercalate names ++ "/" = String.join (names.map (· ++ "/")) := by
  induction names with
  | nil => exact absurd rfl h
  | cons name names ih =>
    rw [List.map_cons, String.join_cons]
    cases names with
    | nil => rw [String.intercalate_singleton, List.map_nil, String.join_nil, String.append_empty]
    | cons next names =>
      rw [String.intercalate_cons_cons, ← ih (List.cons_ne_nil _ _), String.append_assoc,
        String.append_assoc]

theorem SiteFile.address_index {parents : List String} (h : f.names = parents ++ ["index.html"]) :
    f.address = String.join (parents.map (· ++ "/")) := by
  unfold SiteFile.address publishedAddress
  rw [h, List.getLast?_concat]
  dsimp only
  rw [if_pos (by decide), List.dropLast_concat, List.length_append]
  cases parents with
  | nil => rfl
  | cons first parents =>
    rw [if_neg (by simp), intercalate_slash (List.cons_ne_nil _ _)]

theorem SiteFile.path_eq_intercalate (h : f.names.head? ≠ some "/") :
    f.path = "/".intercalate f.names := by
  unfold SiteFile.path
  split
  next e => exact absurd (congrArg List.head? e) h
  next => rfl

theorem SiteFile.address_of_ne_index (hr : f.names.head? ≠ some "/")
    (h : f.names.getLast? ≠ some "index.html") : f.address = f.path := by
  rw [path_eq_intercalate hr]
  unfold SiteFile.address publishedAddress
  split
  next e => rw [List.getLast?_eq_none_iff.mp e]; rfl
  next last e =>
    rw [if_neg]
    rintro hi
    exact h (e.trans (congrArg some (beq_iff_eq.mp hi)))

end LivePages
