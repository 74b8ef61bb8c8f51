import LivePages.Files.Path
import LivePages.Proofs.Page.Url
import Mathlib.Data.List.Induction

namespace LivePages

theorem segmentsOf_append (a b : String) : segmentsOf (a ++ "/" ++ b) = segmentsOf a ++ segmentsOf b := by
  have e : (a ++ "/" ++ b).toList = a.toList ++ '/' :: b.toList := by
    rw [String.toList_append, String.toList_append, List.append_assoc]
    rfl
  rw [segmentsOf, e, splitAtChar_separator, List.filter_append, List.map_append, segmentsOf,
    segmentsOf]

theorem segmentsOf_intercalate (parts : List String) :
    segmentsOf ("/".intercalate parts) = parts.flatMap segmentsOf := by
  induction parts with
  | nil => decide
  | cons a parts ih =>
    cases parts with
    | nil => rw [String.intercalate_singleton, List.flatMap_singleton]
    | cons b parts =>
      rw [String.intercalate_cons_cons, segmentsOf_append, ih]
      rfl

/-- Follows a way from a directory: two dots lead to the directory above, and above the root there
is nothing. -/
def follow : List String → List String → Option (List String)
  | directory, [] => some directory
  | directory, segment :: way =>
    if segment = ".." then
      if directory = [] then none else follow directory.dropLast way
    else follow (directory ++ [segment]) way

/-- What a reference leads to from a directory, as far as it is below the root. -/
def resolve (directory : List String) (reference : String) : Option (List String) :=
  if isRooted reference then none else follow directory (segmentsOf reference)

section Ways

variable {directory place source target way : List String}

theorem follow_append (directory way way' : List String) :
    follow directory (way ++ way') = (follow directory way).bind fun place => follow place way' := by
  induction way generalizing directory with
  | nil => rfl
  | cons segment way ih =>
    rw [List.cons_append, follow, follow]
    split
    next =>
      split
      next => rfl
      next => exact ih _
    next => exact ih _

theorem follow_down (h : ".." ∉ way) : follow directory way = some (directory ++ way) := by
  induction way generalizing directory with
  | nil => rw [follow, List.append_nil]
  | cons segment way ih =>
    rw [List.mem_cons, not_or] at h
    rw [follow, if_neg (Ne.symm h.1), ih h.2, ← List.append_cons]

theorem follow_up (directory below : List String) :
    follow (directory ++ below) (List.replicate below.length "..") = some directory := by
  induction below using List.reverseRecOn with
  | nil => rw [List.append_nil, List.length_nil, List.replicate_zero, follow]
  | append_singleton below last ih =>
    rw [List.length_append, List.length_singleton, List.replicate_succ, follow, if_pos rfl,
      if_neg (by simp), ← List.append_assoc, List.dropLast_concat, ih]

/-- The number of segments says how often a way goes up. -/
theorem length_follow (h : follow directory way = some place) :
    place.length + 2 * way.count ".." = directory.length + way.length := by
  induction way generalizing directory with
  | nil =>
    cases Option.some.inj h
    rfl
  | cons segment way ih =>
    rw [follow] at h
    split at h
    next hs =>
      split at h
      next => cases h
      next hd =>
        have hl := ih h
        have hd := List.length_pos_of_ne_nil hd
        rw [List.length_dropLast] at hl
        rw [hs, List.count_cons_self, List.length_cons]
        omega
    next hs =>
      have hl := ih h
      rw [List.length_append, List.length_singleton] at hl
      rw [List.count_cons_of_ne hs, List.length_cons]
      omega

end Ways

/-- A place with a detour: from one of the directories above it some way, and all the way back. -/
def detour (target way : List String) (c : Nat) : List String :=
  target.take c ++ (way ++ List.replicate way.length "..") ++ target.drop c

theorem getLast?_detour (target way : List String) (c : Nat) :
    (detour target way c).getLast? = target.getLast? ∨
      (detour target way c).getLast? = some ".." := by
  rw [detour]
  by_cases hc : c < target.length
  · left
    have hne : target ≠ [] := List.ne_nil_of_length_pos (Nat.zero_lt_of_lt hc)
    rw [List.getLast?_append, List.getLast?_drop, if_neg (Nat.not_le.mpr hc),
      List.getLast?_eq_some_getLast hne]
    rfl
  · have hc := Nat.le_of_not_lt hc
    rw [List.drop_eq_nil_of_le hc, List.take_of_length_le hc, List.append_nil]
    rcases List.eq_nil_or_concat way with rfl | ⟨before, last, rfl⟩
    · left
      simp
    · right
      rw [List.length_concat, List.replicate_succ', ← List.append_assoc, ← List.append_assoc,
        List.getLast?_concat]

theorem length_detour (target way : List String) (c : Nat) :
    (detour target way c).length = target.length + 2 * way.length := by
  have hl := congrArg List.length (List.take_append_drop c target)
  rw [List.length_append] at hl
  rw [detour, List.length_append, List.length_append, List.length_append, List.length_replicate]
  omega

namespace PageUrl

variable {u : PageUrl} {source target target' : List String} {text : String}

theorem commonLength_le (source target : List String) :
    commonLength source target ≤ source.length ∧ commonLength source target ≤ target.length := by
  fun_induction commonLength source target with
  | case1 a as bs ih => simp only [List.length_cons]; omega
  | case2 a as b bs => simp
  | case3 => simp

theorem take_commonLength (source target : List String) :
    source.take (commonLength source target) = target.take (commonLength source target) := by
  fun_induction commonLength source target with
  | case1 a as bs ih => rw [List.take_succ_cons, List.take_succ_cons, ih]
  | case2 a as b bs => rw [List.take_zero, List.take_zero]
  | case3 => rw [List.take_zero, List.take_zero]

theorem follow_path (h : ".." ∉ target) : follow source (path source target) = some target := by
  have hup := follow_up (source.take (commonLength source target))
    (source.drop (commonLength source target))
  rw [List.take_append_drop, List.length_drop] at hup
  have hdown : ".." ∉ target.drop (commonLength source target) := fun hm =>
    h (List.mem_of_mem_drop hm)
  rw [path, follow_append, hup, Option.bind_some, follow_down hdown, take_commonLength,
    List.take_append_drop]

/-- Where two places have the same reference and the first has no two dots in it, the second is the
first with a detour. -/
theorem path_detour (h : ".." ∉ target) (e : path source target = path source target') :
    ∃ c way, target' = detour target way c := by
  obtain ⟨hs, ht⟩ := commonLength_le source target
  obtain ⟨hs', ht'⟩ := commonLength_le source target'
  have htake := take_commonLength source target
  have htake' := take_commonLength source target'
  rw [path, path] at e
  generalize commonLength source target = c at *
  generalize commonLength source target' = c' at *
  rcases Nat.lt_or_ge c' c with hlt | hge
  · -- The way to the first target would go up below what both have in common.
    obtain ⟨n, rfl⟩ := Nat.exists_eq_add_of_lt hlt
    have hn : source.length - c' = source.length - (c' + n + 1) + (n + 1) := by omega
    rw [hn, List.replicate_add, List.append_assoc, List.append_cancel_left_eq] at e
    have hm : ".." ∈ target.drop (c' + n + 1) := by
      rw [e]
      simp
    exact absurd (List.mem_of_mem_drop hm) h
  · obtain ⟨n, rfl⟩ := Nat.exists_eq_add_of_le hge
    have hn : source.length - c = source.length - (c + n) + n := by omega
    rw [hn, List.replicate_add, List.append_assoc, List.append_cancel_left_eq] at e
    have hc : target'.take c = target.take c := by
      have := congrArg (List.take c) htake'
      rw [List.take_take, List.take_take, Nat.min_eq_left (Nat.le_add_right c n)] at this
      exact this.symm.trans htake
    have hl : ((target'.drop c).take n).length = n := by
      rw [List.length_take, List.length_drop]
      omega
    refine ⟨c, (target'.drop c).take n, ?_⟩
    calc target' = target'.take c ++ ((target'.drop c).take n ++ (target'.drop c).drop n) := by
          rw [List.take_append_drop, List.take_append_drop]
      _ = _ := by rw [detour, hc, hl, List.drop_drop, ← e]; simp

theorem path_proper (source : List String) (text : String) :
    Proper ⟨path source (segmentsOf text)⟩ := by
  intro segment hs
  rcases List.mem_append.mp hs with hs | hs
  · rw [List.eq_of_mem_replicate hs]
    decide
  · exact proper_ofText text segment (List.mem_of_mem_drop hs)

theorem Proper.segmentsOf_intercalate (h : u.Proper) :
    segmentsOf ("/".intercalate u.segments) = u.segments := by
  rw [LivePages.segmentsOf_intercalate]
  refine (List.flatMap_congr fun segment hs => ?_).trans (List.flatMap_singleton' _)
  rw [segmentsOf, splitAtChar_of_not_mem (h segment hs).2]
  simp [(h segment hs).1]

theorem segmentsOf_relative (u : PageUrl) (text : String) :
    segmentsOf (u.relative text) = path u.segments (segmentsOf text) := by
  rw [relative]
  split
  next e => rw [e]; decide
  next parts _ => exact (path_proper u.segments text).segmentsOf_intercalate

theorem not_isRooted_relative (u : PageUrl) (text : String) : ¬ isRooted (u.relative text) := by
  rw [relative]
  split
  next => decide
  next parts hne =>
    have hp := path_proper u.segments text
    obtain ⟨first, rest, e⟩ := List.exists_cons_of_ne_nil hne
    obtain ⟨hs, hm⟩ := hp first (e ▸ List.mem_cons_self)
    obtain ⟨tail, ht⟩ : ∃ tail, ("/".intercalate (first :: rest)).toList = first.toList ++ tail := by
      cases rest with
      | nil => exact ⟨[], by rw [String.intercalate_singleton, List.append_nil]⟩
      | cons second rest =>
        rw [String.intercalate_cons_cons, String.toList_append, String.toList_append,
          List.append_assoc]
        exact ⟨_, rfl⟩
    rw [e, isRooted, ht]
    cases hc : first.toList with
    | nil => simp [isSegment, hc] at hs
    | cons c cs =>
      rw [hc, List.mem_cons, not_or] at hm
      simpa using Ne.symm hm.1

theorem resolve_relative (h : ".." ∉ segmentsOf text) :
    resolve u.segments (u.relative text) = some (segmentsOf text) := by
  rw [resolve, if_neg (not_isRooted_relative u text), segmentsOf_relative, follow_path h]

/-- From the directory around a page, a reference from the page leads one segment too high. -/
theorem length_resolve_relative {place : List String} (hu : u.segments ≠ [])
    (ht : ".." ∉ segmentsOf text)
    (h : resolve u.segments.dropLast (u.relative text) = some place) :
    place.length + 1 = (segmentsOf text).length := by
  rw [resolve, if_neg (not_isRooted_relative u text), segmentsOf_relative] at h
  have hl := length_follow h
  have hle := commonLength_le u.segments (segmentsOf text)
  have hc : (path u.segments (segmentsOf text)).count ".." =
      u.segments.length - commonLength u.segments (segmentsOf text) := by
    rw [path, List.count_append, List.count_replicate_self,
      List.count_eq_zero_of_not_mem fun hm => ht (List.mem_of_mem_drop hm), Nat.add_zero]
  have hpos := List.length_pos_of_ne_nil hu
  rw [hc, path, List.length_append, List.length_replicate, List.length_drop,
    List.length_dropLast] at hl
  omega

end PageUrl

end LivePages
