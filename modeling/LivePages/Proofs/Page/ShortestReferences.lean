import LivePages.Proofs.Files.Places
import LivePages.Proofs.Page.Resolution

namespace LivePages

/-- The segments of a path are its pieces without those that lead nowhere else. -/
theorem segmentsOf_eq_filter (text : String) :
    segmentsOf text = (splitText '/' text).filter fun piece => !isIdle piece := by
  have idle (piece : List Char) : (!isIdle (String.ofList piece)) = isSegment piece := by
    have empty : (String.ofList piece == "") = piece.isEmpty := by
      rw [Bool.eq_iff_iff, beq_iff_eq, List.isEmpty_iff, ← String.toList_inj, String.toList_ofList]
      rfl
    have dot : (String.ofList piece == ".") = (piece == ['.']) := by
      rw [Bool.eq_iff_iff, beq_iff_eq, beq_iff_eq, ← String.toList_inj, String.toList_ofList]
      rfl
    rw [isIdle, isSegment, empty, dot, Bool.not_or]
    rfl
  rw [segmentsOf, splitText, List.filter_map]
  exact congrArg _ (List.filter_congr fun piece _ => (idle piece).symm)

theorem placeFrom_dots (place : List String) (n : Nat) :
    placeFrom place (List.replicate n "..") = place.take (place.length - n) := by
  induction n generalizing place with
  | zero => rw [Nat.sub_zero, List.take_length]; rfl
  | succ n ih =>
    have up : placeStep place ".." = place.dropLast := rfl
    rw [List.replicate_succ, placeFrom_cons, up, ih, List.length_dropLast, List.dropLast_eq_take,
      List.take_take]
    congr 1
    omega

namespace PageUrl

variable {u : PageUrl} {source target place : List String} {text : String}

theorem commonLength_concat (source target : List String) (segment : String) :
    commonLength (source ++ [segment]) target = commonLength source target ∨
      commonLength (source ++ [segment]) target = commonLength source target + 1 := by
  induction source generalizing target with
  | nil =>
    cases target with
    | nil => exact .inl rfl
    | cons b target =>
      simp only [List.nil_append, commonLength]
      split
      next => exact .inr rfl
      next => exact .inl rfl
  | cons a source ih =>
    cases target with
    | nil => exact .inl rfl
    | cons b target =>
      simp only [List.cons_append, commonLength]
      split
      next => exact (ih target).imp (congrArg (· + 1)) (congrArg (· + 1))
      next => exact .inl rfl

theorem length_path (source target : List String) :
    (path source target).length + 2 * commonLength source target =
      source.length + target.length := by
  have hle := commonLength_le source target
  rw [path, List.length_append, List.length_replicate, List.length_drop]
  omega

theorem path_eq_nil_iff : path source target = [] ↔ source = target := by
  have hle := commonLength_le source target
  have htake := take_commonLength source target
  have hl := length_path source target
  constructor
  · intro e
    rw [e, List.length_nil] at hl
    rwa [List.take_of_length_le (by omega), List.take_of_length_le (by omega)] at htake
  · rintro rfl
    have hc (l : List String) : commonLength l l = l.length := by
      induction l with
      | nil => rfl
      | cons a l ih => rw [commonLength, if_pos rfl, ih, List.length_cons]
    rw [hc] at hl
    exact List.length_eq_zero_iff.mp (by omega)

/-- A step down leads one step nearer or one step away. -/
theorem length_path_concat (source target : List String) (segment : String) :
    (path (source ++ [segment]) target).length = (path source target).length + 1 ∨
      (path (source ++ [segment]) target).length + 1 = (path source target).length := by
  have hl := length_path source target
  have hl' := length_path (source ++ [segment]) target
  rw [List.length_append, List.length_singleton] at hl'
  rcases commonLength_concat source target segment with hc | hc <;> rw [hc] at hl' <;> omega

theorem length_path_le_placeStep (place target : List String) (piece : String) :
    (path place target).length ≤
      (path (placeStep place piece) target).length + if isIdle piece then 0 else 1 := by
  rw [placeStep]
  split_ifs with hi hd
  · exact Nat.le_refl _
  · rcases List.eq_nil_or_concat place with rfl | ⟨directory, last, rfl⟩
    · exact Nat.le_succ _
    · rw [List.concat_eq_append, List.dropLast_concat]
      have hl := length_path_concat directory target last
      omega
  · have hl := length_path_concat place target piece
    omega

/-- However a path goes, it has as many segments as are needed to come nearer: pieces that are idle
leave the distance to the target as it is, all others change it by at most one. -/
theorem length_path_le_placeFrom (place target pieces : List String) :
    (path place target).length ≤ (path (placeFrom place pieces) target).length +
      (pieces.filter fun piece => !isIdle piece).length := by
  induction pieces generalizing place with
  | nil => exact Nat.le_refl _
  | cons piece pieces ih =>
    have step := length_path_le_placeStep place target piece
    have rest := ih (placeStep place piece)
    rw [placeFrom_cons, List.filter_cons]
    cases hi : isIdle piece <;> simp [hi] at step ⊢ <;> omega

theorem splitText_relative (u : PageUrl) (text : String) :
    splitText '/' (u.relative text) =
      if u.segments = segmentsOf text then ["."] else path u.segments (segmentsOf text) := by
  rw [relative]
  split
  next e =>
    rw [if_pos (path_eq_nil_iff.mp e)]
    decide
  next parts hne =>
    rw [if_neg fun e => hne (path_eq_nil_iff.mpr e)]
    exact splitText_intercalate (fun piece hp => (path_proper u.segments text piece hp).2) hne

theorem isFileName_of_mem_segmentsOf {segment : String} (h : ".." ∉ segmentsOf text)
    (hs : segment ∈ segmentsOf text) : IsFileName segment := by
  obtain ⟨content, slash⟩ := proper_ofText text segment hs
  refine ⟨?_, ?_, fun e => h (e ▸ hs), slash⟩ <;>
  · rintro rfl
    exact absurd content (by decide)

theorem placeFrom_path (h : ".." ∉ segmentsOf text) :
    placeFrom source (path source (segmentsOf text)) = segmentsOf text := by
  have hle := commonLength_le source (segmentsOf text)
  have names : ∀ name ∈ (segmentsOf text).drop (commonLength source (segmentsOf text)),
      IsFileName name := fun name hn => isFileName_of_mem_segmentsOf h (List.mem_of_mem_drop hn)
  rw [path, placeFrom_append, placeFrom_dots, Nat.sub_sub_self hle.1, placeFrom_names names,
    take_commonLength, List.take_append_drop]

/-- A reference goes up only as far as to what its page and its target have in common. -/
theorem placeFrom_ne_nil_of_path {before after : List String} (h : ".." ∉ target)
    (e : path source target = before ++ ".." :: after) : placeFrom source before ≠ [] := by
  have down : ".." ∉ target.drop (commonLength source target) := fun hm =>
    h (List.mem_of_mem_drop hm)
  -- Either the step up is among the names on the way down, or all before it goes up.
  rcases List.append_eq_append_iff.mp e with ⟨rest, -, hd⟩ | ⟨rest, hu, hd⟩
  · exact absurd (hd ▸ by simp) down
  · have dots : before = List.replicate before.length ".." := List.eq_replicate_of_mem
      fun piece hp => List.eq_of_mem_replicate (hu ▸ List.mem_append_left rest hp)
    have hr : rest ≠ [] := by
      rintro rfl
      rw [List.nil_append] at hd
      exact down (hd ▸ List.mem_cons_self)
    have hl := congrArg List.length hu
    have hpos := List.length_pos_of_ne_nil hr
    rw [List.length_replicate, List.length_append] at hl
    rw [dots, placeFrom_dots, ← List.length_pos_iff, List.length_take]
    omega

/-- A reference leads from a page to its target piece by piece, never from the root upwards, and no
path with fewer segments does, whether or not it goes above the root. -/
structure Shortest (u : PageUrl) (text reference : String) : Prop where
  leads : placeFrom u.segments (splitText '/' reference) = segmentsOf text
  below : ∀ before after, splitText '/' reference = before ++ ".." :: after →
    placeFrom u.segments before ≠ []
  ne_empty : reference ≠ ""
  unrooted : ¬ isRooted reference
  dot_iff : reference = "." ↔ u.segments = segmentsOf text
  minimal : u.segments ≠ segmentsOf text → ∀ other,
    placeFrom u.segments (splitText '/' other) = segmentsOf text →
      (splitText '/' reference).length ≤ (segmentsOf other).length

theorem shortest_relative (u : PageUrl) (h : ".." ∉ segmentsOf text) :
    u.Shortest text (u.relative text) := by
  have hs := splitText_relative u text
  have hp : path u.segments (segmentsOf text) = [] ↔ u.segments = segmentsOf text := path_eq_nil_iff
  by_cases he : u.segments = segmentsOf text
  · have hr : u.relative text = "." := by rw [relative, hp.mpr he]
    rw [hr]
    exact {
      leads := he
      below := fun before after e => by
        have hm : ".." ∈ splitText '/' "." := e ▸ by simp
        exact absurd hm (by decide)
      ne_empty := by decide
      unrooted := by decide
      dot_iff := iff_of_true rfl he
      minimal := fun hne => absurd he hne }
  · rw [if_neg he] at hs
    have hne : path u.segments (segmentsOf text) ≠ [] := fun e => he (hp.mp e)
    have idle {reference : String} (hi : segmentsOf reference = []) : u.relative text ≠ reference := by
      intro e
      rw [← e, segmentsOf_relative] at hi
      exact hne hi
    exact {
      leads := by rw [hs, placeFrom_path h]
      below := fun before after e => placeFrom_ne_nil_of_path h (hs.symm.trans e)
      ne_empty := idle (by decide)
      unrooted := not_isRooted_relative u text
      dot_iff := iff_of_false (idle (by decide)) he
      minimal := fun _ other ho => by
        have hl := length_path_le_placeFrom u.segments (segmentsOf text) (splitText '/' other)
        rwa [ho, path_eq_nil_iff.mpr rfl, List.length_nil, Nat.zero_add, ← segmentsOf_eq_filter,
          ← hs] at hl }

theorem shortest_besideIntro : ".." ∉ segmentsOf "/guide/style.css" ∧
    (ofText "guide/intro/").relative "/guide/style.css" = "../style.css" ∧
    ∀ other, placeFrom ["guide", "intro"] (splitText '/' other) = ["guide", "style.css"] →
      2 ≤ (segmentsOf other).length := by
  have h : ".." ∉ segmentsOf "/guide/style.css" := by decide
  have hr : (ofText "guide/intro/").relative "/guide/style.css" = "../style.css" := by decide
  have shortest := shortest_relative (ofText "guide/intro/") h
  refine ⟨h, hr, fun other ho => ?_⟩
  have hm := shortest.minimal (by decide) other ho
  rwa [hr] at hm

end PageUrl

end LivePages
