namespace LivePages

/-- The texts between separators; one more than there are separators. -/
def splitAtChar (separator : Char) : List Char → List (List Char)
  | [] => [[]]
  | c :: cs =>
    if c = separator then [] :: splitAtChar separator cs
    else
      match splitAtChar separator cs with
      | [] => [[c]]
      | piece :: pieces => (c :: piece) :: pieces

theorem not_mem_of_mem_splitAtChar {separator : Char} {cs piece : List Char}
    (h : piece ∈ splitAtChar separator cs) : separator ∉ piece := by
  induction cs generalizing piece with
  | nil => simp_all [splitAtChar]
  | cons c cs ih =>
    simp only [splitAtChar] at h
    split at h
    · rcases List.mem_cons.mp h with rfl | h
      · simp
      · exact ih h
    next ne =>
      split at h
      next =>
        rw [List.mem_singleton.mp h, List.mem_singleton]
        exact fun he => ne he.symm
      next p ps e =>
        rw [e] at ih
        rcases List.mem_cons.mp h with rfl | h
        · simp only [List.mem_cons, not_or]
          exact ⟨fun he => ne he.symm, ih List.mem_cons_self⟩
        · exact ih (List.mem_cons_of_mem _ h)

def splitText (separator : Char) (text : String) : List String :=
  (splitAtChar separator text.toList).map String.ofList

end LivePages
