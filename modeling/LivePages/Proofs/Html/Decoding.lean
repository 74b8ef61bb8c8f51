import LivePages.Html.CharacterReference
import LivePages.Proofs.Html.Escapes

namespace LivePages

/-- Two lists have different characters at a place that both have. -/
def disagree : List Char → List Char → Bool
  | a :: as, b :: bs => a != b || disagree as bs
  | _, _ => false

theorem afterText?_eq_none {ws ps : List Char} (h : disagree ws ps) (cs : List Char) :
    afterText? ws (ps ++ cs) = none := by
  induction ws generalizing ps with
  | nil => cases h
  | cons w ws ih =>
    cases ps with
    | nil => cases h
    | cons p ps =>
      rw [List.cons_append, afterText?]
      split
      next e =>
        rw [disagree, e, bne_self_eq_false, Bool.false_or] at h
        exact ih h
      next => rfl

theorem afterText?_append (ws cs : List Char) : afterText? ws (ws ++ cs) = some cs := by
  induction ws with
  | nil => rfl
  | cons w ws ih => exact (if_pos rfl).trans ih

/-! The search for the longest name, name by name. A name is a literal, whose characters are known
without decoding it. -/

section Names

variable {ws ps rest found : List Char} (cs : List Char) (meaning : List Nat)
  (names : List (String × List Nat))

theorem longestName_skip (best : Option (List Char × List Nat × List Char)) (h : disagree ws ps) :
    longestName (ps ++ cs) ((String.ofList ws, meaning) :: names) best =
      longestName (ps ++ cs) names best := by
  rw [longestName, String.toList_ofList, afterText?_eq_none h]

theorem longestName_first (h : ps = ws ++ rest) :
    longestName (ps ++ cs) ((String.ofList ws, meaning) :: names) none =
      longestName (ps ++ cs) names (some (ws, meaning, rest ++ cs)) := by
  rw [longestName, String.toList_ofList, h, List.append_assoc, afterText?_append]

theorem longestName_longer (other : List Nat) (after : List Char) (h : ps = ws ++ rest)
    (hl : found.length < ws.length) :
    longestName (ps ++ cs) ((String.ofList ws, meaning) :: names) (some (found, other, after)) =
      longestName (ps ++ cs) names (some (ws, meaning, rest ++ cs)) := by
  rw [longestName, String.toList_ofList, h, List.append_assoc, afterText?_append]
  exact if_pos hl

end Names

/-- The references that are written, without their ampersand, and the characters they stand for. -/
def writtenReferences : List (List Char × Char) :=
  [(['a', 'm', 'p', ';'], '&'), (['l', 't', ';'], '<'), (['g', 't', ';'], '>'),
    (['n', 'b', 's', 'p', ';'], '\u00a0'), (['q', 'u', 'o', 't', ';'], '"')]

theorem longestName_written {name : List Char} {c : Char} (h : (name, c) ∈ writtenReferences)
    (cs : List Char) : longestName (name ++ cs) (charactersNamedFrom (name.headD ' ')) none =
      some (name, [c.toNat], cs) := by
  simp only [writtenReferences, List.mem_cons, Prod.mk.injEq, List.not_mem_nil, or_false] at h
  rcases h with ⟨rfl, rfl⟩ | ⟨rfl, rfl⟩ | ⟨rfl, rfl⟩ | ⟨rfl, rfl⟩ | ⟨rfl, rfl⟩
  on_goal 1 => change longestName _ charactersNamedLowerA none = _; unfold charactersNamedLowerA
  on_goal 2 => change longestName _ charactersNamedLowerL none = _; unfold charactersNamedLowerL
  on_goal 3 => change longestName _ charactersNamedLowerG none = _; unfold charactersNamedLowerG
  on_goal 4 => change longestName _ charactersNamedLowerN none = _; unfold charactersNamedLowerN
  on_goal 5 => change longestName _ charactersNamedLowerQ none = _; unfold charactersNamedLowerQ
  all_goals
    repeat refine (longestName_skip _ _ _ _ rfl).trans ?_
    refine (longestName_first _ _ _ (by rfl)).trans ?_
    refine (longestName_longer _ _ _ _ _ (by rfl) (by decide)).trans ?_
    repeat refine (longestName_skip _ _ _ _ rfl).trans ?_
    rfl

theorem characterReference?_of_ne (inAttribute : Bool) {c : Char} (hc : c ≠ '#') (cs : List Char) :
    characterReference? inAttribute (c :: cs) = namedReference? inAttribute (c :: cs) := by
  rw [characterReference?] <;> simp [hc]

/-- What is written as a reference is read as that reference, whatever follows. -/
theorem characterReference?_written {name : List Char} {c : Char} (h : (name, c) ∈ writtenReferences)
    (inAttribute : Bool) (cs : List Char) :
    characterReference? inAttribute (name ++ cs) = some ([c], cs) := by
  have shape : writtenReferences.all fun r => r.1.headD '#' != '#' && r.1.getLast? == some ';' := by
    decide
  obtain ⟨hfirst, hlast⟩ := Bool.and_eq_true_iff.mp (List.all_eq_true.mp shape _ h)
  cases name with
  | nil => cases hfirst
  | cons first name =>
    have longest := longestName_written h cs
    have first_ne : first ≠ '#' := bne_iff_ne.mp hfirst
    have last : (first :: name).getLast? = some ';' := beq_iff_eq.mp hlast
    rw [List.cons_append] at longest ⊢
    rw [characterReference?_of_ne _ first_ne, namedReference?]
    dsimp only [List.headD_cons] at longest ⊢
    rw [longest]
    dsimp only
    rw [last, bne_self_eq_false, Bool.and_false, Bool.false_and,
      if_neg Bool.false_ne_true, List.map_singleton, Char.ofNat_toNat]

/-- What a character is written as: itself, or a reference to it. -/
def IsWritten (c : Char) (word : List Char) : Prop :=
  word = [c] ∧ c ≠ '&' ∨ ∃ name, (name, c) ∈ writtenReferences ∧ word = '&' :: name

theorem isWritten_escapeTextChar (c : Char) : IsWritten c (escapeTextChar c) := by
  rw [escapeTextChar]
  split_ifs with amp lt gt space
  · exact .inr ⟨['a', 'm', 'p', ';'], by rw [amp]; decide, by decide⟩
  · exact .inr ⟨['l', 't', ';'], by rw [lt]; decide, by decide⟩
  · exact .inr ⟨['g', 't', ';'], by rw [gt]; decide, by decide⟩
  · exact .inr ⟨['n', 'b', 's', 'p', ';'], by rw [space]; decide, by decide⟩
  · exact .inl ⟨rfl, amp⟩

theorem isWritten_escapeAttributeChar (c : Char) : IsWritten c (escapeAttributeChar c) := by
  rw [escapeAttributeChar]
  split
  next quote => exact .inr ⟨['q', 'u', 'o', 't', ';'], by rw [quote]; decide, by decide⟩
  next => exact isWritten_escapeTextChar c

theorem decodeReferencesUpTo_flatMap {word : Char → List Char} (hw : ∀ c, IsWritten c (word c))
    (inAttribute : Bool) {cs : List Char} {bound : Nat} (hb : (cs.flatMap word).length ≤ bound) :
    decodeReferencesUpTo inAttribute bound (cs.flatMap word) = cs := by
  induction cs generalizing bound with
  | nil => cases bound <;> rfl
  | cons c cs ih =>
    rw [List.flatMap_cons, List.length_append] at hb
    rw [List.flatMap_cons]
    rcases hw c with ⟨e, hc⟩ | ⟨name, hn, e⟩ <;> rw [e] at hb ⊢
    · cases bound with
      | zero => exact absurd hb (by simp)
      | succ bound =>
        rw [List.singleton_append, decodeReferencesUpTo, ih (by rw [List.length_singleton] at hb; omega)]
        exact hc
    · cases bound with
      | zero => exact absurd hb (by simp)
      | succ bound =>
        rw [List.cons_append, decodeReferencesUpTo, characterReference?_written hn]
        dsimp only
        rw [ih (by rw [List.length_cons] at hb; omega), List.singleton_append]

/-- An escaped text is decoded to the text. -/
theorem decodeReferences_escapeText (text : String) :
    decodeReferences false (escapeText text).toList = text.toList := by
  rw [toList_escapeText]
  exact decodeReferencesUpTo_flatMap isWritten_escapeTextChar false (Nat.le_refl _)

/-- An escaped value is decoded to the value. -/
theorem decodeReferences_escapeAttribute (value : String) :
    decodeReferences true (escapeAttribute value).toList = value.toList := by
  rw [toList_escapeAttribute]
  exact decodeReferencesUpTo_flatMap isWritten_escapeAttributeChar true (Nat.le_refl _)

/-! What occurs in escaped text. -/

/-- The characters of the references that are written. -/
def referenceChars : List Char :=
  "&amp;lt;gt;nbsp;quot;".toList

theorem mem_referenceChars {cs : List Char} (h : cs.all referenceChars.contains) {d : Char}
    (hd : d ∈ cs) : d ∈ referenceChars :=
  List.contains_iff_mem.mp (List.all_eq_true.mp h d hd)

theorem mem_escapeAttributeChar {c d : Char} (h : d ∈ escapeAttributeChar c) :
    d ∈ referenceChars ∨ d = c ∧ c ≠ '<' ∧ c ≠ '"' := by
  rw [escapeAttributeChar, escapeTextChar] at h
  split_ifs at h with quote amp lt gt space
  all_goals first
    | exact .inr ⟨List.mem_singleton.mp h, lt, quote⟩
    | exact .inl (mem_referenceChars (by decide) h)

theorem mem_escapeTextChar {c d : Char} (h : d ∈ escapeTextChar c) :
    d ∈ referenceChars ∨ d = c ∧ c ≠ '<' := by
  by_cases quote : c = '"'
  · rw [quote] at h ⊢
    exact .inr ⟨List.mem_singleton.mp h, by decide⟩
  · rw [show escapeTextChar c = escapeAttributeChar c from (if_neg quote).symm] at h
    exact (mem_escapeAttributeChar h).imp_right fun ⟨e, lt, _⟩ => ⟨e, lt⟩

theorem not_mem_escapeText {text : String} {d : Char} (hd : d ∉ referenceChars)
    (ht : d ∉ text.toList) : d ∉ (escapeText text).toList := by
  rw [toList_escapeText, List.mem_flatMap]
  rintro ⟨c, hc, hm⟩
  rcases mem_escapeTextChar hm with h | ⟨rfl, -⟩
  · exact hd h
  · exact ht hc

theorem not_mem_escapeAttribute {value : String} {d : Char} (hd : d ∉ referenceChars)
    (hv : d ∉ value.toList) : d ∉ (escapeAttribute value).toList := by
  rw [toList_escapeAttribute, List.mem_flatMap]
  rintro ⟨c, hc, hm⟩
  rcases mem_escapeAttributeChar hm with h | ⟨rfl, -⟩
  · exact hd h
  · exact hv hc

theorem lt_not_mem_escapeText (text : String) : '<' ∉ (escapeText text).toList := by
  rw [toList_escapeText, List.mem_flatMap]
  rintro ⟨c, -, hm⟩
  rcases mem_escapeTextChar hm with h | ⟨rfl, hc⟩
  · exact absurd h (by decide)
  · exact hc rfl

theorem lt_not_mem_escapeAttribute (value : String) : '<' ∉ (escapeAttribute value).toList := by
  rw [toList_escapeAttribute, List.mem_flatMap]
  rintro ⟨c, -, hm⟩
  rcases mem_escapeAttributeChar hm with h | ⟨rfl, hc, -⟩
  · exact absurd h (by decide)
  · exact hc rfl

theorem quote_not_mem_escapeAttribute (value : String) : '"' ∉ (escapeAttribute value).toList := by
  rw [toList_escapeAttribute, List.mem_flatMap]
  rintro ⟨c, -, hm⟩
  rcases mem_escapeAttributeChar hm with h | ⟨rfl, -, hc⟩
  · exact absurd h (by decide)
  · exact hc rfl

end LivePages
