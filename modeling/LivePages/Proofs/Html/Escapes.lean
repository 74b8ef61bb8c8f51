import LivePages.Html.Serialize
import Mathlib.Data.List.Infix

namespace LivePages

/-- A text over a code whose words do not begin one another can be read back, up to where no word
begins. -/
theorem flatMap_injective_of_code {α β : Type} {f : α → List β} {q : List β → Prop}
    (code : ∀ a b x y, f a ++ x = f b ++ y → a = b) (begins : ∀ a x, ¬ q (f a ++ x))
    {as bs : List α} {r s : List β} (hr : q r) (hs : q s)
    (h : as.flatMap f ++ r = bs.flatMap f ++ s) : as = bs ∧ r = s := by
  induction as generalizing bs with
  | nil =>
    cases bs with
    | nil => exact ⟨rfl, h⟩
    | cons b bs =>
      rw [List.flatMap_nil, List.nil_append, List.flatMap_cons, List.append_assoc] at h
      exact absurd (h ▸ hr) (begins b _)
  | cons a as ih =>
    cases bs with
    | nil =>
      rw [List.flatMap_nil, List.nil_append, List.flatMap_cons, List.append_assoc] at h
      exact absurd (h.symm ▸ hs) (begins a _)
    | cons b bs =>
      rw [List.flatMap_cons, List.flatMap_cons, List.append_assoc, List.append_assoc] at h
      obtain rfl := code a b _ _ h
      obtain ⟨rfl, hrs⟩ := ih (List.append_cancel_left h)
      exact ⟨rfl, hrs⟩

/-- A run of characters of a class ends where the next character is of another one. -/
theorem eq_of_run {p : Char → Bool} {a b r s : List Char} (ha : ∀ c ∈ a, p c) (hb : ∀ c ∈ b, p c)
    (hr : r.takeWhile p = []) (hs : s.takeWhile p = []) (h : a ++ r = b ++ s) : a = b ∧ r = s := by
  have hl := congrArg (List.takeWhile p) h
  rw [List.takeWhile_append_of_pos ha, List.takeWhile_append_of_pos hb, hr, hs, List.append_nil,
    List.append_nil] at hl
  exact ⟨hl, List.append_cancel_left (hl ▸ h)⟩

/-- No end of a list is a beginning of it, apart from the whole list. -/
def Unbordered (sep : List Char) : Prop :=
  ∀ i < sep.length, 0 < i → ¬ sep.drop i <+: sep

instance (sep : List Char) : Decidable (Unbordered sep) :=
  inferInstanceAs (Decidable (∀ i < sep.length, 0 < i → ¬ sep.drop i <+: sep))

theorem length_le_of_separated {sep x y u v : List Char} (hu : Unbordered sep) (hy : ¬ sep <:+: y)
    (h : x ++ (sep ++ u) = y ++ (sep ++ v)) : y.length ≤ x.length := by
  by_contra hlt
  rcases List.append_eq_append_iff.mp h with ⟨z, rfl, hz⟩ | ⟨z, rfl, -⟩
  · -- The first separator is inside the second text, or it runs into the second separator.
    rcases List.append_eq_append_iff.mp hz with ⟨w, rfl, -⟩ | ⟨w, hw, hv⟩
    · exact hy ⟨x, w, by rw [List.append_assoc]⟩
    · have hz0 : 0 < z.length := by
        rw [List.length_append] at hlt
        omega
      by_cases hw0 : w = []
      · rw [hw0, List.append_nil] at hw
        exact hy ⟨x, [], by rw [hw, List.append_nil]⟩
      · have hzs : z.length < sep.length := by
          rw [hw, List.length_append]
          have := List.length_pos_iff.mpr hw0
          omega
        refine hu z.length hzs hz0 ?_
        have hd : sep.drop z.length = w := by
          rw [hw, List.drop_left]
        rw [hd]
        refine List.prefix_of_prefix_length_le (⟨u, hv.symm⟩ : w <+: sep ++ v) (List.prefix_append sep v) ?_
        rw [hw, List.length_append]
        omega
  · rw [List.length_append] at hlt
    omega

/-- What comes before the first separator is determined. -/
theorem eq_of_separated {sep x y u v : List Char} (hu : Unbordered sep) (hx : ¬ sep <:+: x)
    (hy : ¬ sep <:+: y) (h : x ++ (sep ++ u) = y ++ (sep ++ v)) : x = y ∧ u = v := by
  have hl : x.length = y.length :=
    Nat.le_antisymm (length_le_of_separated hu hx h.symm) (length_le_of_separated hu hy h)
  obtain ⟨rfl, e⟩ := List.append_inj h hl
  exact ⟨rfl, List.append_cancel_left e⟩

/-! Escaped text. -/

theorem escapeTextChar_code (c d : Char) (x y : List Char)
    (h : escapeTextChar c ++ x = escapeTextChar d ++ y) : c = d := by
  simp only [escapeTextChar] at h
  split_ifs at h <;> grind

theorem escapeAttributeChar_code (c d : Char) (x y : List Char)
    (h : escapeAttributeChar c ++ x = escapeAttributeChar d ++ y) : c = d := by
  simp only [escapeAttributeChar, escapeTextChar] at h
  split_ifs at h <;> grind

theorem head?_escapeTextChar (c : Char) (x : List Char) :
    (escapeTextChar c ++ x).head? ≠ some '<' ∧ (escapeTextChar c ++ x).head? ≠ none := by
  simp only [escapeTextChar]
  split_ifs <;> simp_all

theorem head?_escapeAttributeChar (c : Char) (x : List Char) :
    (escapeAttributeChar c ++ x).head? ≠ some '"' := by
  simp only [escapeAttributeChar, escapeTextChar]
  split_ifs <;> simp_all

theorem toList_escapeText (text : String) :
    (escapeText text).toList = text.toList.flatMap escapeTextChar :=
  String.toList_ofList

theorem toList_escapeAttribute (value : String) :
    (escapeAttribute value).toList = value.toList.flatMap escapeAttributeChar :=
  String.toList_ofList

/-- An escaped text can be read back up to the bracket after it. -/
theorem escapeText_injective {a b : String} {r s : List Char}
    (hr : r.head? = some '<' ∨ r.head? = none) (hs : s.head? = some '<' ∨ s.head? = none)
    (h : (escapeText a).toList ++ r = (escapeText b).toList ++ s) : a = b ∧ r = s := by
  rw [toList_escapeText, toList_escapeText] at h
  obtain ⟨hab, hrs⟩ := flatMap_injective_of_code
    (q := fun l : List Char => l.head? = some '<' ∨ l.head? = none) escapeTextChar_code
    (fun c x => not_or.mpr (head?_escapeTextChar c x)) hr hs h
  exact ⟨String.toList_inj.mp hab, hrs⟩

/-- An escaped value can be read back up to the quote after it. -/
theorem escapeAttribute_injective {a b : String} {r s : List Char}
    (h : (escapeAttribute a).toList ++ '"' :: r = (escapeAttribute b).toList ++ '"' :: s) :
    a = b ∧ r = s := by
  rw [toList_escapeAttribute, toList_escapeAttribute] at h
  obtain ⟨hab, hrs⟩ := flatMap_injective_of_code
    (q := fun l : List Char => l.head? = some '"') escapeAttributeChar_code
    head?_escapeAttributeChar rfl rfl h
  exact ⟨String.toList_inj.mp hab, List.tail_eq_of_cons_eq hrs⟩

end LivePages
