import LivePages.Json.Reading
import Mathlib.Data.List.DropRight
import Mathlib.Data.List.TakeWhile

namespace LivePages

/-! Blanks in front of a value do not count, and no value starts with what closes a list. -/

theorem dropJsonBlanks_append {gap : List Char} (h : gap.all isJsonBlank) (cs : List Char) :
    dropJsonBlanks (gap ++ cs) = dropJsonBlanks cs :=
  List.dropWhile_append_of_pos (List.all_eq_true.mp h)

theorem dropJsonBlanks_append_of_cons {cs more : List Char} {c : Char}
    (h : dropJsonBlanks cs = c :: more) (rest : List Char) :
    dropJsonBlanks (cs ++ rest) = c :: (more ++ rest) := by
  rw [dropJsonBlanks] at h
  rw [dropJsonBlanks, List.dropWhile_append, h]
  rfl

theorem dropJsonBlanks_idem (cs : List Char) :
    dropJsonBlanks (dropJsonBlanks cs) = dropJsonBlanks cs :=
  List.dropWhile_idempotent _ _

theorem readJsonValue_blanks (bound : Nat) (cs : List Char) :
    readJsonValue bound (dropJsonBlanks cs) = readJsonValue bound cs := by
  cases bound with
  | zero => rfl
  | succ bound => rw [readJsonValue, dropJsonBlanks_idem, readJsonValue]

theorem readJsonItems_blanks (bound : Nat) (cs : List Char) :
    readJsonItems bound (dropJsonBlanks cs) = readJsonItems bound cs := by
  cases bound with
  | zero => rfl
  | succ bound => rw [readJsonItems, readJsonValue_blanks, readJsonItems]

theorem readJsonFields_blanks (bound : Nat) (cs : List Char) :
    readJsonFields bound (dropJsonBlanks cs) = readJsonFields bound cs := by
  cases bound with
  | zero => rfl
  | succ bound => rw [readJsonFields, dropJsonBlanks_idem, readJsonFields]

theorem readJsonItems_closing (bound : Nat) (rest : List Char) :
    readJsonItems bound (']' :: rest) = none := by
  rcases bound with _ | _ | bound <;> rfl

theorem readJsonFields_closing (bound : Nat) (rest : List Char) :
    readJsonFields bound ('\x7d' :: rest) = none := by
  cases bound <;> rfl

/-! Numbers, up to their end. -/

/-- Only what separates values stands behind a number. -/
def endsNumber (rest : List Char) : Bool :=
  rest.head?.all fun c => c == ',' || c == '\n'

theorem takeWhile_append_of_head {p : Char → Bool} {rest : List Char} (h : rest.head?.all (!p ·))
    (cs : List Char) : (cs ++ rest).takeWhile p = cs.takeWhile p := by
  induction cs with
  | nil =>
    cases rest with
    | nil => rfl
    | cons c rest => exact List.takeWhile_cons_of_neg (by simpa using h)
  | cons c cs ih =>
    rw [List.cons_append, List.takeWhile_cons, List.takeWhile_cons, ih]

theorem dropWhile_append_of_head {p : Char → Bool} {rest : List Char} (h : rest.head?.all (!p ·))
    (cs : List Char) : (cs ++ rest).dropWhile p = cs.dropWhile p ++ rest := by
  induction cs with
  | nil =>
    cases rest with
    | nil => rfl
    | cons c rest => exact List.dropWhile_cons_of_neg (by simpa using h)
  | cons c cs ih =>
    rw [List.cons_append, List.dropWhile_cons, List.dropWhile_cons, ih]
    split <;> rfl

section Ends

variable {rest : List Char} (h : endsNumber rest)

include h

theorem endsNumber_cases : rest = [] ∨ ∃ more, rest = ',' :: more ∨ rest = '\n' :: more := by
  cases rest with
  | nil => exact .inl rfl
  | cons c more =>
    have hc : c = ',' ∨ c = '\n' := by simpa [endsNumber] using h
    rcases hc with rfl | rfl
    · exact .inr ⟨more, .inl rfl⟩
    · exact .inr ⟨more, .inr rfl⟩

theorem notDigit_of_endsNumber : rest.head?.all (!isDecimalDigit ·) := by
  rcases endsNumber_cases h with rfl | ⟨more, rfl | rfl⟩ <;> rfl

theorem jsonFraction_append (cs : List Char) :
    jsonFraction (cs ++ rest) = (jsonFraction cs).map fun r => (r.1, r.2 ++ rest) := by
  cases cs with
  | nil => rcases endsNumber_cases h with rfl | ⟨more, rfl | rfl⟩ <;> rfl
  | cons c cs =>
    by_cases point : c = '.'
    · subst point
      simp only [List.cons_append, jsonFraction,
        takeWhile_append_of_head (notDigit_of_endsNumber h),
        dropWhile_append_of_head (notDigit_of_endsNumber h)]
      split <;> rfl
    · have whole (cs : List Char) : jsonFraction (c :: cs) = some ([], c :: cs) := by
        rw [jsonFraction]
        exact fun rest e => point (List.cons.inj e).1
      rw [List.cons_append, whole, whole]
      rfl

theorem readSign_append (cs : List Char) :
    readSign (cs ++ rest) = ((readSign cs).1, (readSign cs).2 ++ rest) := by
  cases cs with
  | nil => rcases endsNumber_cases h with rfl | ⟨more, rfl | rfl⟩ <;> rfl
  | cons c cs =>
    by_cases minus : c = '-'
    · subst minus
      rfl
    by_cases plus : c = '+'
    · subst plus
      rfl
    have bare (cs : List Char) : readSign (c :: cs) = (false, c :: cs) := by
      rw [readSign]
      · exact fun rest e => minus (List.cons.inj e).1
      · exact fun rest e => plus (List.cons.inj e).1
    rw [List.cons_append, bare, bare]
    rfl

theorem jsonExponent_append (cs : List Char) :
    jsonExponent (cs ++ rest) = (jsonExponent cs).map fun r => (r.1, r.2 ++ rest) := by
  cases cs with
  | nil => rcases endsNumber_cases h with rfl | ⟨more, rfl | rfl⟩ <;> rfl
  | cons c cs =>
    rw [List.cons_append, jsonExponent, jsonExponent]
    split
    · simp only [readSign_append h, takeWhile_append_of_head (notDigit_of_endsNumber h),
        dropWhile_append_of_head (notDigit_of_endsNumber h)]
      split <;> rfl
    · rfl

/-- A number is read up to its end. -/
theorem readJsonNumber_append (negative : Bool) (cs : List Char) :
    readJsonNumber negative (cs ++ rest) =
      (readJsonNumber negative cs).map fun r => (r.1, r.2 ++ rest) := by
  simp only [readJsonNumber, takeWhile_append_of_head (notDigit_of_endsNumber h),
    dropWhile_append_of_head (notDigit_of_endsNumber h), jsonFraction_append h]
  split
  · rfl
  · cases jsonFraction (cs.dropWhile isDecimalDigit) with
    | none => rfl
    | some fraction =>
      simp only [Option.map_some, Option.bind_eq_bind, Option.bind_some, jsonExponent_append h]
      cases jsonExponent fraction.2 <;> rfl

end Ends

/-! The digits of a natural number. -/

theorem isDecimalDigit_of_mem_toDigits {n : Nat} {c : Char} (h : c ∈ Nat.toDigits 10 n) :
    isDecimalDigit c := by
  have digit := Nat.isDigit_of_mem_toDigits (by decide) (by decide) h
  simpa [isDecimalDigit, Char.isDigit, Char.le_def] using digit

theorem digitsValue_singleton {c : Char} (h : isDecimalDigit c) :
    digitsValue 10 [c] = c.toNat - '0'.toNat := by
  simp [digitsValue, h]

theorem le_ofDigitChars (digits : List Char) (n : Nat) : n ≤ Nat.ofDigitChars 10 digits n := by
  induction digits generalizing n with
  | nil => simp
  | cons c digits ih =>
    rw [Nat.ofDigitChars_cons]
    have := ih (10 * n + (c.toNat - '0'.toNat))
    omega

/-- All digits of a number with 64 bits fit. -/
theorem gather_eq {digits : List Char} {n : Nat} (hd : ∀ c ∈ digits, isDecimalDigit c)
    (h : Nat.ofDigitChars 10 digits n ≤ greatestCount) :
    gather n digits = (Nat.ofDigitChars 10 digits n, []) := by
  induction digits generalizing n with
  | nil => simp [gather]
  | cons c digits ih =>
    rw [List.forall_mem_cons] at hd
    rw [Nat.ofDigitChars_cons] at h ⊢
    have next : n * 10 + digitsValue 10 [c] = 10 * n + (c.toNat - '0'.toNat) := by
      rw [digitsValue_singleton hd.1, Nat.mul_comm]
    have le := le_ofDigitChars digits (10 * n + (c.toNat - '0'.toNat))
    rw [gather, next, if_neg (by omega), ih hd.2 h]

/-- Only zero starts with a zero. -/
theorem length_toDigits_of_head_zero {n : Nat} (h : (Nat.toDigits 10 n).headD '0' = '0') :
    (Nat.toDigits 10 n).length = 1 := by
  induction n using Nat.strongRecOn with
  | _ n ih =>
    by_cases small : n < 10
    · rw [Nat.toDigits_of_lt_base small]
      rfl
    -- The first digit of a larger number is that of its tenth, which would have to be zero.
    · exfalso
      rw [Nat.toDigits_of_base_le (by decide) (by omega)] at h
      obtain ⟨first, digits, e⟩ :=
        List.exists_cons_of_ne_nil (Nat.toDigits_ne_nil (n := n / 10) (b := 10))
      have zero : (Nat.toDigits 10 (n / 10)).headD '0' = '0' := by
        rw [e] at h ⊢
        exact h
      have one := ih (n / 10) (by omega) zero
      have value := Nat.ofDigitChars_ten_toDigits (n := n / 10)
      rw [List.length_eq_one_iff] at one
      obtain ⟨c, hc⟩ := one
      rw [hc] at zero value
      have hzero : c = '0' := zero
      subst hzero
      simp [Nat.ofDigitChars_cons] at value
      omega

theorem takeWhile_toDigits (n : Nat) :
    (Nat.toDigits 10 n).takeWhile isDecimalDigit = Nat.toDigits 10 n :=
  List.takeWhile_eq_self_iff.mpr fun _ h => isDecimalDigit_of_mem_toDigits h

theorem dropWhile_toDigits (n : Nat) : (Nat.toDigits 10 n).dropWhile isDecimalDigit = [] :=
  List.dropWhile_eq_nil_iff.mpr fun _ h => isDecimalDigit_of_mem_toDigits h

/-- A natural number with 64 bits is read as it is. -/
theorem readJsonNumber_toDigits {n : Nat} (hn : n ≤ greatestCount) {rest : List Char}
    (h : endsNumber rest) :
    readJsonNumber false (Nat.toDigits 10 n ++ rest) = some (.natural n, rest) := by
  have written : ¬ ((Nat.toDigits 10 n).isEmpty ∨
      ((Nat.toDigits 10 n).headD '0' = '0' ∧ (Nat.toDigits 10 n).length ≠ 1)) := by
    rintro (e | ⟨zero, length⟩)
    · exact Nat.toDigits_ne_nil (List.isEmpty_iff.mp e)
    · exact length (length_toDigits_of_head_zero zero)
  have value : gather 0 (Nat.toDigits 10 n) = (n, []) := by
    rw [gather_eq (fun _ => isDecimalDigit_of_mem_toDigits), Nat.ofDigitChars_ten_toDigits]
    rwa [Nat.ofDigitChars_ten_toDigits]
  have alone : readJsonNumber false (Nat.toDigits 10 n) = some (.natural n, []) := by
    simp only [readJsonNumber, takeWhile_toDigits, dropWhile_toDigits, value]
    rw [if_neg written]
    rfl
  rw [readJsonNumber_append h, alone]
  rfl

end LivePages
