import LivePages.Number.Notation
import LivePages.Proofs.Json.Numbers
import Mathlib.Data.List.DropRight

namespace LivePages

/-! The grammar of numbers in JSON texts, part by part. -/

def IsDigits (cs : List Char) : Prop :=
  cs ≠ [] ∧ ∀ c ∈ cs, isDecimalDigit c

/-- The digits before the point; only a zero that stands alone comes first. -/
inductive IsWhole : List Char → Prop where
  | zero : IsWhole ['0']
  | digits {c : Char} {cs : List Char} (hc : c ≠ '0') (h : IsDigits (c :: cs)) : IsWhole (c :: cs)

inductive IsFraction : List Char → Prop where
  | none : IsFraction []
  | digits {cs : List Char} (h : IsDigits cs) : IsFraction ('.' :: cs)

inductive IsExponent : List Char → Prop where
  | none : IsExponent []
  | digits {mark : Char} {sign cs : List Char} (hm : mark = 'e' ∨ mark = 'E')
    (hs : sign = [] ∨ sign = ['+'] ∨ sign = ['-']) (h : IsDigits cs) :
    IsExponent (mark :: (sign ++ cs))

/-- The text of a number, with its sign. -/
inductive IsJsonNumber : List Char → Prop where
  | mk {sign whole fraction exponent : List Char} (hs : sign = [] ∨ sign = ['-'])
    (hw : IsWhole whole) (hf : IsFraction fraction) (he : IsExponent exponent) :
    IsJsonNumber (sign ++ (whole ++ fraction ++ exponent))

theorem IsWhole.exists_cons {cs : List Char} (h : IsWhole cs) :
    ∃ c rest, cs = c :: rest ∧ isDecimalDigit c := by
  cases h with
  | zero => exact ⟨'0', [], rfl, rfl⟩
  | digits _ h => exact ⟨_, _, rfl, h.2 _ List.mem_cons_self⟩

/-- No word stands for a number. -/
theorem not_isJsonNumber_null : ¬ IsJsonNumber "null".toList := by
  intro h
  have word : "null".toList = ['n', 'u', 'l', 'l'] := rfl
  rw [word] at h
  generalize e : ['n', 'u', 'l', 'l'] = cs at h
  cases h with
  | mk hs hw _ _ =>
    obtain ⟨c, rest, rfl, hc⟩ := hw.exists_cons
    rcases hs with rfl | rfl
    · cases (List.cons.inj e).1
      exact absurd hc (by decide)
    · exact absurd (List.cons.inj e).1 (by decide)

theorem isDigits_toDigits (n : Nat) : IsDigits (Nat.toDigits 10 n) :=
  ⟨Nat.toDigits_ne_nil, fun _ => isDecimalDigit_of_mem_toDigits⟩

/-- The digits of a positive number start with one that counts. -/
theorem exists_cons_toDigits {n : Nat} (h : n ≠ 0) :
    ∃ c cs, Nat.toDigits 10 n = c :: cs ∧ c ≠ '0' := by
  obtain ⟨c, cs, e⟩ := List.exists_cons_of_ne_nil (Nat.toDigits_ne_nil (b := 10) (n := n))
  refine ⟨c, cs, e, fun hc => h ?_⟩
  have length := length_toDigits_of_head_zero (n := n) (by rw [e, hc]; rfl)
  have value := Nat.ofDigitChars_ten_toDigits (n := n)
  rw [e, List.length_cons, Nat.add_eq_right, List.length_eq_zero_iff] at length
  rw [← value, e, length, hc]
  rfl

theorem isWhole_toDigits (n : Nat) : IsWhole (Nat.toDigits 10 n) := by
  by_cases h : n = 0
  · rw [h]
    exact .zero
  · obtain ⟨c, cs, e, hc⟩ := exists_cons_toDigits h
    have digits := isDigits_toDigits n
    rw [e] at digits ⊢
    exact .digits hc digits

theorem isJsonNumber_natural (n : Nat) : IsJsonNumber (toString n).toList := by
  rw [Nat.toString_eq_ofList_toDigits, String.toList_ofList, ← List.nil_append (Nat.toDigits 10 n),
    ← List.append_nil (Nat.toDigits 10 n), ← List.append_nil (Nat.toDigits 10 n ++ [])]
  exact .mk (.inl rfl) (isWhole_toDigits n) .none .none

/-! Numbers as they are written: the digits of a decimal without the zeros at their end. -/

theorem isDecimalDigit_of_mem_zeros {n : Nat} {c : Char} (h : c ∈ List.replicate n '0') :
    isDecimalDigit c := by
  rw [List.eq_of_mem_replicate h]
  rfl

theorem isDigits_zeros {n : Nat} (h : n ≠ 0) : IsDigits (List.replicate n '0') :=
  ⟨mt (List.replicate_eq_nil_iff _).mp h, fun _ => isDecimalDigit_of_mem_zeros⟩

theorem dropTrailingZeros_cons {c : Char} (hc : c ≠ '0') (cs : List Char) :
    ∃ kept, dropTrailingZeros (c :: cs) = c :: kept ∧ kept <+: cs := by
  obtain ⟨dropped, e⟩ := List.rdropWhile_prefix (· == '0') (c :: cs)
  have same : dropTrailingZeros (c :: cs) = (c :: cs).rdropWhile (· == '0') := rfl
  rw [← same] at e
  cases h : dropTrailingZeros (c :: cs) with
  | nil =>
    rw [same, List.rdropWhile_eq_nil_iff] at h
    exact absurd (h c List.mem_cons_self) (by simpa using hc)
  | cons d kept =>
    rw [h, List.cons_append, List.cons_eq_cons] at e
    exact ⟨kept, by rw [e.1], dropped, e.2⟩

section Digits

variable {c : Char} {kept : List Char} (hc : c ≠ '0') (h : IsDigits (c :: kept))

include hc h

theorem isJsonNumber_positional {sign : List Char} (hs : sign = [] ∨ sign = ['-'])
    (exponent : Int) : IsJsonNumber (sign ++ positional (c :: kept) exponent) := by
  have digits : ∀ d ∈ kept, isDecimalDigit d := fun d hd => h.2 d (List.mem_cons_of_mem c hd)
  rw [positional]
  split
  -- Below one, a zero stands before the point and the digits behind further zeros.
  next =>
    have fraction : IsDigits (List.replicate (exponent.natAbs - 1) '0' ++ c :: kept) := by
      refine ⟨by simp, fun d hd => ?_⟩
      rcases List.mem_append.mp hd with hd | hd
      · exact isDecimalDigit_of_mem_zeros hd
      · exact h.2 d hd
    have number := IsJsonNumber.mk hs .zero (.digits fraction) .none
    rwa [List.append_nil] at number
  next =>
    have whole : IsWhole (c :: (kept.take exponent.toNat ++
        List.replicate (exponent.toNat + 1 - (c :: kept).length) '0')) := by
      refine .digits hc ⟨List.cons_ne_nil _ _, List.forall_mem_cons.mpr
        ⟨h.2 c List.mem_cons_self, fun d hd => ?_⟩⟩
      rcases List.mem_append.mp hd with hd | hd
      · exact digits d (List.mem_of_mem_take hd)
      · exact isDecimalDigit_of_mem_zeros hd
    have fraction : IsDigits (if (kept.drop exponent.toNat).isEmpty then ['0']
        else kept.drop exponent.toNat) := by
      split
      next => exact isDigits_zeros (n := 1) Nat.one_ne_zero
      next hne =>
        exact ⟨mt List.isEmpty_iff.mpr hne, fun d hd => digits d (List.mem_of_mem_drop hd)⟩
    have number := IsJsonNumber.mk hs whole (.digits fraction) .none
    simpa using number

theorem isJsonNumber_exponential {sign : List Char} (hs : sign = [] ∨ sign = ['-'])
    (exponent : Int) : IsJsonNumber (sign ++ exponential "+" (c :: kept) exponent) := by
  have whole : IsWhole [c] :=
    .digits hc ⟨List.cons_ne_nil _ _, List.forall_mem_singleton.mpr (h.2 c List.mem_cons_self)⟩
  have fraction : IsFraction (if kept.isEmpty then [] else '.' :: kept) := by
    split
    next => exact .none
    next hne =>
      exact .digits ⟨mt List.isEmpty_iff.mpr hne, fun d hd => h.2 d (List.mem_cons_of_mem c hd)⟩
  have signed : (if exponent < 0 then ['-'] else "+".toList) = [] ∨
      (if exponent < 0 then ['-'] else "+".toList) = ['+'] ∨
      (if exponent < 0 then ['-'] else "+".toList) = ['-'] := by
    split
    next => exact .inr (.inr rfl)
    next => exact .inr (.inl rfl)
  have number := IsJsonNumber.mk hs whole fraction
    (.digits (.inl rfl) signed (isDigits_toDigits exponent.natAbs))
  simpa [exponential] using number

end Digits

theorem isJsonNumber_writeDecimal {sign : List Char} (hs : sign = [] ∨ sign = ['-']) {d : Decimal}
    (h : d.digits ≠ 0) : IsJsonNumber (sign ++ writeDecimal .json d) := by
  obtain ⟨c, cs, e, hc⟩ := exists_cons_toDigits h
  obtain ⟨kept, hk, hp⟩ := dropTrailingZeros_cons hc cs
  have digits : IsDigits (c :: kept) := by
    have all := isDigits_toDigits d.digits
    rw [e] at all
    exact ⟨List.cons_ne_nil _ _,
      fun d hd => all.2 d ((List.cons_prefix_cons.mpr ⟨rfl, hp⟩).mem hd)⟩
  rw [writeDecimal, e, hk]
  split
  next => exact isJsonNumber_positional hc digits hs _
  next => exact isJsonNumber_exponential hc digits hs _

/-! The digits that are chosen for a positive number are not zero. -/

theorem RoundingInterval.not_holds_zero {mantissa den : Nat} (exponent : Int) (hm : mantissa ≠ 0)
    (hd : den ≠ 0) : (ofMantissa mantissa exponent).holds 0 den = false := by
  have low : 0 < (ofMantissa mantissa exponent).low * den := by
    refine Nat.mul_pos ?_ (Nat.pos_of_ne_zero hd)
    simp only [ofMantissa]
    split <;> omega
  rw [holds]
  split <;> exact decide_eq_false (by omega)

theorem numerator_ne_zero {mantissa : Nat} (hm : mantissa ≠ 0) (exponent step : Int) :
    (scaledByTen (Binary64.quotient mantissa exponent).1 (Binary64.quotient mantissa exponent).2
      step).1 ≠ 0 := by
  have two (n : Nat) : twoPow n ≠ 0 := Nat.ne_of_gt (Nat.pow_pos (by decide))
  have ten (n : Nat) : tenPow n ≠ 0 := Nat.ne_of_gt (Nat.pow_pos (by decide))
  have num : (Binary64.quotient mantissa exponent).1 ≠ 0 := by
    rw [Binary64.quotient]
    split
    next => exact hm
    next => exact Nat.mul_ne_zero hm (two _)
  rw [scaledByTen]
  split
  next => exact Nat.mul_ne_zero num (ten _)
  next => exact num

theorem digits_decimalAt {tie : Tie} {mantissa : Nat} {exponent step : Int} {d : Decimal}
    (hm : mantissa ≠ 0) (h : decimalAt tie mantissa exponent step = some d) : d.digits ≠ 0 := by
  have zero : (RoundingInterval.ofMantissa mantissa exponent).holds 0 (scaledByTen
      (Binary64.quotient mantissa exponent).1 (Binary64.quotient mantissa exponent).2 step).1 =
        false :=
    RoundingInterval.not_holds_zero exponent hm (numerator_ne_zero hm exponent step)
  -- The lower candidate is taken only if it fits, and the upper one is a successor.
  have lower {n k : Nat} (hf : (RoundingInterval.ofMantissa mantissa exponent).holds
      (4 * mantissa * n * k) (scaledByTen (Binary64.quotient mantissa exponent).1
        (Binary64.quotient mantissa exponent).2 step).1 = true) : n ≠ 0 := by
    rintro rfl
    rw [Nat.mul_zero, Nat.zero_mul, zero] at hf
    cases hf
  have either {n : Nat} (hn : n ≠ 0) (b : Bool) : (if b then n + 1 else n) ≠ 0 := by
    cases b
    · exact hn
    · exact Nat.succ_ne_zero n
  simp only [decimalAt] at h
  split at h
  case h_1 fits _ => exact Option.some.inj h ▸ either (lower fits) _
  case h_2 fits _ => exact Option.some.inj h ▸ lower fits
  case h_3 => exact Option.some.inj h ▸ Nat.succ_ne_zero _
  case h_4 => cases h

theorem digits_shortestDecimal (tie : Tie) {mantissa : Nat} (exponent : Int) (hm : mantissa ≠ 0) :
    (shortestDecimal tie mantissa exponent).digits ≠ 0 ∨
      shortestDecimal tie mantissa exponent = ⟨0, 0⟩ := by
  have tries (magnitude : Int) (n count : Nat) :
      (shortestFrom tie mantissa exponent magnitude n count).digits ≠ 0 ∨
        shortestFrom tie mantissa exponent magnitude n count = ⟨0, 0⟩ := by
    induction n generalizing count with
    | zero => exact .inr rfl
    | succ n ih =>
      rw [shortestFrom]
      split
      next d hd => exact .inl (digits_decimalAt hm hd)
      next => exact ih (count + 1)
  exact tries _ _ _

theorem isJsonNumber_writeFinite (negative : Bool) (mantissa : Nat) (exponent : Int) :
    IsJsonNumber (writeFinite .json negative mantissa exponent).toList := by
  have zero {sign : List Char} (hs : sign = [] ∨ sign = ['-']) :
      IsJsonNumber (sign ++ ['0', '.', '0']) :=
    .mk hs .zero (.digits (isDigits_zeros (n := 1) Nat.one_ne_zero)) .none
  have hs : (if negative then "-" else "").toList = [] ∨
      (if negative then "-" else "").toList = ['-'] := by
    cases negative
    · exact .inl rfl
    · exact .inr rfl
  rw [writeFinite, String.toList_append]
  by_cases hm : mantissa = 0
  · rw [if_pos hm]
    exact zero hs
  · rw [if_neg hm, String.toList_ofList]
    rcases digits_shortestDecimal NumberStyle.json.tie exponent hm with h | h
    · exact isJsonNumber_writeDecimal hs h
    · rw [h]
      exact zero hs

/-- Exactly the finite numbers are written as numbers. -/
theorem Binary64.isJsonNumber_json {x : Binary64} : IsJsonNumber x.json.toList ↔ x.isFinite := by
  cases x with
  | finite negative mantissa exponent =>
    exact iff_of_true (isJsonNumber_writeFinite negative mantissa exponent) rfl
  | infinity negative => exact iff_of_false not_isJsonNumber_null Bool.false_ne_true
  | notANumber => exact iff_of_false not_isJsonNumber_null Bool.false_ne_true

end LivePages
