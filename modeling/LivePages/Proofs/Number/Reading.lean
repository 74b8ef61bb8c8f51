import LivePages.Number.Reading
import LivePages.Proofs.Json.NumberTexts

namespace LivePages

/-! The texts of counts and amounts, part by part, each with what it stands for. -/

inductive IsCountText : List Char → Nat → Prop where
  | mk {sign digits : List Char} (hs : sign = [] ∨ sign = ['+']) (hd : IsDigits digits) :
    IsCountText (sign ++ digits) (digitsValue 10 digits)

inductive IsSign : List Char → Bool → Prop where
  | none : IsSign [] false
  | plus : IsSign ['+'] false
  | minus : IsSign ['-'] true

inductive IsPowerText : List Char → Int → Prop where
  | none : IsPowerText [] 0
  | digits {mark : Char} {sign digits : List Char} {negative : Bool} (hm : mark = 'e' ∨ mark = 'E')
    (hs : IsSign sign negative) (hd : IsDigits digits) :
    IsPowerText (mark :: (sign ++ digits))
      (if negative then -(digitsValue 10 digits : Int) else digitsValue 10 digits)

/-- Digits with or without a point among them or at one of their ends, perhaps with a sign and a power
of ten. -/
inductive IsDecimalText : List Char → Binary64 → Prop where
  | whole {sign digits rest : List Char} {negative : Bool} {power : Int} (hs : IsSign sign negative)
    (hd : IsDigits digits) (he : IsPowerText rest power) :
    IsDecimalText (sign ++ (digits ++ rest)) (.ofDecimal negative (digitsValue 10 digits) power)
  | point {sign whole fraction rest : List Char} {negative : Bool} {power : Int}
    (hs : IsSign sign negative) (hd : IsDigits (whole ++ fraction)) (he : IsPowerText rest power) :
    IsDecimalText (sign ++ (whole ++ '.' :: (fraction ++ rest)))
      (.ofDecimal negative (digitsValue 10 (whole ++ fraction)) (power - fraction.length))

theorem isDigits_iff {digits : List Char} :
    (digits.isEmpty || !digits.all isDecimalDigit) = false ↔ IsDigits digits := by
  rw [Bool.or_eq_false_iff, Bool.not_eq_false', List.all_eq_true, IsDigits, ne_eq,
    ← List.isEmpty_iff, Bool.not_eq_true]

theorem IsDigits.head {digits : List Char} (h : IsDigits digits) :
    ∃ c rest, digits = c :: rest ∧ isDecimalDigit c := by
  obtain ⟨hne, hall⟩ := h
  obtain ⟨c, rest, rfl⟩ := List.exists_cons_of_ne_nil hne
  exact ⟨c, rest, rfl, hall c List.mem_cons_self⟩

section Signs

variable {cs : List Char}

/-- A count may have a plus, which is no digit. -/
theorem dropPlus_spec (cs : List Char) :
    ∃ sign, (sign = [] ∨ sign = ['+']) ∧ cs = sign ++ dropPlus cs := by
  unfold dropPlus
  split
  · exact ⟨['+'], .inr rfl, rfl⟩
  · exact ⟨[], .inl rfl, rfl⟩

theorem dropPlus_digits (h : IsDigits cs) : dropPlus cs = cs := by
  obtain ⟨c, rest, rfl, hc⟩ := h.head
  unfold dropPlus
  split
  next e =>
    cases (List.cons.inj e).1
    exact absurd hc (by decide)
  next => rfl

theorem readSign_spec (cs : List Char) :
    ∃ sign, IsSign sign (readSign cs).1 ∧ cs = sign ++ (readSign cs).2 := by
  unfold readSign
  split
  · exact ⟨['-'], .minus, rfl⟩
  · exact ⟨['+'], .plus, rfl⟩
  · exact ⟨[], .none, rfl⟩

/-- Behind a sign stands none. -/
theorem readSign_sign {sign : List Char} {negative : Bool} (hs : IsSign sign negative)
    (h : cs.head?.all fun c => isDecimalDigit c || c == '.') :
    readSign (sign ++ cs) = (negative, cs) := by
  cases hs with
  | plus => rfl
  | minus => rfl
  | none =>
    show readSign cs = (false, cs)
    unfold readSign
    split
    · exact absurd h Bool.false_ne_true
    · exact absurd h Bool.false_ne_true
    · rfl

end Signs

theorem readCount_eq_some_iff {text : String} {n : Nat} :
    readCount text = some n ↔ IsCountText text.toList n ∧ n ≤ greatestCount := by
  constructor
  · intro h
    obtain ⟨sign, hs, he⟩ := dropPlus_spec text.toList
    unfold readCount at h
    generalize dropPlus text.toList = digits at h he
    dsimp only at h
    split at h
    next => cases h
    next hn =>
      cases Option.some.inj h
      rw [Bool.not_eq_true, Bool.or_eq_false_iff, isDigits_iff, decide_eq_false_iff_not,
        Nat.not_lt] at hn
      exact ⟨he ▸ .mk hs hn.1, hn.2⟩
  · rintro ⟨h, hn⟩
    generalize hcs : text.toList = cs at h
    cases h with
    | @mk sign digits hs hd =>
      have drop : dropPlus (sign ++ digits) = digits := by
        rcases hs with rfl | rfl
        · exact dropPlus_digits hd
        · rfl
      unfold readCount
      dsimp only
      rw [hcs, drop, isDigits_iff.mpr hd, Bool.false_or, if_neg (by simpa using hn)]

theorem readExponent_eq_some_iff {cs : List Char} {power : Int} :
    readExponent cs = some power ↔ IsPowerText cs power := by
  constructor
  · intro h
    unfold readExponent at h
    split at h
    next =>
      cases Option.some.inj h
      exact .none
    next mark rest =>
      split at h
      next hm =>
        obtain ⟨sign, hs, he⟩ := readSign_spec rest
        generalize readSign rest = read at h hs he
        dsimp only at h
        split at h
        next => cases h
        next hd =>
          rw [Bool.not_eq_true, isDigits_iff] at hd
          rw [← Option.some.inj h, he]
          exact .digits (by simpa using hm) hs hd
      next => cases h
  · intro h
    cases h with
    | none => rfl
    | @digits mark sign digits negative hm hs hd =>
      have bare : digits.head?.all fun c => isDecimalDigit c || c == '.' := by
        obtain ⟨c, rest, rfl, hc⟩ := hd.head
        simp [hc]
      have mark : (mark == 'e' || mark == 'E') = true := by simpa using hm
      simp only [readExponent, mark, if_true, readSign_sign hs bare, isDigits_iff.mpr hd,
        Bool.false_eq_true, if_false]

/-- What stands behind the digits of a number does not start with one. -/
theorem IsPowerText.head_not_digit {rest : List Char} {power : Int} (h : IsPowerText rest power) :
    rest.head?.all (!isDecimalDigit ·) ∧ rest.head? ≠ some '.' := by
  cases h with
  | none => exact ⟨rfl, nofun⟩
  | digits hm => rcases hm with rfl | rfl <;> exact ⟨rfl, by simp⟩

theorem takeWhile_digits {digits rest : List Char} (hd : ∀ c ∈ digits, isDecimalDigit c)
    (hr : rest.head?.all (!isDecimalDigit ·)) :
    (digits ++ rest).takeWhile isDecimalDigit = digits ∧
      (digits ++ rest).dropWhile isDecimalDigit = rest := by
  rw [takeWhile_append_of_head hr, dropWhile_append_of_head hr, List.takeWhile_eq_self_iff.mpr hd,
    List.dropWhile_eq_nil_iff.mpr hd]
  exact ⟨rfl, rfl⟩

/-- The digits at the start of a text, and what follows them. -/
theorem takeWhile_spec (cs : List Char) : cs = cs.takeWhile isDecimalDigit ++ cs.dropWhile isDecimalDigit ∧
    ∀ c ∈ cs.takeWhile isDecimalDigit, isDecimalDigit c :=
  ⟨List.takeWhile_append_dropWhile.symm, fun _ hc => List.mem_takeWhile_imp hc⟩

theorem isDecimalText_of_readDecimal {text : String} {x : Binary64} (h : readDecimal text = some x) :
    IsDecimalText text.toList x := by
  obtain ⟨sign, hs, he⟩ := readSign_spec text.toList
  unfold readDecimal at h
  generalize readSign text.toList = read at h hs he
  obtain ⟨negative, unsigned⟩ := read
  dsimp only at h he hs
  obtain ⟨hu, hw⟩ := takeWhile_spec unsigned
  generalize unsigned.takeWhile isDecimalDigit = whole at h hu hw
  generalize unsigned.dropWhile isDecimalDigit = after at h hu
  subst hu
  rw [he]
  -- What follows the digits decides which of the two forms the text has.
  split at h
  next cs =>
    obtain ⟨hc, hf⟩ := takeWhile_spec cs
    generalize cs.takeWhile isDecimalDigit = fraction at h hc hf
    generalize cs.dropWhile isDecimalDigit = rest at h hc
    subst hc
    dsimp only at h
    split at h
    next => cases h
    next hne =>
      obtain ⟨power, hp, rfl⟩ := Option.map_eq_some_iff.mp h
      refine .point hs ⟨?_, ?_⟩ (readExponent_eq_some_iff.mp hp)
      · simpa [List.append_eq_nil_iff] using hne
      · intro c hc
        exact (List.mem_append.mp hc).elim (hw c) (hf c)
  next =>
    dsimp only at h
    split at h
    next => cases h
    next hne =>
      obtain ⟨power, hp, rfl⟩ := Option.map_eq_some_iff.mp h
      rw [List.append_nil, List.length_nil, Int.ofNat_zero, Int.sub_zero]
      exact .whole hs ⟨by simpa using hne, hw⟩ (readExponent_eq_some_iff.mp hp)

theorem readDecimal_eq_some_iff {text : String} {x : Binary64} :
    readDecimal text = some x ↔ IsDecimalText text.toList x := by
  refine ⟨isDecimalText_of_readDecimal, ?_⟩
  intro h
  generalize hcs : text.toList = cs at h
  cases h with
  | @whole sign digits rest negative power hs hd hp =>
    obtain ⟨hdigit, hpoint⟩ := hp.head_not_digit
    obtain ⟨htake, hdrop⟩ := takeWhile_digits hd.2 hdigit
    have bare : (digits ++ rest).head?.all fun c => isDecimalDigit c || c == '.' := by
      obtain ⟨c, cs, rfl, hc⟩ := hd.head
      simp [hc]
    have read := readExponent_eq_some_iff.mpr hp
    unfold readDecimal
    rw [hcs, readSign_sign hs bare]
    dsimp only
    rw [htake, hdrop]
    split
    next => exact absurd rfl hpoint
    next =>
      dsimp only
      rw [if_neg (by simpa using hd.1), read]
      simp
  | @point sign whole fraction rest negative power hs hd hp =>
    obtain ⟨hdigit, -⟩ := hp.head_not_digit
    obtain ⟨htake, hdrop⟩ := @takeWhile_digits whole ('.' :: (fraction ++ rest))
      (fun c hc => hd.2 c (List.mem_append_left fraction hc)) rfl
    obtain ⟨htake', hdrop'⟩ := takeWhile_digits
      (fun c hc => hd.2 c (List.mem_append_right whole hc)) hdigit
    have bare : (whole ++ '.' :: (fraction ++ rest)).head?.all fun c =>
        isDecimalDigit c || c == '.' := by
      cases whole with
      | nil => rfl
      | cons c cs => simp [hd.2 c (by simp)]
    have read := readExponent_eq_some_iff.mpr hp
    unfold readDecimal
    rw [hcs, readSign_sign hs bare]
    simp only [htake, hdrop, htake', hdrop']
    rw [if_neg (by simpa [List.append_eq_nil_iff] using hd.1), read]
    rfl

end LivePages
