namespace LivePages

/-- The order of texts by their characters' code points, which is that of their UTF-8 bytes. -/
def charsBefore : List Char → List Char → Bool
  | [], [] => false
  | [], _ :: _ => true
  | _ :: _, [] => false
  | a :: as, b :: bs => a.toNat < b.toNat || (a.toNat == b.toNat && charsBefore as bs)

theorem charsBefore_irrefl (as : List Char) : charsBefore as as = false := by
  induction as with
  | nil => rfl
  | cons a as ih => simp [charsBefore, ih]

theorem charsBefore_trans {as bs cs : List Char} (h : charsBefore as bs = true)
    (k : charsBefore bs cs = true) : charsBefore as cs = true := by
  induction as generalizing bs cs with
  | nil =>
    cases bs with
    | nil => simp [charsBefore] at h
    | cons b bs => cases cs <;> simp_all [charsBefore]
  | cons a as ih =>
    cases bs with
    | nil => simp [charsBefore] at h
    | cons b bs =>
      cases cs with
      | nil => simp [charsBefore] at k
      | cons c cs =>
        simp only [charsBefore, Bool.or_eq_true, decide_eq_true_eq, Bool.and_eq_true,
          beq_iff_eq] at h k ⊢
        rcases h with h | ⟨h, hr⟩ <;> rcases k with k | ⟨k, kr⟩
        · left; omega
        · left; omega
        · left; omega
        · right; exact ⟨by omega, ih hr kr⟩

theorem charsBefore_of_ne {as bs : List Char} (h : as ≠ bs) (k : charsBefore as bs = false) :
    charsBefore bs as = true := by
  induction as generalizing bs with
  | nil => cases bs <;> simp_all [charsBefore]
  | cons a as ih =>
    cases bs with
    | nil => rfl
    | cons b bs =>
      simp only [charsBefore, Bool.or_eq_false_iff, decide_eq_false_iff_not, Bool.and_eq_false_iff,
        beq_eq_false_iff_ne, ne_eq, Bool.or_eq_true, decide_eq_true_eq, Bool.and_eq_true,
        beq_iff_eq] at k ⊢
      by_cases e : a.toNat = b.toNat
      · have ab : a = b := Char.toNat_inj.mp e
        subst ab
        right
        refine ⟨rfl, ih (fun he => h (he ▸ rfl)) ?_⟩
        rcases k.2 with k | k
        · exact absurd rfl k
        · exact k
      · left; omega

def textBefore (a b : String) : Bool :=
  charsBefore a.toList b.toList

theorem textBefore_irrefl (a : String) : textBefore a a = false :=
  charsBefore_irrefl a.toList

theorem textBefore_trans {a b c : String} (h : textBefore a b = true) (k : textBefore b c = true) :
    textBefore a c = true :=
  charsBefore_trans h k

theorem textBefore_of_ne {a b : String} (h : a ≠ b) (k : textBefore a b = false) :
    textBefore b a = true :=
  charsBefore_of_ne (fun e => h (String.toList_inj.mp e)) k

/-- The order of pairs of texts. The second texts count where the first ones are the same. -/
def pairNotAfter (a b : String × String) : Bool :=
  textBefore a.1 b.1 || (a.1 == b.1 && !textBefore b.2 a.2)

end LivePages
