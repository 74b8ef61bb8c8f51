import LivePages.Text.Hex

namespace LivePages

/-- A literal is checked character by character, without being decoded. -/
theorem not_mem_ofList {c : Char} {cs : List Char} (h : c ∉ cs) : c ∉ (String.ofList cs).toList := by
  rwa [String.toList_ofList]

/-- A name between two literals adds the characters it has. -/
theorem not_mem_line {c : Char} {start stop : List Char} {name : String} (hs : c ∉ start)
    (hn : c ∉ name.toList) (he : c ∉ stop) :
    c ∉ (String.ofList start ++ name ++ String.ofList stop).toList := by
  rw [String.toList_append, String.toList_append, List.mem_append, List.mem_append, not_or, not_or]
  exact ⟨⟨not_mem_ofList hs, hn⟩, not_mem_ofList he⟩

theorem hexDigit_mem (n : Nat) : hexDigit n ∈
    ['0', '1', '2', '3', '4', '5', '6', '7', '8', '9', 'a', 'b', 'c', 'd', 'e', 'f'] := by
  rw [hexDigit, List.getD_eq_getElem?_getD]
  cases h : ['0', '1', '2', '3', '4', '5', '6', '7', '8', '9', 'a', 'b', 'c', 'd', 'e', 'f'][n]? with
  | none => decide
  | some c => exact List.mem_of_getElem? h

theorem hexDigit_of_all {p : Char → Bool} (h : ['0', '1', '2', '3', '4', '5', '6', '7', '8', '9',
    'a', 'b', 'c', 'd', 'e', 'f'].all p) (n : Nat) : p (hexDigit n) :=
  List.all_eq_true.mp h _ (hexDigit_mem n)

theorem hexDigit_ne_dash (n : Nat) : hexDigit n ≠ '-' :=
  bne_iff_ne.mp (hexDigit_of_all (p := (· != '-')) (by decide) n)

theorem hexDigit_injective {m n : Nat} (hm : m < 16) (hn : n < 16)
    (h : hexDigit m = hexDigit n) : m = n := by
  have digits : ∀ i j : Fin 16, hexDigit i = hexDigit j → i = j := by
    decide
  exact congrArg Fin.val (digits ⟨m, hm⟩ ⟨n, hn⟩ h)

theorem toList_hexOfBytes_cons (b : UInt8) (bytes : List UInt8) :
    (hexOfBytes (b :: bytes)).toList =
      hexDigit (b.toNat / 16) :: hexDigit (b.toNat % 16) :: (hexOfBytes bytes).toList := by
  rw [hexOfBytes, hexOfBytes, String.toList_ofList, String.toList_ofList]
  rfl

theorem dash_not_mem_hexOfBytes (bytes : List UInt8) : '-' ∉ (hexOfBytes bytes).toList := by
  induction bytes with
  | nil => exact not_mem_ofList List.not_mem_nil
  | cons b bytes ih =>
    rw [toList_hexOfBytes_cons, List.mem_cons, List.mem_cons, not_or, not_or]
    exact ⟨(hexDigit_ne_dash _).symm, (hexDigit_ne_dash _).symm, ih⟩

theorem hexOfBytes_injective {as bs : List UInt8} (h : hexOfBytes as = hexOfBytes bs) : as = bs := by
  have hl := congrArg String.toList h
  clear h
  induction as generalizing bs with
  | nil =>
    cases bs with
    | nil => rfl
    | cons b bs =>
      rw [toList_hexOfBytes_cons] at hl
      simp [hexOfBytes] at hl
  | cons a as ih =>
    cases bs with
    | nil =>
      rw [toList_hexOfBytes_cons] at hl
      simp [hexOfBytes] at hl
    | cons b bs =>
      rw [toList_hexOfBytes_cons, toList_hexOfBytes_cons, List.cons.injEq, List.cons.injEq] at hl
      obtain ⟨high, low, rest⟩ := hl
      have ha := a.toNat_lt
      have hb := b.toNat_lt
      have high : a.toNat / 16 = b.toNat / 16 := hexDigit_injective (by omega) (by omega) high
      have low : a.toNat % 16 = b.toNat % 16 := hexDigit_injective (by omega) (by omega) low
      have hab : a = b := UInt8.toNat_inj.mp (by omega)
      rw [hab, ih rest]

theorem bytesOf_injective {a b : String} (h : bytesOf a = bytesOf b) : a = b :=
  String.toByteArray_inj.mp (ByteArray.ext (Array.toList_inj.mp h))

theorem hexOfText_injective {a b : String} (h : hexOfText a = hexOfText b) : a = b :=
  bytesOf_injective (hexOfBytes_injective h)

end LivePages
