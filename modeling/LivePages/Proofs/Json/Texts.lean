import LivePages.Json.Reading
import LivePages.Json.Writing

namespace LivePages

theorem charOfCode?_toNat (c : Char) : charOfCode? c.toNat = some c := by
  have valid : c.toNat.isValidChar := c.valid
  rw [charOfCode?, dif_pos valid]
  exact congrArg some (Char.toNat_inj.mp rfl)

/-- No character is half of another one. -/
theorem isHighHalf_toNat (c : Char) : isHighHalf c.toNat = false := by
  have valid : c.toNat.isValidChar := c.valid
  rw [isHighHalf, Bool.and_eq_false_iff, decide_eq_false_iff_not, decide_eq_false_iff_not]
  rcases valid with h | h <;> omega

theorem joinUnits_toNat (cs : List Char) : joinUnits (cs.map Char.toNat) = some cs := by
  induction cs with
  | nil => rfl
  | cons c cs ih =>
    cases cs with
    | nil => simp [joinUnits, charOfCode?_toNat]
    | cons d cs =>
      rw [List.map_cons] at ih
      simp [joinUnits, isHighHalf_toNat, charOfCode?_toNat, ih]

/-- A control character is given by the digits of its code. -/
theorem controlDigits {n : Nat} (h : n < 32) :
    ['0', '0', hexDigit (n / 16), hexDigit (n % 16)].all isHexDigit ∧
      digitsValue 16 ['0', '0', hexDigit (n / 16), hexDigit (n % 16)] = n := by
  have digits : ∀ i : Fin 32,
      ['0', '0', hexDigit (i.val / 16), hexDigit (i.val % 16)].all isHexDigit ∧
      digitsValue 16 ['0', '0', hexDigit (i.val / 16), hexDigit (i.val % 16)] = i.val := by
    decide
  exact digits ⟨n, h⟩

/-- What stands for a character is one unit, whatever follows. -/
theorem readUnits_escapeJsonChar (c : Char) (rest : List Char) :
    readUnits (escapeJsonChar c ++ rest) = consUnit c.toNat (readUnits rest) := by
  unfold escapeJsonChar
  split
  next => rfl
  next => rfl
  next => rfl
  next => rfl
  next => rfl
  next => rfl
  next => rfl
  next hquote hslash _ _ _ _ _ =>
    split
    -- The characters without a short escape are given by their digits.
    next control =>
      obtain ⟨digits, value⟩ := controlDigits (n := c.toNat) control
      simp only [List.cons_append, List.nil_append, readUnits]
      rw [if_pos digits, value]
    next printed =>
      rw [List.singleton_append, readUnits, if_neg printed]
      · exact hquote
      · exact fun _ _ _ _ _ e => absurd e hslash
      · exact fun _ _ e => absurd e hslash

theorem readUnits_escaped (cs rest : List Char) :
    readUnits (cs.flatMap escapeJsonChar ++ '"' :: rest) = some (cs.map Char.toNat, rest) := by
  induction cs with
  | nil => rfl
  | cons c cs ih =>
    rw [List.flatMap_cons, List.append_assoc, readUnits_escapeJsonChar, ih]
    rfl

/-- A text between its quotes is read as it is. -/
theorem readJsonText_quoted (text : String) (rest : List Char) :
    readJsonText (text.toList.flatMap escapeJsonChar ++ '"' :: rest) = some (some text, rest) := by
  rw [readJsonText, readUnits_escaped, Option.map_some]
  dsimp only
  rw [joinUnits_toNat, Option.map_some, String.ofList_toList]

theorem toList_quoteJson (text : String) :
    (quoteJson text).toList = '"' :: (text.toList.flatMap escapeJsonChar ++ ['"']) := by
  rw [quoteJson, String.toList_ofList, List.cons_append]

end LivePages
