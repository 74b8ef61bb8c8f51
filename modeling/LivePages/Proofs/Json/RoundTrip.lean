import LivePages.Proofs.Json.Numbers
import LivePages.Proofs.Json.Texts
import Mathlib.Data.List.Forall2

namespace LivePages

/-- The text of a number is read as the number. -/
def Binary64.ReadsBack (x : Binary64) : Prop :=
  JsonValue.ofText? x.json = some (.number x)

variable {bound : Nat} {cs rest : List Char}

theorem readJsonValue_items {items : List JsonValue}
    (h : readJsonItems bound cs = some (items, rest)) :
    readJsonValue (bound + 1) ('[' :: cs) = some (.list items, rest) := by
  rw [← readJsonItems_blanks] at h
  have opened : dropJsonBlanks ('[' :: cs) = '[' :: cs := rfl
  simp only [readJsonValue, opened]
  split
  next e =>
    rw [e, readJsonItems_closing] at h
    cases h
  next => rw [h, Option.map_some]

theorem readJsonValue_fields {fields : List (String × JsonValue)}
    (h : readJsonFields bound cs = some (some fields, rest)) :
    readJsonValue (bound + 1) ('\x7b' :: cs) = some (.record fields, rest) := by
  rw [← readJsonFields_blanks] at h
  have opened : dropJsonBlanks ('\x7b' :: cs) = '\x7b' :: cs := rfl
  simp only [readJsonValue, opened]
  split
  next e =>
    rw [e, readJsonFields_closing] at h
    cases h
  next => rw [h, Option.map_some]

theorem not_number_of_word {word : String} {value : JsonValue} (hv : ∀ x, value ≠ .number x)
    {x : Binary64} : readJsonWord word value cs ≠ some (.number x, rest) := by
  rw [readJsonWord]
  split
  · exact fun e => hv x (congrArg Prod.fst (Option.some.inj e))
  · exact (Option.some_ne_none _).symm

/-- A number starts with its sign or with a digit. -/
theorem readJsonValue_number {x : Binary64}
    (h : readJsonValue (bound + 1) cs = some (.number x, rest)) :
    ∃ negative body, readJsonNumber negative body = some (.number x, rest) ∧
      dropJsonBlanks cs = (if negative then ['-'] else []) ++ body := by
  rw [readJsonValue] at h
  split at h
  next =>
    split at h
    next => cases h
    next =>
      obtain ⟨r, -, e⟩ := Option.map_eq_some_iff.mp h
      cases e
  next =>
    split at h
    next => cases h
    next =>
      obtain ⟨⟨fields, _⟩, -, e⟩ := Option.map_eq_some_iff.mp h
      cases fields <;> cases e
  next =>
    obtain ⟨⟨text, _⟩, -, e⟩ := Option.map_eq_some_iff.mp h
    cases text <;> cases e
  next body e => exact ⟨true, body, h, e⟩
  next => exact absurd h (not_number_of_word fun x e => by cases e)
  next => exact absurd h (not_number_of_word fun x e => by cases e)
  next => exact absurd h (not_number_of_word fun x e => by cases e)
  next => exact ⟨false, _, h, rfl⟩

theorem digit_of_readJsonNumber {negative : Bool} {r : JsonValue × List Char}
    (h : readJsonNumber negative cs = some r) : ∃ c rest, cs = c :: rest ∧ isDecimalDigit c := by
  cases cs with
  | nil => simp [readJsonNumber] at h
  | cons c rest =>
    refine ⟨c, rest, rfl, ?_⟩
    by_contra notDigit
    have none : (c :: rest).takeWhile isDecimalDigit = [] := List.takeWhile_cons_of_neg notDigit
    rw [readJsonNumber, none] at h
    simp at h

/-- What starts with a digit, perhaps behind a minus, is a number. -/
theorem readJsonValue_signed {c : Char} (h : isDecimalDigit c) (negative : Bool) (bound : Nat)
    (cs : List Char) : readJsonValue (bound + 1) ((if negative then ['-'] else []) ++ c :: cs) =
      readJsonNumber negative (c :: cs) := by
  cases negative with
  | true =>
    have opened : dropJsonBlanks ('-' :: c :: cs) = '-' :: c :: cs := rfl
    simp only [if_true, List.singleton_append, readJsonValue, opened]
  | false =>
    have printed : ¬ isJsonBlank c := by
      intro blank
      simp only [isJsonBlank, Bool.or_eq_true, beq_iff_eq] at blank
      rcases blank with ((rfl | rfl) | rfl) | rfl <;> cases h
    have opened : dropJsonBlanks (c :: cs) = c :: cs := List.dropWhile_cons_of_neg printed
    rw [if_neg Bool.false_ne_true, List.nil_append, readJsonValue, opened]
    split
    case h_8 => rfl
    all_goals
      next e =>
        rw [(List.cons.inj e).1] at h
        cases h

namespace JsonValue

/-- A text is read as a value; what follows it is left, perhaps without the blanks in front. -/
def Reads (v : JsonValue) (cs : List Char) : Prop :=
  ∀ bound rest, cs.length < bound → endsNumber rest →
    ∃ r, readJsonValue bound (cs ++ rest) = some (v, r) ∧ dropJsonBlanks r = dropJsonBlanks rest

/-- It is enough that a text is read as a value whatever follows, and that there is a bound. -/
theorem reads_of_succ {v : JsonValue}
    (h : ∀ bound rest, endsNumber rest → cs.length ≤ bound →
      ∃ r, readJsonValue (bound + 1) (cs ++ rest) = some (v, r) ∧
        dropJsonBlanks r = dropJsonBlanks rest) : v.Reads cs := by
  intro bound rest hb hr
  cases bound with
  | zero => omega
  | succ bound => exact h bound rest hr (by omega)

theorem reads_number {x : Binary64} (h : x.ReadsBack) : (number x).Reads x.json.toList := by
  rw [Binary64.ReadsBack, ofText?] at h
  split at h
  next v r read =>
    split at h
    next ends =>
      cases Option.some.inj h
      -- What was read alone is read again in front of the rest, since the rest ends a number.
      obtain ⟨negative, body, hbody, shape⟩ := readJsonValue_number read
      obtain ⟨c, more, rfl, digit⟩ := digit_of_readJsonNumber hbody
      refine reads_of_succ fun bound rest hr _ => ⟨r ++ rest, ?_, ?_⟩
      · have opened : dropJsonBlanks (x.json.toList ++ rest) =
            (if negative then ['-'] else []) ++ c :: (more ++ rest) := by
          cases negative <;> exact dropJsonBlanks_append_of_cons shape rest
        rw [← readJsonValue_blanks, opened, readJsonValue_signed digit, ← List.cons_append,
          readJsonNumber_append hr, hbody, Option.map_some]
      · refine dropJsonBlanks_append (List.all_eq_true.mpr ?_) rest
        exact List.dropWhile_eq_nil_iff.mp (List.isEmpty_iff.mp ends)
    next => cases h
  next => cases h

theorem reads_natural {n : Nat} (h : n ≤ greatestCount) :
    (natural n).Reads (toString n).toList := by
  refine reads_of_succ fun bound rest hr _ => ⟨rest, ?_, rfl⟩
  rw [Nat.toString_eq_ofList_toDigits, String.toList_ofList]
  have read := readJsonNumber_toDigits h hr
  obtain ⟨c, more, shape, digit⟩ := digit_of_readJsonNumber read
  rw [shape] at read ⊢
  exact (readJsonValue_signed digit false bound more).trans read

theorem reads_text (content : String) : (text content).Reads (quoteJson content).toList := by
  refine reads_of_succ fun bound rest _ _ => ⟨rest, ?_, rfl⟩
  have opened (cs : List Char) : dropJsonBlanks ('"' :: cs) = '"' :: cs := rfl
  rw [toList_quoteJson, List.cons_append, List.append_assoc, List.singleton_append]
  simp only [readJsonValue, opened, readJsonText_quoted, Option.map_some]

theorem reads_boolean (value : Bool) : (boolean value).Reads (compact (boolean value)).toList := by
  refine reads_of_succ fun bound rest _ _ => ⟨rest, ?_, rfl⟩
  cases value <;> rfl

theorem reads_null : null.Reads (compact null).toList :=
  reads_of_succ fun _ rest _ _ => ⟨rest, rfl, rfl⟩

/-! Values between separators. -/

section Separated

variable {gap closing : List Char} (hg : gap.all isJsonBlank)

include hg

theorem readJsonItems_gap (bound : Nat) (cs : List Char) :
    readJsonItems bound (gap ++ cs) = readJsonItems bound cs := by
  rw [← readJsonItems_blanks, dropJsonBlanks_append hg, readJsonItems_blanks]

theorem readJsonFields_gap (bound : Nat) (cs : List Char) :
    readJsonFields bound (gap ++ cs) = readJsonFields bound cs := by
  rw [← readJsonFields_blanks, dropJsonBlanks_append hg, readJsonFields_blanks]

/-- Items are read one after the other; each of them takes one from the bound. -/
theorem readJsonItems_intercalate (bound : Nat) (hc : endsNumber closing)
    (hd : dropJsonBlanks closing = ']' :: rest) {items : List JsonValue}
    {texts : List (List Char)} (h : List.Forall₂ Reads items texts) (hne : items ≠ [])
    (hb : ((',' :: gap).intercalate texts).length + 1 < bound) :
    readJsonItems bound ((',' :: gap).intercalate texts ++ closing) = some (items, rest) := by
  induction h generalizing bound with
  | nil => exact absurd rfl hne
  | @cons item text items texts first others ih =>
    obtain ⟨bound, rfl⟩ := Nat.exists_eq_add_one_of_ne_zero (Nat.ne_of_gt (Nat.zero_lt_of_lt hb))
    cases others with
    | nil =>
      rw [List.intercalate_singleton] at hb ⊢
      obtain ⟨r, read, ends⟩ := first bound closing (by omega) hc
      simp only [readJsonItems, read, Option.bind_eq_bind, Option.bind_some, ends, hd]
    -- A comma ends the first item, and the others have a smaller bound that is still enough.
    | @cons _ text' _ texts second others =>
      rw [List.intercalate_cons_cons, List.length_append, List.length_append,
        List.length_cons] at hb
      rw [List.intercalate_cons_cons, List.append_assoc, List.append_assoc, List.cons_append]
      have more := ih bound (List.cons_ne_nil _ _) (by omega)
      have comma (cs : List Char) : dropJsonBlanks (',' :: cs) = ',' :: cs := rfl
      obtain ⟨r, read, ends⟩ := first bound
        (',' :: (gap ++ ((',' :: gap).intercalate (text' :: texts) ++ closing))) (by omega) rfl
      simp only [readJsonItems, read, Option.bind_eq_bind, Option.bind_some, ends, comma,
        readJsonItems_gap hg, more]

/-- The text of a field is its quoted name, a colon and a text that is read as its value. -/
def FieldReads (field : String × JsonValue) (cs : List Char) : Prop :=
  ∃ value, field.2.Reads value ∧ cs = (quoteJson field.1).toList ++ ':' :: ' ' :: value

theorem readJsonFields_intercalate (bound : Nat) (hc : endsNumber closing)
    (hd : dropJsonBlanks closing = '\x7d' :: rest) {fields : List (String × JsonValue)}
    {texts : List (List Char)} (h : List.Forall₂ FieldReads fields texts) (hne : fields ≠ [])
    (hb : ((',' :: gap).intercalate texts).length + 1 < bound) :
    readJsonFields bound ((',' :: gap).intercalate texts ++ closing) =
      some (some fields, rest) := by
  induction h generalizing bound with
  | nil => exact absurd rfl hne
  | @cons field text fields texts first others ih =>
    obtain ⟨bound, rfl⟩ := Nat.exists_eq_add_one_of_ne_zero (Nat.ne_of_gt (Nat.zero_lt_of_lt hb))
    obtain ⟨name, value⟩ := field
    obtain ⟨cs, reads, written⟩ := first
    have quote (cs : List Char) : dropJsonBlanks ('"' :: cs) = '"' :: cs := rfl
    have colon (cs : List Char) : dropJsonBlanks (':' :: cs) = ':' :: cs := rfl
    have comma (cs : List Char) : dropJsonBlanks (',' :: cs) = ',' :: cs := rfl
    have blank (bound : Nat) (cs : List Char) :
        readJsonValue bound (' ' :: cs) = readJsonValue bound cs := by
      rw [← readJsonValue_blanks, ← readJsonValue_blanks bound cs]
      rfl
    cases others with
    | nil =>
      rw [List.intercalate_singleton, written, List.length_append, List.length_cons,
        List.length_cons] at hb
      obtain ⟨r, read, ends⟩ := reads bound closing (by omega) hc
      rw [List.intercalate_singleton, written, toList_quoteJson]
      simp only [List.cons_append, List.nil_append, List.append_assoc, readJsonFields, quote,
        readJsonText_quoted, Option.bind_eq_bind, Option.bind_some, colon, blank, read, ends, hd,
        Option.map_some]
    | @cons _ text' _ texts second others =>
      rw [List.intercalate_cons_cons, written, List.length_append, List.length_append,
        List.length_append, List.length_cons, List.length_cons, List.length_cons] at hb
      rw [List.intercalate_cons_cons, written, toList_quoteJson]
      have more := ih bound (List.cons_ne_nil _ _) (by omega)
      obtain ⟨r, read, ends⟩ := reads bound
        (',' :: (gap ++ ((',' :: gap).intercalate (text' :: texts) ++ closing))) (by omega) rfl
      simp only [List.cons_append, List.nil_append, List.append_assoc, readJsonFields, quote,
        readJsonText_quoted, Option.bind_eq_bind, Option.bind_some, colon, blank, read, ends, comma,
        readJsonFields_gap hg, more, Option.map_some]

end Separated

/-- The start of a new line at a depth. -/
def lineStart (depth : Nat) : List Char :=
  '\n' :: List.replicate (2 * depth) ' '

theorem isJsonBlank_lineStart (depth : Nat) : (lineStart depth).all isJsonBlank := by
  rw [lineStart, List.all_cons, List.all_replicate]
  split <;> rfl

theorem endsNumber_lineStart (depth : Nat) (rest : List Char) :
    endsNumber (lineStart depth ++ rest) :=
  rfl

theorem toList_bracket {items : List String} (h : items ≠ []) (opening closing : String)
    (depth : Nat) : (bracket opening closing depth items).toList = opening.toList ++
      (lineStart (depth + 1) ++ ((',' :: lineStart (depth + 1)).intercalate (items.map String.toList) ++
        (lineStart depth ++ closing.toList))) := by
  rw [bracket, if_neg (by simpa using h)]
  simp [lineStart]

theorem indentedItems_eq (depth : Nat) (items : List JsonValue) :
    indentedItems depth items = items.map (indented depth) := by
  induction items with
  | nil => rfl
  | cons item items ih => rw [indentedItems, ih, List.map_cons]

theorem indentedFields_eq (depth : Nat) (fields : List (String × JsonValue)) :
    indentedFields depth fields =
      fields.map fun field => quoteJson field.1 ++ ": " ++ field.2.indented depth := by
  induction fields with
  | nil => rfl
  | cons field fields ih => rw [indentedFields, ih, List.map_cons]

theorem reads_list {items : List JsonValue} {depth : Nat}
    (h : ∀ item ∈ items, item.Reads (item.indented (depth + 1)).toList) :
    (list items).Reads ((list items).indented depth).toList := by
  rw [indented, indentedItems_eq]
  refine reads_of_succ fun bound rest _ hb => ⟨rest, ?_, rfl⟩
  by_cases hne : items = []
  · have empty : (bracket "[" "]" depth []).toList = ['[', ']'] := by simp [bracket]
    rw [hne, List.map_nil, empty]
    rfl
  have each : List.Forall₂ Reads items
      ((items.map (indented (depth + 1))).map String.toList) := by
    rw [List.map_map, List.forall₂_map_right_iff, List.forall₂_same]
    exact h
  have closed : dropJsonBlanks (lineStart depth ++ ']' :: rest) = ']' :: rest :=
    dropJsonBlanks_append (isJsonBlank_lineStart depth) _
  rw [toList_bracket (mt List.map_eq_nil_iff.mp hne)] at hb ⊢
  have read := readJsonItems_intercalate (isJsonBlank_lineStart (depth + 1)) bound
    (endsNumber_lineStart depth (']' :: rest)) closed each hne (by
      simp only [List.length_append, lineStart, List.length_cons] at hb ⊢
      omega)
  rw [← readJsonItems_gap (isJsonBlank_lineStart (depth + 1))] at read
  simpa using readJsonValue_items read

theorem reads_record {fields : List (String × JsonValue)} {depth : Nat}
    (h : ∀ field ∈ fields, field.2.Reads (field.2.indented (depth + 1)).toList) :
    (record fields).Reads ((record fields).indented depth).toList := by
  rw [indented, indentedFields_eq]
  refine reads_of_succ fun bound rest _ hb => ⟨rest, ?_, rfl⟩
  by_cases hne : fields = []
  · have empty : (bracket "\x7b" "\x7d" depth []).toList = ['\x7b', '\x7d'] := by simp [bracket]
    rw [hne, List.map_nil, empty]
    rfl
  have each : List.Forall₂ FieldReads fields ((fields.map fun field =>
      quoteJson field.1 ++ ": " ++ field.2.indented (depth + 1)).map String.toList) := by
    rw [List.map_map, List.forall₂_map_right_iff, List.forall₂_same]
    intro field hm
    exact ⟨_, h field hm, by simp⟩
  have closed : dropJsonBlanks (lineStart depth ++ '\x7d' :: rest) = '\x7d' :: rest :=
    dropJsonBlanks_append (isJsonBlank_lineStart depth) _
  rw [toList_bracket (mt List.map_eq_nil_iff.mp hne)] at hb ⊢
  have read := readJsonFields_intercalate (isJsonBlank_lineStart (depth + 1)) bound
    (endsNumber_lineStart depth ('\x7d' :: rest)) closed each hne (by
      simp only [List.length_append, lineStart, List.length_cons] at hb ⊢
      omega)
  rw [← readJsonFields_gap (isJsonBlank_lineStart (depth + 1))] at read
  simpa using readJsonValue_fields read

/-- Values that are read as they were written. Numbers have to read back, and natural numbers to
have 64 bits. -/
inductive Faithful : JsonValue → Prop where
  | null : Faithful null
  | boolean (value : Bool) : Faithful (boolean value)
  | natural {value : Nat} (h : value ≤ greatestCount) : Faithful (natural value)
  | number {value : Binary64} (h : value.ReadsBack) : Faithful (number value)
  | text (value : String) : Faithful (text value)
  | list {items : List JsonValue} (h : ∀ item ∈ items, Faithful item) : Faithful (list items)
  | record {fields : List (String × JsonValue)} (h : ∀ field ∈ fields, Faithful field.2) :
    Faithful (record fields)

theorem Faithful.reads {v : JsonValue} (h : v.Faithful) (depth : Nat) :
    v.Reads (v.indented depth).toList := by
  induction h generalizing depth with
  | null => exact reads_null
  | boolean value => exact reads_boolean value
  | natural h => exact reads_natural h
  | number h => exact reads_number h
  | text value => exact reads_text value
  | list _ ih => exact reads_list fun item hm => ih item hm (depth + 1)
  | record _ ih => exact reads_record fun field hm => ih field hm (depth + 1)

/-- What is written on many lines is read as it was. -/
theorem Faithful.ofText?_pretty {v : JsonValue} (h : v.Faithful) : ofText? v.pretty = some v := by
  obtain ⟨r, read, ends⟩ := h.reads 0 (v.pretty.toList.length + 1) [] (Nat.lt_succ_self _) rfl
  have blank : (dropJsonBlanks r).isEmpty := by
    rw [ends]
    rfl
  have whole : v.indented 0 = v.pretty := rfl
  rw [List.append_nil, whole] at read
  rw [ofText?, read]
  exact if_pos blank

end JsonValue

end LivePages
