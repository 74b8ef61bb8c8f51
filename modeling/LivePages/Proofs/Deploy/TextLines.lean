import LivePages.Deploy.Scalar
import LivePages.Proofs.Page.Url
import LivePages.Proofs.Text.Hex
import LivePages.Text.Pieces
import Mathlib.Data.List.TakeWhile

namespace LivePages

/-! Texts by their lines, and lines by the entries that go on over several of them. -/

/-- The lines of a text, each of which ends with a line break. -/
def textLines (text : String) : List String :=
  (splitText '\n' text).dropLast

theorem textLines_join (lines : List String) :
    textLines (String.join (lines.map (· ++ "\n"))) = lines.flatMap (splitText '\n') := by
  have split : splitText '\n' (String.join (lines.map (· ++ "\n"))) =
      lines.flatMap (splitText '\n') ++ [""] := by
    rw [splitText, String.toList_join]
    induction lines with
    | nil => rfl
    | cons line lines ih =>
      have newline : (line ++ "\n").toList = line.toList ++ ['\n'] := String.toList_append
      rw [List.map_cons, List.flatMap_cons, newline, List.append_assoc, List.singleton_append,
        splitAtChar_separator, List.map_append, ih, List.flatMap_cons, List.append_assoc]
      rfl
  rw [textLines, split, List.dropLast_concat]

theorem newline_not_mem_of_mem_textLines {text line : String} (h : line ∈ textLines text) :
    '\n' ∉ line.toList := by
  obtain ⟨cs, hc, rfl⟩ := List.mem_map.mp (List.dropLast_subset _ h)
  rw [String.toList_ofList]
  exact not_mem_of_mem_splitAtChar hc

theorem splitText_line {line : String} (h : '\n' ∉ line.toList) : splitText '\n' line = [line] := by
  rw [splitText, splitAtChar_of_not_mem h, List.map_singleton, String.ofList_toList]

/-- Lines without line breaks of their own are what is read. -/
theorem textLines_join_of_not_mem {lines : List String} (h : ∀ line ∈ lines, '\n' ∉ line.toList) :
    textLines (String.join (lines.map (· ++ "\n"))) = lines := by
  rw [textLines_join, List.flatMap_congr fun line hl => splitText_line (h line hl),
    List.flatMap_singleton']

/-! Entries. -/

/-- A line that belongs to the entry before it: one that is empty or indented like the text of an
item, but for other line breaks in it. -/
def continuesEntry (line : String) : Bool :=
  let cs := line.toList.dropWhile isLineBreak
  cs.isEmpty || (padding 6).isPrefixOf cs

/-- Reads on in an entry. -/
def entriesFrom (entry : String) : List String → List String
  | [] => [entry]
  | line :: rest =>
    if continuesEntry line then entriesFrom (entry ++ "\n" ++ line) rest
    else entry :: entriesFrom line rest

def entriesOfLines : List String → List String
  | [] => []
  | line :: rest => entriesFrom line rest

/-- An entry by its lines: it starts with the first one, and all others continue it. -/
def IsEntry (entry : String) : Prop :=
  ∃ first rest, splitText '\n' entry = first :: rest ∧ continuesEntry first = false ∧
    ∀ line ∈ rest, continuesEntry line

theorem isEntry_of_not_mem {line : String} (h : '\n' ∉ line.toList)
    (hc : continuesEntry line = false) : IsEntry line :=
  ⟨line, [], splitText_line h, hc, List.forall_mem_nil _⟩

/-- A line with given characters is an entry. -/
theorem isEntry_ofList {cs : List Char} (h : '\n' ∉ cs) {c : Char} {rest : List Char}
    (hd : cs.dropWhile isLineBreak = c :: rest) (hp : (padding 6).isPrefixOf (c :: rest) = false) :
    IsEntry (String.ofList cs) := by
  refine isEntry_of_not_mem (not_mem_ofList h) ?_
  rw [continuesEntry, String.toList_ofList, hd, hp]
  rfl

/-- What is put in front of a text is put in front of its first piece. -/
theorem splitAtChar_append_left {separator : Char} {before cs piece : List Char}
    {pieces : List (List Char)} (h : separator ∉ before)
    (e : splitAtChar separator cs = piece :: pieces) :
    splitAtChar separator (before ++ cs) = (before ++ piece) :: pieces := by
  induction before with
  | nil => exact e
  | cons c before ih =>
    rw [List.mem_cons, not_or] at h
    rw [List.cons_append, splitAtChar, if_neg (Ne.symm h.1), ih h.2]
    rfl

theorem eq_of_splitAtChar {separator : Char} {cs piece : List Char} {pieces : List (List Char)}
    (h : splitAtChar separator cs = piece :: pieces) :
    cs = piece ++ pieces.flatMap (separator :: ·) := by
  induction cs generalizing piece pieces with
  | nil => cases h; rfl
  | cons c cs ih =>
    obtain ⟨first, rest, e⟩ := List.exists_cons_of_ne_nil (splitAtChar_ne_nil separator cs)
    have cs_eq := ih e
    rw [splitAtChar, e] at h
    split at h
    next hc =>
      cases h
      rw [hc, cs_eq]
      rfl
    next =>
      cases h
      rw [cs_eq]
      rfl

/-- The lines behind an entry are joined to it. -/
theorem entriesFrom_append (entry : String) {lines : List String}
    (h : ∀ line ∈ lines, continuesEntry line) (rest : List String) :
    entriesFrom entry (lines ++ rest) =
      entriesFrom (String.ofList (entry.toList ++
        (lines.map String.toList).flatMap ('\n' :: ·))) rest := by
  induction lines generalizing entry with
  | nil =>
    rw [List.map_nil, List.flatMap_nil, List.append_nil, String.ofList_toList]
    rfl
  | cons line lines ih =>
    rw [List.forall_mem_cons] at h
    have newline : (entry ++ "\n" ++ line).toList = entry.toList ++ '\n' :: line.toList := by
      rw [String.toList_append, String.toList_append, List.append_assoc]
      rfl
    rw [List.cons_append, entriesFrom, if_pos h.1, ih _ h.2, newline, List.map_cons,
      List.flatMap_cons, List.append_assoc, List.cons_append]

/-- Entries are read from their lines. -/
theorem entriesOfLines_flatMap {entries : List String} (h : ∀ entry ∈ entries, IsEntry entry) :
    entriesOfLines (entries.flatMap (splitText '\n')) = entries := by
  have after {entry : String} (he : IsEntry entry) (rest : List String) :
      entriesOfLines (splitText '\n' entry ++ rest) = entriesFrom entry rest := by
    obtain ⟨first, lines, e, -, hl⟩ := he
    have whole : String.ofList (first.toList ++ (lines.map String.toList).flatMap ('\n' :: ·)) =
        entry := by
      have pieces : splitAtChar '\n' entry.toList = first.toList :: lines.map String.toList := by
        have e' := congrArg (List.map String.toList) e
        rw [splitText, List.map_map, List.map_cons] at e'
        rw [← e']
        exact (List.map_id'' (fun cs => String.toList_ofList) _).symm
      rw [← eq_of_splitAtChar pieces, String.ofList_toList]
    rw [e, List.cons_append, entriesOfLines, entriesFrom_append first hl, whole]
  cases entries with
  | nil => rfl
  | cons entry entries =>
    rw [List.forall_mem_cons] at h
    rw [List.flatMap_cons, after h.1]
    replace h := h.2
    induction entries generalizing entry with
    | nil => rfl
    | cons next entries ih =>
      rw [List.forall_mem_cons] at h
      obtain ⟨first, lines, e, hf, hl⟩ := h.1
      have start : entriesFrom entry (splitText '\n' next ++ entries.flatMap (splitText '\n')) =
          entry :: entriesOfLines (splitText '\n' next ++ entries.flatMap (splitText '\n')) := by
        rw [e, List.cons_append, entriesFrom, if_neg (by rw [hf]; exact Bool.false_ne_true),
          entriesOfLines]
      rw [List.flatMap_cons, start, after h.1, ih next h.2]

/-! Scalars as items. -/

theorem newline_not_mem_writeSingle {cs : List Char} (h : '\n' ∉ cs) (indent : Nat)
    (afterBreak : Bool) : '\n' ∉ writeSingle indent afterBreak cs := by
  induction cs generalizing afterBreak with
  | nil => exact List.not_mem_nil
  | cons c cs ih =>
    rw [List.mem_cons, not_or] at h
    have pad : '\n' ∉ (if afterBreak then padding indent else []) := by
      cases afterBreak <;> simp [padding]
    have quoted : '\n' ∉ (if c = '\'' then ['\'', '\''] else [c]) := by
      split <;> simp [h.1]
    rw [writeSingle]
    split
    next => exact List.not_mem_cons_of_ne_of_not_mem h.1 (ih h.2 _)
    next =>
      split
      next => exact List.not_mem_cons_of_ne_of_not_mem h.1 (ih h.2 _)
      next =>
        rw [List.mem_append, List.mem_append, not_or, not_or]
        exact ⟨⟨pad, quoted⟩, ih h.2 _⟩

theorem exists_digit_of_mem_toDigits {n : Nat} {c : Char} (h : c ∈ Nat.toDigits 16 n) :
    ∃ d : Fin 16, c = Nat.digitChar d := by
  induction n using Nat.strong_induction_on with
  | _ n ih =>
    rw [Nat.toDigits_eq_if (by decide)] at h
    split at h
    next hn => exact ⟨⟨n, hn⟩, List.mem_singleton.mp h⟩
    next hn =>
      rcases List.mem_append.mp h with h | h
      · exact ih (n / 16) (by omega) h
      · exact ⟨⟨n % 16, Nat.mod_lt n (by decide)⟩, List.mem_singleton.mp h⟩

theorem newline_not_mem_escapeCode {mark : Char} (hm : '\n' ≠ mark) (width n : Nat) :
    '\n' ∉ escapeCode mark width n := by
  have upper : ∀ d : Fin 16, (Nat.digitChar d).toUpper ≠ '\n' := by decide
  have digits : '\n' ∉ (Nat.toDigits 16 n).map Char.toUpper := by
    intro h
    obtain ⟨c, hc, e⟩ := List.mem_map.mp h
    obtain ⟨d, rfl⟩ := exists_digit_of_mem_toDigits hc
    exact upper d e
  have zeros (k : Nat) : '\n' ∉ List.replicate k '0' := by simp
  rw [escapeCode, List.cons_append, List.cons_append, List.mem_cons, List.mem_cons, List.mem_append]
  simp only [digits, zeros, hm, or_self, or_false]
  decide

theorem newline_not_mem_escapeScalarChar (c : Char) : '\n' ∉ escapeScalarChar c := by
  by_cases hc : c = '\n'
  · rw [hc]
    decide
  · unfold escapeScalarChar
    split <;> try decide
    split_ifs
    · exact fun h => hc (List.mem_singleton.mp h).symm
    · exact newline_not_mem_escapeCode (by decide) 2 _
    · exact newline_not_mem_escapeCode (by decide) 4 _
    · exact newline_not_mem_escapeCode (by decide) 8 _

/-- A literal text goes on in lines at the indent. -/
theorem continuesEntry_writeLiteral (afterBreak : Bool) (cs : List Char) :
    ∃ first rest, splitAtChar '\n' (writeLiteral 6 afterBreak cs) = first :: rest ∧
      (afterBreak → continuesEntry (String.ofList first)) ∧
      ∀ line ∈ rest, continuesEntry (String.ofList line) := by
  induction cs generalizing afterBreak with
  | nil => exact ⟨[], [], rfl, fun _ => rfl, List.forall_mem_nil _⟩
  | cons c cs ih =>
    rw [writeLiteral]
    split
    next hc =>
      obtain ⟨first, rest, e, hf, hr⟩ := ih true
      by_cases hn : c = '\n'
      · refine ⟨[], first :: rest, ?_, fun _ => rfl, List.forall_mem_cons.mpr ⟨hf rfl, hr⟩⟩
        rw [splitAtChar, if_pos hn, e]
      · refine ⟨c :: first, rest, ?_, fun _ => ?_, hr⟩
        · rw [splitAtChar, if_neg hn, e]
        · have hf := hf rfl
          rw [continuesEntry, String.toList_ofList] at hf ⊢
          rwa [List.dropWhile_cons_of_pos hc]
    next hc =>
      obtain ⟨first, rest, e, -, hr⟩ := ih false
      have hn : c ≠ '\n' := by
        rintro rfl
        exact hc rfl
      have plain : splitAtChar '\n' (c :: writeLiteral 6 false cs) = (c :: first) :: rest := by
        rw [splitAtChar, if_neg hn, e]
      cases afterBreak with
      | false => exact ⟨c :: first, rest, plain, fun h => absurd h Bool.false_ne_true, hr⟩
      | true =>
        refine ⟨padding 6 ++ c :: first, rest, ?_, fun _ => ?_, hr⟩
        · exact splitAtChar_append_left (by decide) plain
        · rw [continuesEntry, String.toList_ofList]
          rfl

theorem newline_not_mem_of_styleOf {cs : List Char} (h : styleOf cs = .plain ∨ styleOf cs = .single) :
    '\n' ∉ cs := by
  intro hm
  rw [styleOf, if_pos (List.contains_iff_mem.mpr hm)] at h
  split at h <;> simp at h

/-- All lines of a scalar but its first one are indented, whatever its text is. -/
theorem exists_splitAtChar_writeScalar (text : String) :
    ∃ first rest, splitAtChar '\n' (writeScalar 6 text).toList = first :: rest ∧
      ∀ line ∈ rest, continuesEntry (String.ofList line) := by
  have whole {cs : List Char} (h : '\n' ∉ cs) : ∃ first rest,
      splitAtChar '\n' cs = first :: rest ∧ ∀ line ∈ rest, continuesEntry (String.ofList line) :=
    ⟨cs, [], splitAtChar_of_not_mem h, List.forall_mem_nil _⟩
  rw [writeScalar, String.toList_ofList]
  cases hs : styleOf text.toList with
  | plain => exact whole (newline_not_mem_of_styleOf (.inl hs))
  | single =>
    refine whole ?_
    simpa using newline_not_mem_writeSingle (newline_not_mem_of_styleOf (.inr hs)) 6 false
  | double =>
    refine whole ?_
    simpa using fun c _ => newline_not_mem_escapeScalarChar c
  | literal =>
    -- The header is a line of its own, and the text follows in lines at the indent.
    obtain ⟨first, rest, e, hf, hr⟩ := continuesEntry_writeLiteral true text.toList
    obtain ⟨header, hn, eh⟩ : ∃ header, '\n' ∉ header ∧
        literalHeader text.toList = header ++ ['\n'] := by
      refine ⟨'|' :: (if text.toList.head?.any isBlankEnd then ['2'] else []) ++ ['-'], ?_, ?_⟩
      · split <;> decide
      · simp [literalHeader]
    refine ⟨header, first :: rest, ?_, List.forall_mem_cons.mpr ⟨hf rfl, hr⟩⟩
    dsimp only
    rw [eh, List.append_assoc, List.singleton_append, splitAtChar_append hn, e]

theorem isEntry_item (text : String) : IsEntry ("    - " ++ writeScalar 6 text) := by
  obtain ⟨first, rest, e, hr⟩ := exists_splitAtChar_writeScalar text
  refine ⟨String.ofList ("    - ".toList ++ first), rest.map String.ofList, ?_, ?_,
    List.forall_mem_map.mpr hr⟩
  · rw [splitText, String.toList_append, splitAtChar_append_left (by decide) e, List.map_cons]
  · rw [continuesEntry, String.toList_ofList]
    rfl

end LivePages
