import LivePages.Proofs.Html.Lexemes
import LivePages.Proofs.Html.Reading
import LivePages.Proofs.Html.Verbatim

namespace LivePages

/-! Texts that are made of whole tags, comments and declarations. -/

/-- A name that ends where it is written to end in a tag, and opens nothing. -/
def isTagWord (name : String) : Bool :=
  !name.isEmpty && name.toList.all fun c => staysInName c && c != '<'

def isTagName (name : String) : Bool :=
  name.toList.head?.any isAsciiLetter && isTagWord name

/-- An element whose tags end where they are written to end. -/
def Element.isWhole (e : Element) : Bool :=
  isTagName e.tag && e.attributes.all fun pair => isTagWord pair.1

/-- A comment that ends where it is written to end, also for a reader of text. -/
def isWholeComment (content : String) : Bool :=
  isReadComment content && !content.toList.contains '\r' &&
    textTags.all fun name => !hasEndTag name content.toList

def isWholeDoctype (name : String) : Bool :=
  isReadName name && isTagWord name

/-- No markup begins with a bracket and this character. -/
def isInert (c : Char) : Bool :=
  !isAsciiLetter c && c != '/' && c != '!' && c != '?'

/-- No markup begins in a text, however the text goes on. -/
def isInertText : List Char → Bool
  | [] => true
  | c :: cs => (c != '<' || cs.head?.any isInert) && isInertText cs

theorem isInertText_of_not_mem {cs : List Char} (h : '<' ∉ cs) : isInertText cs := by
  induction cs with
  | nil => rfl
  | cons c cs ih =>
    rw [List.mem_cons, not_or] at h
    rw [isInertText, bne_iff_ne.mpr (Ne.symm h.1), ih h.2]
    rfl

theorem readName_not_mem_of_isHarmless {name : String} (h : isHarmless name) :
    readName name ∉ WidgetKind.tags := by
  intro ht
  have plain : ∀ tag ∈ WidgetKind.tags, '\ufffd' ∉ tag.toList := by decide
  have letters := plain _ ht
  have never := List.all_eq_true.mp h _ ht
  rw [readName, String.toList_ofList] at letters never
  rw [canBegin_map_nameChar letters (by decide)] at never
  cases never

variable {P : String → Prop} {as bs cs : List Char}

/-- A text that falls into whole pieces. Its start tags are read with names of a class. -/
inductive InPieces (P : String → Prop) : List Char → Prop
  | nil : InPieces P []
  | char {c : Char} {cs : List Char} (hc : c ≠ '<') (h : InPieces P cs) : InPieces P (c :: cs)
  | bracket {c : Char} {cs : List Char} (hc : isInert c) (h : InPieces P (c :: cs)) :
      InPieces P ('<' :: c :: cs)
  | startTag {e : Element} {cs : List Char} (he : e.isWhole) (hp : P (readName e.tag))
      (h : InPieces P cs) : InPieces P ((writeStartTag e).toList ++ cs)
  | endTag {tag : String} {cs : List Char} (ht : isTagName tag) (h : InPieces P cs) :
      InPieces P (("</" ++ tag ++ ">").toList ++ cs)
  | comment {content : String} {cs : List Char} (hc : isWholeComment content) (h : InPieces P cs) :
      InPieces P (("<!--" ++ content ++ "-->").toList ++ cs)
  | doctype {name : String} {cs : List Char} (hn : isWholeDoctype name) (h : InPieces P cs) :
      InPieces P (("<!DOCTYPE " ++ name ++ ">").toList ++ cs)

theorem toList_endTag (tag : String) : ("</" ++ tag ++ ">").toList = '<' :: '/' :: (tag.toList ++ ['>']) := by
  simp

theorem toList_comment (content : String) : ("<!--" ++ content ++ "-->").toList =
    '<' :: '!' :: '-' :: '-' :: (content.toList ++ ['-', '-', '>']) := by
  simp

theorem toList_doctype (name : String) : ("<!DOCTYPE " ++ name ++ ">").toList =
    '<' :: '!' :: ("DOCTYPE ".toList ++ (name.toList ++ ['>'])) := by
  simp

namespace InPieces

theorem tail {c : Char} {rest : List Char} (h : InPieces P cs) (e : cs = c :: rest) (hc : c ≠ '<') :
    InPieces P rest := by
  have bracket {body : List Char} (e : '<' :: body = c :: rest) : InPieces P rest :=
    absurd (List.head_eq_of_cons_eq e).symm hc
  cases h with
  | nil => cases e
  | char _ h => cases e; exact h
  | bracket => exact bracket e
  | startTag => exact bracket (by rwa [toList_writeStartTag] at e)
  | endTag => exact bracket (by rwa [toList_endTag] at e)
  | comment => exact bracket (by rwa [toList_comment] at e)
  | doctype => exact bracket (by rwa [toList_doctype] at e)

theorem append (ha : InPieces P as) (hb : InPieces P bs) : InPieces P (as ++ bs) := by
  induction ha with
  | nil => exact hb
  | char hc _ ih => exact .char hc ih
  | bracket hc _ ih => exact .bracket hc ih
  | startTag he hp _ ih => rw [List.append_assoc]; exact .startTag he hp ih
  | endTag ht _ ih => rw [List.append_assoc]; exact .endTag ht ih
  | comment hc _ ih => rw [List.append_assoc]; exact .comment hc ih
  | doctype hn _ ih => rw [List.append_assoc]; exact .doctype hn ih

theorem of_isInertText (h : isInertText cs) : InPieces P cs := by
  induction cs with
  | nil => exact .nil
  | cons c cs ih =>
    rw [isInertText, Bool.and_eq_true, Bool.or_eq_true, bne_iff_ne] at h
    obtain ⟨hc, h⟩ := h
    by_cases he : c = '<'
    · subst he
      cases cs with
      | nil => simp at hc
      | cons d cs => exact .bracket (by simpa using hc) (ih h)
    · exact .char he (ih h)

theorem of_not_mem (h : '<' ∉ cs) : InPieces P cs :=
  of_isInertText (isInertText_of_not_mem h)

theorem dropWhile (h : InPieces P cs) : InPieces P (cs.dropWhile (· != '<')) := by
  induction h with
  | nil => exact .nil
  | char hc _ ih =>
    rw [List.dropWhile_cons_of_pos (by simpa using hc)]
    exact ih
  | bracket hc h => exact .bracket hc h
  | startTag he hp h =>
    have piece := InPieces.startTag he hp h
    rwa [toList_writeStartTag] at piece ⊢
  | endTag ht h =>
    have piece := InPieces.endTag ht h
    rwa [toList_endTag] at piece ⊢
  | comment hc h =>
    have piece := InPieces.comment hc h
    rwa [toList_comment] at piece ⊢
  | doctype hn h =>
    have piece := InPieces.doctype hn h
    rwa [toList_doctype] at piece ⊢

end InPieces

/-! Words of tags. -/

theorem isTagWord_iff {name : String} :
    isTagWord name ↔ name ≠ "" ∧ ∀ c ∈ name.toList, staysInName c ∧ c ≠ '<' := by
  simp [isTagWord]

theorem feed_not_mem_of_isTagWord {name : String} (h : isTagWord name) : '\r' ∉ name.toList := fun hm =>
  absurd ((isTagWord_iff.mp h).2 _ hm).1 (by decide)

theorem lt_not_mem_of_isTagWord {name : String} (h : isTagWord name) : '<' ∉ name.toList := fun hm =>
  ((isTagWord_iff.mp h).2 _ hm).2 rfl

theorem feed_not_mem_of_isWholeComment {content : String} (h : isWholeComment content) :
    '\r' ∉ content.toList := by
  simp only [isWholeComment, Bool.and_eq_true, Bool.not_eq_true', List.contains_eq_mem,
    decide_eq_false_iff_not] at h
  exact h.1.2

theorem isTagName_iff {name : String} :
    isTagName name ↔ (∃ c ws, name.toList = c :: ws ∧ isAsciiLetter c) ∧ isTagWord name := by
  rw [isTagName, Bool.and_eq_true]
  refine and_congr_left' ⟨exists_letter, ?_⟩
  rintro ⟨c, ws, hw, hc⟩
  rwa [hw, List.head?_cons, Option.any_some]

namespace Element

variable {e : Element}

theorem isWhole_iff : e.isWhole ↔ isTagName e.tag ∧ ∀ pair ∈ e.attributes, isTagWord pair.1 := by
  rw [isWhole, Bool.and_eq_true, List.all_eq_true]

/-- The element whose start tag is read where line ends are line feeds. -/
def withFeeds (e : Element) : Element :=
  ⟨e.tag, e.attributes.map fun pair => (pair.1, String.ofList (normalizeLineEnds pair.2.toList))⟩

theorem isWhole_withFeeds : e.withFeeds.isWhole = e.isWhole := by
  rw [isWhole, isWhole, withFeeds, List.all_map]
  rfl

end Element

section Tags

variable {d : TagDraft} {part : TagPart}

/-- An attribute leaves the name of the tag as it is. -/
theorem lexTag_pass {name : String} (hp : part.isBetween) (hn : isTagWord name) (value : String)
    (cs : List Char) : ∃ part' d', TagPart.isBetween part' ∧ TagDraft.name d' = d.name ∧
      lexTag part d (' ' :: (name.toList ++ (valueChars value ++ cs))) = lexTag part' d' cs := by
  obtain ⟨hne, hn⟩ := isTagWord_iff.mp hn
  obtain ⟨c, ws, hw⟩ := List.exists_cons_of_ne_nil (mt String.toList_eq_nil_iff.mp hne)
  rw [hw, List.forall_mem_cons] at hn
  let named : TagDraft := { d.startAttribute c with
    attributeName := (ws.map nameChar).reverse ++ (d.startAttribute c).attributeName }
  have read (cs : List Char) : lexTag part d (' ' :: (name.toList ++ cs)) =
      lexTag .attributeName named cs := by
    rw [hw, List.cons_append, lexTag_space hp hn.1.1, lexTag_attributeNameChars fun a ha => (hn.2 a ha).1]
  rw [read, valueChars]
  split
  next => exact ⟨.attributeName, named, rfl, rfl, rfl⟩
  next =>
    have opened (cs : List Char) : lexTag .attributeName named ('=' :: '"' :: cs) =
        lexTag (.quotedValue '"') named cs := rfl
    rw [List.cons_append, List.cons_append, List.append_assoc, List.singleton_append, opened,
      lexTag_quotedValue (quote_not_mem_escapeAttribute value)]
    refine ⟨.afterQuoted, _, rfl, ?_, rfl⟩
    rfl

theorem lexTag_passes {attributes : List (String × String)} (hp : part.isBetween)
    (hn : ∀ pair ∈ attributes, isTagWord pair.1) (cs : List Char) : ∃ d', TagDraft.name d' = d.name ∧
      lexTag part d (attributesChars attributes ++ '>' :: cs) = some (d'.finish false, cs) := by
  induction attributes generalizing part d with
  | nil => exact ⟨d, rfl, lexTag_bracket hp⟩
  | cons pair attributes ih =>
    rw [List.forall_mem_cons] at hn
    obtain ⟨part', d', hp', hname, read⟩ :=
      lexTag_pass (d := d) hp hn.1 pair.2 (attributesChars attributes ++ '>' :: cs)
    obtain ⟨d'', hname', rest⟩ := ih (d := d') hp' hn.2
    refine ⟨d'', hname'.trans hname, ?_⟩
    rw [← rest, ← read]
    simp [attributesChars]

/-- A whole tag is read to its end. -/
theorem lexTag_whole {name : String} (ht : isTagName name) {attributes : List (String × String)}
    (hn : ∀ pair ∈ attributes, isTagWord pair.1) (cs : List Char) : ∃ tag, Tag.name tag = readName name ∧
      lexTag .name {} (name.toList ++ (attributesChars attributes ++ '>' :: cs)) = some (tag, cs) := by
  have letters : ∀ c ∈ name.toList, staysInName c := fun c hc =>
    ((isTagWord_iff.mp (isTagName_iff.mp ht).2).2 c hc).1
  rw [lexTag_nameChars letters]
  obtain ⟨d, hd, read⟩ := lexTag_passes (show TagPart.name.isBetween from rfl) hn cs
  refine ⟨_, ?_, read⟩
  rw [TagDraft.finish, hd, readName, List.append_nil, List.reverse_reverse]

end Tags

/-! Line ends. -/

theorem normalizeLineEnds_append (h : '\r' ∉ as) (bs : List Char) :
    normalizeLineEnds (as ++ bs) = as ++ normalizeLineEnds bs := by
  induction as with
  | nil => rfl
  | cons a as ih =>
    rw [List.mem_cons, not_or] at h
    rw [List.cons_append, normalizeLineEnds, ih h.2, List.cons_append]
    · exact fun rest e => absurd e.symm h.1
    · exact Ne.symm h.1

theorem normalizeLineEnds_return (h : ∀ rest, cs ≠ '\n' :: rest) :
    normalizeLineEnds ('\r' :: cs) = '\n' :: normalizeLineEnds cs := by
  rw [normalizeLineEnds]
  exact h

theorem normalizeLineEnds_head (c : Char) (cs : List Char) :
    ∃ rest, normalizeLineEnds (c :: cs) = (if c = '\r' then '\n' else c) :: rest := by
  generalize e : c :: cs = l
  fun_cases normalizeLineEnds l <;> simp_all

theorem normalizeLineEnds_escaped (value cs : List Char) :
    normalizeLineEnds (value.flatMap escapeAttributeChar ++ '"' :: cs) =
      (normalizeLineEnds value).flatMap escapeAttributeChar ++ '"' :: normalizeLineEnds cs := by
  have plain (c : Char) (hc : c ≠ '\r') : '\r' ∉ escapeAttributeChar c := fun hm => by
    rcases mem_escapeAttributeChar hm with h | h
    · exact absurd h (by decide)
    · exact hc h.1.symm
  fun_induction normalizeLineEnds value with
  | case1 => exact normalizeLineEnds_append (show '\r' ∉ ['"'] by decide) cs
  | case2 rest ih =>
    have feed : normalizeLineEnds ('\r' :: '\n' :: (rest.flatMap escapeAttributeChar ++ '"' :: cs)) =
        '\n' :: normalizeLineEnds (rest.flatMap escapeAttributeChar ++ '"' :: cs) := rfl
    rw [ih] at feed
    exact feed
  | case3 rest hr ih =>
    -- What follows a carriage return alone is not a line feed once it is escaped.
    rw [List.flatMap_cons, List.flatMap_cons, List.append_assoc, List.append_assoc, ← ih]
    refine normalizeLineEnds_return fun rest' e => ?_
    cases rest with
    | nil => exact absurd e (by simp)
    | cons c rest =>
      rw [List.flatMap_cons, List.append_assoc] at e
      have hc : c ≠ '\n' := fun e => hr rest (e ▸ rfl)
      simp only [escapeAttributeChar, escapeTextChar] at e
      split_ifs at e <;> simp_all
  | case4 c rest hr hc ih =>
    rw [List.flatMap_cons, List.flatMap_cons, List.append_assoc, normalizeLineEnds_append (plain c hc), ih,
      List.append_assoc]

theorem normalizeLineEnds_eq_nil : normalizeLineEnds cs = [] ↔ cs = [] := by
  fun_cases normalizeLineEnds cs <;> simp

theorem normalizeLineEnds_value (value : String) (cs : List Char) :
    normalizeLineEnds (valueChars value ++ cs) =
      valueChars (String.ofList (normalizeLineEnds value.toList)) ++ normalizeLineEnds cs := by
  have empty : (String.ofList (normalizeLineEnds value.toList)).isEmpty = value.isEmpty := by
    rw [Bool.eq_iff_iff, String.isEmpty_iff, String.isEmpty_iff, ← String.toList_eq_nil_iff,
      String.toList_ofList, normalizeLineEnds_eq_nil, String.toList_eq_nil_iff]
  have quoted := normalizeLineEnds_append (show '\r' ∉ ['=', '"'] by decide)
    (value.toList.flatMap escapeAttributeChar ++ '"' :: cs)
  rw [valueChars, valueChars, empty]
  split
  next => rfl
  next =>
    rw [normalizeLineEnds_escaped] at quoted
    simpa [toList_escapeAttribute] using quoted

theorem normalizeLineEnds_attributes {attributes : List (String × String)}
    (hn : ∀ pair ∈ attributes, isTagWord pair.1) (cs : List Char) :
    normalizeLineEnds (attributesChars attributes ++ '>' :: cs) = attributesChars
      (attributes.map fun pair => (pair.1, String.ofList (normalizeLineEnds pair.2.toList))) ++
      '>' :: normalizeLineEnds cs := by
  induction attributes with
  | nil => exact normalizeLineEnds_append (show '\r' ∉ ['>'] by decide) cs
  | cons pair attributes ih =>
    rw [List.forall_mem_cons] at hn
    have name : '\r' ∉ ' ' :: pair.1.toList := fun hm => by
      rcases List.mem_cons.mp hm with h | h
      · exact absurd h (by decide)
      · exact feed_not_mem_of_isTagWord hn.1 h
    have split (pair : String × String) (attributes : List (String × String)) (cs : List Char) :
        attributesChars (pair :: attributes) ++ cs =
          (' ' :: pair.1.toList) ++ (valueChars pair.2 ++ (attributesChars attributes ++ cs)) := by
      simp [attributesChars]
    rw [List.map_cons, split, split, normalizeLineEnds_append name, normalizeLineEnds_value, ih hn.2]

theorem normalizeLineEnds_writeStartTag {e : Element} (he : e.isWhole) (cs : List Char) :
    normalizeLineEnds ((writeStartTag e).toList ++ cs) =
      (writeStartTag e.withFeeds).toList ++ normalizeLineEnds cs := by
  obtain ⟨ht, hn⟩ := Element.isWhole_iff.mp he
  have name : '\r' ∉ '<' :: e.tag.toList := fun hm => by
    rcases List.mem_cons.mp hm with h | h
    · exact absurd h (by decide)
    · exact feed_not_mem_of_isTagWord (isTagName_iff.mp ht).2 h
  have split (e : Element) (cs : List Char) : (writeStartTag e).toList ++ cs =
      ('<' :: e.tag.toList) ++ (attributesChars e.attributes ++ '>' :: cs) := by
    rw [toList_writeStartTag]
    simp
  rw [split, split, normalizeLineEnds_append name, normalizeLineEnds_attributes hn]
  rfl

namespace InPieces

/-- A piece without carriage returns stays as it is where line ends are read as line feeds. -/
theorem normalizeLineEnds (h : InPieces P cs) : InPieces P (normalizeLineEnds cs) := by
  have kept {before after : String} {name : String} (hb : '\r' ∉ before.toList) (hn : '\r' ∉ name.toList)
      (ha : '\r' ∉ after.toList) : '\r' ∉ (before ++ name ++ after).toList := by
    simp [hb, hn, ha]
  induction h with
  | nil => exact .nil
  | @char c cs hc h ih =>
    by_cases hr : c = '\r'
    · by_cases hf : ∃ rest, cs = '\n' :: rest
      · -- The line feed that follows stands for both.
        obtain ⟨rest, rfl⟩ := hf
        rw [← List.singleton_append, normalizeLineEnds_append (by decide)] at ih
        rw [hr]
        exact ih
      · rw [hr, normalizeLineEnds_return fun rest e => hf ⟨rest, e⟩]
        exact .char (by decide) ih
    · rw [← List.singleton_append, normalizeLineEnds_append (by simpa using Ne.symm hr)]
      exact .char hc ih
  | @bracket c cs hc h ih =>
    obtain ⟨rest, e⟩ := normalizeLineEnds_head c cs
    rw [← List.singleton_append, normalizeLineEnds_append (by decide)]
    rw [e] at ih ⊢
    refine .bracket ?_ ih
    split
    · rfl
    · exact hc
  | startTag he hp h ih =>
    rw [normalizeLineEnds_writeStartTag he]
    exact .startTag (Element.isWhole_withFeeds.trans he) hp ih
  | endTag ht h ih =>
    rw [normalizeLineEnds_append (kept (by decide) (feed_not_mem_of_isTagWord (isTagName_iff.mp ht).2) (by decide))]
    exact .endTag ht ih
  | comment hc h ih =>
    rw [normalizeLineEnds_append (kept (by decide) (feed_not_mem_of_isWholeComment hc) (by decide))]
    exact .comment hc ih
  | doctype hn h ih =>
    rw [normalizeLineEnds_append
      (kept (by decide) (feed_not_mem_of_isTagWord (Bool.and_eq_true_iff.mp hn).2) (by decide))]
    exact .doctype hn ih

theorem dropByteOrderMark (h : InPieces P cs) : InPieces P (dropByteOrderMark cs) := by
  rw [LivePages.dropByteOrderMark.eq_def]
  split
  next rest => exact h.tail rfl (by decide)
  next => exact h

end InPieces

end LivePages
