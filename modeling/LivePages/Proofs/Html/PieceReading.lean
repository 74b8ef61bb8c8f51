import LivePages.Proofs.Html.Pieces

namespace LivePages

variable {P : String → Prop} {cs more : List Char} {name : String}

/-! End tags. -/

theorem suffix_append_cases {as bs cs : List Char} (h : as <:+ bs ++ cs) :
    as <:+ cs ∨ ∃ s, s <:+ bs ∧ as = s ++ cs := by
  induction bs with
  | nil => exact .inl h
  | cons b bs ih =>
    rcases List.suffix_cons_iff.mp h with rfl | h
    · exact .inr ⟨b :: bs, List.suffix_refl _, rfl⟩
    · refine (ih h).imp_right fun ⟨s, hs, e⟩ => ⟨s, hs.trans (List.suffix_cons b bs), e⟩

theorem suffix_of_not_mem {body : List Char} (hb : '<' ∉ body) (h : '<' :: more <:+ body ++ cs) :
    '<' :: more <:+ cs := by
  refine (suffix_append_cases h).elim id fun ⟨s, hs, e⟩ => ?_
  cases s with
  | nil => exact e ▸ List.suffix_refl _
  | cons a s =>
    rw [List.cons_append, List.cons.injEq] at e
    exact absurd (hs.mem (e.1 ▸ List.mem_cons_self)) hb

/-- A piece with one bracket, which stands first. -/
theorem suffix_of_piece {body : List Char} (hb : '<' ∉ body) (h : '<' :: more <:+ '<' :: body ++ cs) :
    more = body ++ cs ∨ '<' :: more <:+ cs :=
  (List.suffix_cons_iff.mp h).imp List.tail_eq_of_cons_eq (suffix_of_not_mem hb)

theorem isEndTagOf_of_ne {c : Char} (hc : c ≠ '/') (name : String) (cs : List Char) :
    isEndTagOf name (c :: cs) = false := by
  rw [isEndTagOf]
  rintro ds ⟨⟩
  exact hc rfl

theorem hasEndTag_of_suffix {as : List Char} (hs : as <:+ cs) (h : hasEndTag name cs = false) :
    hasEndTag name as = false := by
  rw [hasEndTag, List.any_eq_false] at h ⊢
  exact fun s hm => h s ((List.mem_tails ..).mpr (((List.mem_tails ..).mp hm).trans hs))

theorem lt_not_mem_attributesChars {attributes : List (String × String)}
    (hn : ∀ pair ∈ attributes, isTagWord pair.1) : '<' ∉ attributesChars attributes := by
  rw [attributesChars, List.mem_flatMap]
  rintro ⟨pair, hp, hm⟩
  rcases List.mem_cons.mp hm with h | hm
  · exact absurd h (by decide)
  · exact (List.mem_append.mp hm).elim (lt_not_mem_of_isTagWord (hn pair hp))
      (lt_not_mem_valueChars pair.2)

theorem isWholeComment_iff {content : String} : isWholeComment content ↔
    isReadComment content ∧ '\r' ∉ content.toList ∧
      ∀ name ∈ textTags, hasEndTag name content.toList = false := by
  simp [isWholeComment, and_assoc]

/-- What looks like the end tag of an element that may hold text is one. -/
theorem InPieces.endTag_of_suffix (h : InPieces P cs) (hs : '<' :: more <:+ cs) (hn : name ∈ textTags)
    (he : isEndTagOf name more) : ∃ tag rest, isTagName tag ∧ InPieces P rest ∧
      '<' :: more = ("</" ++ tag ++ ">").toList ++ rest := by
  have other {c : Char} {body : List Char} (hc : c ≠ '/') (e : more = c :: body) : False := by
    rw [e, isEndTagOf_of_ne hc] at he
    cases he
  induction h with
  | nil => exact absurd (List.suffix_nil.mp hs) (List.cons_ne_nil _ _)
  | char hc _ ih =>
    rcases List.suffix_cons_iff.mp hs with e | hs
    · exact absurd (List.head_eq_of_cons_eq e).symm hc
    · exact ih hs
  | bracket hc _ ih =>
    rcases List.suffix_cons_iff.mp hs with e | hs
    · refine (other ?_ (List.tail_eq_of_cons_eq e)).elim
      rintro rfl
      exact absurd hc (by decide)
    · exact ih hs
  | @startTag e cs he' hp h ih =>
    obtain ⟨ht, ha⟩ := Element.isWhole_iff.mp he'
    obtain ⟨⟨c, ws, hw, hc⟩, hword⟩ := isTagName_iff.mp ht
    have body : '<' ∉ e.tag.toList ++ (attributesChars e.attributes ++ ['>']) := by
      simpa using ⟨lt_not_mem_of_isTagWord hword, lt_not_mem_attributesChars ha⟩
    rw [toList_writeStartTag] at hs
    rcases suffix_of_piece body hs with e' | hs
    · rw [hw] at e'
      refine (other ?_ e').elim
      rintro rfl
      exact absurd hc (by decide)
    · exact ih hs
  | @endTag tag cs ht h ih =>
    have body : '<' ∉ '/' :: (tag.toList ++ ['>']) := by
      simpa using lt_not_mem_of_isTagWord (isTagName_iff.mp ht).2
    rw [toList_endTag] at hs
    rcases suffix_of_piece body hs with e | hs
    · exact ⟨tag, cs, ht, h, by rw [e, toList_endTag]; rfl⟩
    · exact ih hs
  | @comment content cs hc h ih =>
    obtain ⟨-, -, ends⟩ := isWholeComment_iff.mp hc
    have dash : ∀ name ∈ textTags, '-' ∉ name.toList := by decide
    rw [toList_comment] at hs
    rcases List.suffix_cons_iff.mp hs with e | hs
    · exact (other (by decide) (List.tail_eq_of_cons_eq e)).elim
    · have hs : '<' :: more <:+ ['!', '-', '-'] ++ (content.toList ++ ('-' :: '-' :: '>' :: cs)) := by
        simpa using hs
      rcases suffix_append_cases (suffix_of_not_mem (by decide) hs) with hs | ⟨s, inside, e⟩
      · exact ih (suffix_of_not_mem (show '<' ∉ ['-', '-', '>'] by decide) hs)
      · cases s with
        | nil => cases e
        | cons a s =>
          rw [List.cons_append, List.cons.injEq] at e
          obtain ⟨rfl, rfl⟩ := e
          have none := not_isEndTagOf (d := '-') (by decide) (dash name hn)
            (hasEndTag_of_suffix inside (ends name hn)) ('-' :: '>' :: cs)
          exact absurd (none.symm.trans he) Bool.false_ne_true
  | @doctype name' cs hn' h ih =>
    have body : '<' ∉ '!' :: ("DOCTYPE ".toList ++ (name'.toList ++ ['>'])) := by
      have := lt_not_mem_of_isTagWord (Bool.and_eq_true_iff.mp hn').2
      simpa using this
    rw [toList_doctype] at hs
    rcases suffix_of_piece body hs with e | hs
    · exact (other (by decide) e).elim
    · exact ih hs

/-! Tokens. -/

theorem lexMarkup_character {c : Char} (hc : c ≠ '<') (cdata : Bool) (cs : List Char) :
    lexMarkup cdata (c :: cs) =
      (characterTokens (decodeReferences false) ((c :: cs).takeWhile (· != '<')),
        (c :: cs).dropWhile (· != '<')) := by
  have rest (cs : List Char) : cs.drop (cs.takeWhile (· != '<')).length = cs.dropWhile (· != '<') := by
    conv_lhs => enter [2]; rw [← List.takeWhile_append_dropWhile (p := (· != '<')) (l := cs)]
    exact List.drop_left
  rw [lexMarkup]
  · rw [rest]
  · rintro ds ⟨⟩
    exact hc rfl

theorem lexMarkup_inert {c : Char} (hc : isInert c) (cdata : Bool) (cs : List Char) :
    lexMarkup cdata ('<' :: c :: cs) = ([.text "<"], c :: cs) := by
  simp only [isInert, Bool.and_eq_true, Bool.not_eq_true', bne_iff_ne] at hc
  obtain ⟨⟨⟨letter, slash⟩, bang⟩, question⟩ := hc
  rw [lexMarkup, lexBracket, letter, if_neg Bool.false_ne_true]
  · exact bang
  · exact slash
  · exact question

theorem lexTag_wholeEnd {tag : String} (ht : isTagName tag) (cs : List Char) :
    ∃ found, lexTag .name {} (tag.toList ++ '>' :: cs) = some (found, cs) := by
  obtain ⟨found, -, read⟩ := lexTag_whole ht (List.forall_mem_nil fun pair : String × String => isTagWord pair.1) cs
  exact ⟨found, read⟩

theorem lexMarkup_wholeEndTag {tag : String} (ht : isTagName tag) (cdata : Bool) (cs : List Char) :
    ∃ found, lexMarkup cdata (("</" ++ tag ++ ">").toList ++ cs) = ([.endTag found], cs) := by
  obtain ⟨⟨c, ws, hw, hc⟩, -⟩ := isTagName_iff.mp ht
  obtain ⟨found, read⟩ := lexTag_wholeEnd ht cs
  have shape : ("</" ++ tag ++ ">").toList ++ cs = '<' :: '/' :: (tag.toList ++ '>' :: cs) := by
    simp
  rw [hw, List.cons_append] at read shape
  exact ⟨found, by rw [shape, lexMarkup, lexBracket, lexEndTag_letter hc, read]; rfl⟩

namespace InPieces

theorem lexMarkup (h : InPieces P cs) (cdata : Bool) : InPieces P (lexMarkup cdata cs).2 ∧
    ∀ tag, .startTag tag ∈ (LivePages.lexMarkup cdata cs).1 → P tag.name := by
  have whole := h
  cases h with
  | nil => exact ⟨.nil, fun _ hm => absurd hm (startTag_not_mem_characterTokens _ _ _)⟩
  | @char c cs hc h =>
    rw [lexMarkup_character hc]
    exact ⟨whole.dropWhile, fun _ hm => absurd hm (startTag_not_mem_characterTokens _ _ _)⟩
  | @bracket c cs hc h =>
    rw [lexMarkup_inert hc]
    exact ⟨h, fun _ hm => by cases List.mem_singleton.mp hm⟩
  | @startTag e cs he hp h =>
    obtain ⟨ht, hn⟩ := Element.isWhole_iff.mp he
    obtain ⟨⟨c, ws, hw, hc⟩, -⟩ := isTagName_iff.mp ht
    obtain ⟨tag, name, read⟩ := lexTag_whole ht hn cs
    have shape : (writeStartTag e).toList ++ cs =
        '<' :: (e.tag.toList ++ (attributesChars e.attributes ++ '>' :: cs)) := by
      rw [toList_writeStartTag]
      simp
    rw [hw, List.cons_append] at read shape
    rw [shape, LivePages.lexMarkup, lexBracket_letter hc, read]
    refine ⟨h, fun tag' hm => ?_⟩
    cases List.mem_singleton.mp hm
    rwa [name]
  | @endTag tag cs ht h =>
    obtain ⟨found, read⟩ := lexMarkup_wholeEndTag ht cdata cs
    rw [read]
    exact ⟨h, fun _ hm => by cases List.mem_singleton.mp hm⟩
  | @comment content cs hc h =>
    rw [lexMarkup_comment (isWholeComment_iff.mp hc).1]
    exact ⟨h, fun _ hm => by cases List.mem_singleton.mp hm⟩
  | @doctype name cs hn h =>
    rw [lexMarkup_doctype (Bool.and_eq_true_iff.mp hn).1]
    exact ⟨h, fun _ hm => by cases List.mem_singleton.mp hm⟩

/-- What is read as text ends where a whole end tag stands, and that tag is read as a whole. -/
theorem textOrEndTag (h : InPieces P cs) (hn : name ∈ textTags) {split : List Char × List Char}
    (hs : split.2 <:+ cs) (he : split.2 = [] ∨ ∃ more, split.2 = '<' :: more ∧ isEndTagOf name more)
    (decode : List Char → List Char) : InPieces P (textOrEndTag decode split).2 := by
  obtain ⟨text, rest⟩ := split
  rcases he with rfl | ⟨more, rfl, he⟩
  · cases text with
    | nil => exact .nil
    | cons c text => exact .nil
  · obtain ⟨tag, after, ht, ha, e⟩ := h.endTag_of_suffix hs hn he
    rw [e]
    cases text with
    | cons c text => exact .endTag ht ha
    | nil =>
      obtain ⟨found, read⟩ := lexTag_wholeEnd ht after
      have shape : ("</" ++ tag ++ ">").toList ++ after = '<' :: '/' :: (tag.toList ++ '>' :: after) := by
        simp
      rw [shape, LivePages.textOrEndTag, read]
      exact ha

end InPieces

theorem splitAtEndTag_rest (name : String) (cs : List Char) : (splitAtEndTag name cs).2 = [] ∨
    ∃ more, (splitAtEndTag name cs).2 = '<' :: more ∧ isEndTagOf name more := by
  induction cs with
  | nil => exact .inl rfl
  | cons c cs ih =>
    rw [splitAtEndTag]
    split
    next h =>
      rw [Bool.and_eq_true, decide_eq_true_iff] at h
      exact .inr ⟨cs, by rw [h.1], h.2⟩
    next => exact ih

theorem splitScript_rest (part : ScriptPart) (cs : List Char) : (splitScript part cs).2 = [] ∨
    ∃ more, (splitScript part cs).2 = '<' :: more ∧ isEndTagOf "script" more := by
  induction cs generalizing part with
  | nil => exact .inl rfl
  | cons c cs ih =>
    rw [splitScript]
    split
    next h =>
      simp only [Bool.and_eq_true, decide_eq_true_iff] at h
      exact .inr ⟨cs, by rw [h.1.1], h.2⟩
    next => exact ih _

/-- Whatever is read first of a text in pieces, the rest is in pieces. -/
theorem yields_inPieces : Yields P (InPieces P) where
  rest {model element cs} he h cdata := by
    cases model with
    | markup => exact (h.lexMarkup cdata).1
    | plain => exact .nil
    | script => exact h.textOrEndTag (by decide) (splitScript_suffix _ _) (splitScript_rest _ _) _
    | _ =>
      have text : element ∈ textTags := by simpa using he
      exact h.textOrEndTag text (splitAtEndTag_suffix _ _) (splitAtEndTag_rest _ _) _
  startTags h cdata := (h.lexMarkup cdata).2

namespace Tree

variable {t : Tree} {p id : NodeId}

/-- What a node writes itself is a whole piece, or text in which no markup begins. -/
def isWhole (t : Tree) (id : NodeId) : Bool :=
  match t.data? id with
  | some (.element e) => e.isWhole
  | some (.text content) => !(t.parent? id).any t.isRaw || isInertText content.toList
  | some (.comment content) => isWholeComment content
  | some (.doctype name _ _) => isWholeDoctype name
  | some (.instruction _ _) => false
  | _ => true

theorem inPieces_chars {data : NodeData} {raw : Bool} {inner : Bool → List Char}
    (hd : t.data? id = some data) (hw : t.isWhole id) (hp : ∀ e, t.element? id = some e → P (readName e.tag))
    (hr : raw → (t.parent? id).any t.isRaw) (hi : InPieces P (inner (t.isRaw id))) :
    InPieces P (data.chars raw inner) := by
  rw [isWhole, hd] at hw
  cases data with
  | document =>
    rw [isRaw, tag?, element?, hd] at hi
    exact hi
  | element e =>
    have he : t.element? id = some e := by rw [element?, hd]; rfl
    have hraw : t.isRaw id = rawTextTags.contains e.tag := by rw [isRaw, tag?, he]; rfl
    have start : InPieces P (writeStartTag e).toList := by
      rw [← List.append_nil (writeStartTag e).toList]
      exact .startTag hw (hp e he) .nil
    rw [NodeData.chars]
    split
    · exact start
    · rw [← List.append_nil ("</" ++ e.tag ++ ">").toList]
      exact start.append ((hraw ▸ hi).append (.endTag (Element.isWhole_iff.mp hw).1 .nil))
  | text content =>
    rw [NodeData.chars]
    split
    next hraw =>
      dsimp only at hw
      rw [hr hraw] at hw
      exact .of_isInertText hw
    next => exact .of_not_mem (lt_not_mem_escapeText content)
  | comment content =>
    rw [NodeData.chars, ← List.append_nil ("<!--" ++ content ++ "-->").toList]
    exact .comment hw .nil
  | doctype name publicId systemId =>
    rw [NodeData.chars, ← List.append_nil ("<!DOCTYPE " ++ name ++ ">").toList]
    exact .doctype hw .nil
  | instruction target content => cases hw

/-- Markup of whole pieces is a text in pieces. -/
theorem WellFormed.inPieces_markup (h : t.WellFormed) (p : NodeId)
    (hu : ∀ id, t.Below p id → t.isWhole id ∧ ∀ e, t.element? id = some e → P (readName e.tag)) :
    InPieces P ((t.markup p).chars (t.isRaw p)) :=
  h.chars_markup .nil .append p fun id hb _ _ _ hd hr hi =>
    inPieces_chars hd (hu id hb).1 (hu id hb).2 hr hi

end Tree

end LivePages
