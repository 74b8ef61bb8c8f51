import LivePages.Html.BodyContent
import LivePages.Proofs.Html.Decoding
import LivePages.Proofs.Html.Openings
import LivePages.Proofs.Html.Unambiguous

namespace LivePages

/-- A character that a name in a tag goes on with. -/
def staysInName (c : Char) : Bool :=
  !endsTagName [c] && c != '='

/-- A character of a name that is read as it is. -/
def isReadNameChar (c : Char) : Bool :=
  !endsTagName [c] && c != '=' && nameChar c == c

/-- A name that the reader of tags takes as it is. -/
def isReadName (name : String) : Bool :=
  !name.isEmpty && name.toList.all isReadNameChar

/-- A text without the character that is replaced wherever it is read. -/
def isReadText (text : String) : Bool :=
  !text.toList.contains '\x00'

/-- A name that ends where it is written to end. -/
def isNameWord (name : String) : Bool :=
  !name.isEmpty && name.toList.all staysInName

/-- A name as the reader of tags takes it. -/
def readName (name : String) : String :=
  String.ofList (name.toList.map nameChar)

/-- The start tag of an element as it is read. -/
def Element.readTag (e : Element) : Tag :=
  ⟨readName e.tag, e.attributes.map fun pair => (readName pair.1, pair.2), false⟩

/-- The names of a tag as a vocabulary spells them. -/
def Vocabulary.adjust : Vocabulary → Tag → Tag
  | html, tag => tag
  | svg, tag => Builder.adjustSvg tag
  | mathml, tag => Builder.adjustMathml tag

/-- An element of a vocabulary whose start tag is read as it is written. -/
structure Element.ReadableAs (v : Vocabulary) (e : Element) : Prop where
  letter : e.tag.toList.head?.any isAsciiLetter
  tag : isNameWord e.tag
  names : ∀ pair ∈ e.attributes, isNameWord pair.1
  values : ∀ pair ∈ e.attributes, isReadText pair.2
  distinct : (e.readTag.attributes.map Prod.fst).Nodup
  spelled : v.adjust e.readTag = ⟨e.tag, e.attributes, false⟩

instance (v : Vocabulary) (e : Element) : Decidable (e.ReadableAs v) :=
  decidable_of_iff (e.tag.toList.head?.any isAsciiLetter ∧ isNameWord e.tag ∧
      (∀ pair ∈ e.attributes, isNameWord pair.1) ∧ (∀ pair ∈ e.attributes, isReadText pair.2) ∧
      (e.readTag.attributes.map Prod.fst).Nodup ∧ v.adjust e.readTag = ⟨e.tag, e.attributes, false⟩)
    ⟨fun ⟨l, t, n, v, d, s⟩ => ⟨l, t, n, v, d, s⟩, fun ⟨l, t, n, v, d, s⟩ => ⟨l, t, n, v, d, s⟩⟩

theorem isReadNameChar_iff {c : Char} : isReadNameChar c ↔
    isHtmlSpace c = false ∧ c ≠ '/' ∧ c ≠ '>' ∧ c ≠ '=' ∧ nameChar c = c := by
  simp [isReadNameChar, endsTagName, and_assoc]

theorem staysInName_iff {c : Char} :
    staysInName c ↔ isHtmlSpace c = false ∧ c ≠ '/' ∧ c ≠ '>' ∧ c ≠ '=' := by
  simp [staysInName, endsTagName, and_assoc]

theorem map_nameChar_of_isReadNameChar {cs : List Char} (h : ∀ c ∈ cs, isReadNameChar c) :
    cs.map nameChar = cs :=
  (List.map_congr_left fun c hc => (isReadNameChar_iff.mp (h c hc)).2.2.2.2).trans (List.map_id cs)

theorem toLower_of_isReadNameChar {c : Char} (h : isReadNameChar c) : c.toLower = c := by
  obtain ⟨-, -, -, -, hn⟩ := isReadNameChar_iff.mp h
  rw [nameChar, replaceNull] at hn
  split at hn
  next he =>
    rw [← hn] at he
    exact absurd he (by decide)
  next => exact hn

theorem exists_of_isNameWord {name : String} (h : isNameWord name) :
    ∃ c ws, name.toList = c :: ws ∧ staysInName c ∧ ∀ a ∈ ws, staysInName a := by
  rw [isNameWord, Bool.and_eq_true, List.all_eq_true] at h
  cases hw : name.toList with
  | nil =>
    rw [String.toList_inj.mp (hw.trans String.toList_empty.symm)] at h
    cases h.1
  | cons c ws =>
    rw [hw, List.forall_mem_cons] at h
    exact ⟨c, ws, rfl, h.2⟩

/-- A name is read as it is if it ends where it is written to end, and has no letters to change. -/
theorem isReadName_iff {name : String} : isReadName name ↔ isNameWord name ∧ readName name = name := by
  have same : readName name = name ↔ ∀ c ∈ name.toList, nameChar c = c := by
    rw [readName, ← String.toList_inj, String.toList_ofList]
    exact ⟨fun h => List.map_inj_left.mp (h.trans (List.map_id _).symm), fun h =>
      (List.map_congr_left h).trans (List.map_id _)⟩
  rw [same]
  simp only [isReadName, isNameWord, isReadNameChar, staysInName, Bool.and_eq_true, List.all_eq_true,
    beq_iff_eq, and_assoc]
  exact ⟨fun h => ⟨h.1, fun c hc => ⟨(h.2 c hc).1, (h.2 c hc).2.1⟩, fun c hc => (h.2 c hc).2.2⟩,
    fun h => ⟨h.1, fun c hc => ⟨(h.2.1 c hc).1, (h.2.1 c hc).2, h.2.2 c hc⟩⟩⟩

namespace Element.ReadableAs

variable {e : Element}

theorem readTag_eq (h : e.ReadableAs .html) : e.readTag = ⟨e.tag, e.attributes, false⟩ :=
  h.spelled

theorem readName_eq (h : e.ReadableAs .html) : readName e.tag = e.tag :=
  congrArg Tag.name h.spelled

theorem isReadName (h : e.ReadableAs .html) : isReadName e.tag :=
  isReadName_iff.mpr ⟨h.tag, h.readName_eq⟩

theorem nodup {v : Vocabulary} (h : e.ReadableAs v) : (e.attributes.map Prod.fst).Nodup := by
  have distinct := h.distinct
  rw [readTag, List.map_map] at distinct
  refine List.Nodup.of_map readName ?_
  rwa [List.map_map]

end Element.ReadableAs

theorem replaceNull_of_ne {c : Char} (h : c ≠ '\x00') : replaceNull c = c :=
  if_neg h

theorem map_replaceNull {cs : List Char} (h : '\x00' ∉ cs) : cs.map replaceNull = cs :=
  (List.map_congr_left fun _ hc => replaceNull_of_ne fun e => h (e ▸ hc)).trans (List.map_id cs)

theorem isReadText_iff {text : String} : isReadText text ↔ '\x00' ∉ text.toList := by
  simp [isReadText]

/-! Tags. -/

section Tags

variable {d : TagDraft} {ws cs : List Char}

theorem lexTag_nameChars (h : ∀ c ∈ ws, staysInName c) :
    lexTag .name d (ws ++ cs) = lexTag .name { d with name := (ws.map nameChar).reverse ++ d.name } cs := by
  induction ws generalizing d with
  | nil => rfl
  | cons c ws ih =>
    rw [List.forall_mem_cons] at h
    obtain ⟨hs, hd, hb, -⟩ := staysInName_iff.mp h.1
    rw [List.cons_append, lexTag, hs, if_neg Bool.false_ne_true, if_neg hd, if_neg hb, ih h.2,
      List.map_cons, List.reverse_cons, List.append_assoc]
    rfl

theorem lexTag_attributeNameChars (h : ∀ c ∈ ws, staysInName c) :
    lexTag .attributeName d (ws ++ cs) =
      lexTag .attributeName { d with attributeName := (ws.map nameChar).reverse ++ d.attributeName } cs := by
  induction ws generalizing d with
  | nil => rfl
  | cons c ws ih =>
    rw [List.forall_mem_cons] at h
    obtain ⟨hs, hd, hb, he⟩ := staysInName_iff.mp h.1
    rw [List.cons_append, lexTag, hs, if_neg Bool.false_ne_true, if_neg hd, if_neg he, if_neg hb, ih h.2,
      List.map_cons, List.reverse_cons, List.append_assoc]
    rfl

theorem lexTag_quotedValue (hq : '"' ∉ ws) : lexTag (.quotedValue '"') d (ws ++ '"' :: cs) =
    lexTag .afterQuoted { d with attributeValue := (ws.map replaceNull).reverse ++ d.attributeValue } cs := by
  induction ws generalizing d with
  | nil =>
    rw [List.nil_append, lexTag, if_pos rfl]
    rfl
  | cons c ws ih =>
    rw [List.mem_cons, not_or] at hq
    rw [List.cons_append, lexTag, if_neg (Ne.symm hq.1), ih hq.2, List.map_cons, List.reverse_cons,
      List.append_assoc]
    rfl

/-- Where the reader of a tag is when a name or a value has been read to its end. -/
def TagPart.isBetween : TagPart → Bool
  | .name => true
  | .attributeName => true
  | .afterQuoted => true
  | _ => false

theorem lexTag_space {part : TagPart} (hp : part.isBetween) {c : Char} (hc : staysInName c) :
    lexTag part d (' ' :: c :: cs) = lexTag .attributeName (d.startAttribute c) cs := by
  obtain ⟨hs, hd, hb, he⟩ := staysInName_iff.mp hc
  have space : isHtmlSpace ' ' := rfl
  cases part with
  | name => simp only [lexTag, space, hs, if_true, if_neg hd, if_neg hb, Bool.false_eq_true, if_false]
  | attributeName =>
    simp only [lexTag, space, hs, if_true, if_neg hd, if_neg he, if_neg hb, Bool.false_eq_true, if_false]
  | afterQuoted =>
    simp only [lexTag, space, hs, if_true, if_neg hd, if_neg hb, Bool.false_eq_true, if_false]
  | _ => cases hp

theorem lexTag_bracket {part : TagPart} (hp : part.isBetween) :
    lexTag part d ('>' :: cs) = some (d.finish false, cs) := by
  cases part with
  | name => rfl
  | attributeName => rfl
  | afterQuoted => rfl
  | _ => cases hp

theorem finishAttribute_fresh {name value : String}
    (hn : d.attributeName.reverse = name.toList) (hne : name ≠ "")
    (hv : decodeReferences true d.attributeValue.reverse = value.toList)
    (hf : d.attributes.lookup name = none) :
    d.finishAttribute.attributes = d.attributes ++ [(name, value)] := by
  have he : d.attributeName.isEmpty = false := by
    rw [List.isEmpty_eq_false_iff]
    rintro e
    rw [e] at hn
    exact hne (String.toList_inj.mp hn.symm)
  rw [TagDraft.finishAttribute, hn, hv, String.ofList_toList, String.ofList_toList, he, hf]
  rfl

/-- An attribute is read and added to those before it. -/
theorem lexTag_attribute {part : TagPart} (hp : part.isBetween) {name value : String}
    (hn : isNameWord name) (hv : isReadText value)
    (hf : d.finishAttribute.attributes.lookup (readName name) = none) (cs : List Char) :
    ∃ part' d', part'.isBetween ∧ d'.name = d.name ∧
      d'.finishAttribute.attributes = d.finishAttribute.attributes ++ [(readName name, value)] ∧
      lexTag part d (' ' :: (name.toList ++ (valueChars value ++ cs))) = lexTag part' d' cs := by
  obtain ⟨c, ws, hw, hc, hws⟩ := exists_of_isNameWord hn
  have hne : readName name ≠ "" := fun e => by
    rw [readName, hw, ← String.toList_eq_nil_iff, String.toList_ofList] at e
    cases e
  -- The draft after the name, with an empty value.
  let named : TagDraft := { d.startAttribute c with attributeName := (ws.map nameChar).reverse ++ [nameChar c] }
  have hnamed : named.attributeName.reverse = (readName name).toList := by
    simp [named, readName, hw]
  have read (cs : List Char) : lexTag part d (' ' :: (name.toList ++ cs)) =
      lexTag .attributeName named cs := by
    rw [hw, List.cons_append, lexTag_space hp hc, lexTag_attributeNameChars hws]
    rfl
  rw [read, valueChars]
  split
  next hempty =>
    have hvalue : value = "" := String.isEmpty_iff.mp hempty
    refine ⟨.attributeName, named, rfl, rfl, ?_, rfl⟩
    exact finishAttribute_fresh hnamed hne (by rw [hvalue]; rfl) hf
  next =>
    refine ⟨.afterQuoted, { named with attributeValue := (escapeAttribute value).toList.reverse }, rfl, rfl,
      ?_, ?_⟩
    · refine finishAttribute_fresh hnamed hne ?_ hf
      rw [List.reverse_reverse]
      exact decodeReferences_escapeAttribute value
    · have null := not_mem_escapeAttribute (by decide) (isReadText_iff.mp hv)
      have opened (cs : List Char) : lexTag .attributeName named ('=' :: '"' :: cs) =
          lexTag (.quotedValue '"') named cs := rfl
      rw [List.cons_append, List.cons_append, List.append_assoc, List.singleton_append, opened,
        lexTag_quotedValue (quote_not_mem_escapeAttribute value), map_replaceNull null]
      dsimp only [TagDraft.startAttribute, TagDraft.finishAttribute, named]
      rw [List.append_nil]

theorem lexTag_attributes {attributes : List (String × String)} {part : TagPart}
    (hp : part.isBetween) (hn : ∀ pair ∈ attributes, isNameWord pair.1)
    (hv : ∀ pair ∈ attributes, isReadText pair.2)
    (hd : ((d.finishAttribute.attributes ++ attributes.map fun pair => (readName pair.1, pair.2)).map
      Prod.fst).Nodup) :
    lexTag part d (attributesChars attributes ++ '>' :: cs) = some (⟨String.ofList d.name.reverse,
      d.finishAttribute.attributes ++ attributes.map fun pair => (readName pair.1, pair.2), false⟩, cs) := by
  induction attributes generalizing part d with
  | nil =>
    rw [attributesChars, List.flatMap_nil, List.nil_append, lexTag_bracket hp, List.map_nil, List.append_nil]
    rfl
  | cons pair attributes ih =>
    rw [List.forall_mem_cons] at hn hv
    rw [List.map_cons] at hd
    have fresh : d.finishAttribute.attributes.lookup (readName pair.1) = none := by
      rw [List.map_append, List.map_cons, List.nodup_append] at hd
      rw [List.lookup_eq_none_iff]
      intro old ho
      rw [bne_iff_ne]
      exact fun e => hd.2.2 old.1 (List.mem_map_of_mem ho) _ List.mem_cons_self e.symm
    obtain ⟨part', d', hp', hname, hd', read⟩ :=
      lexTag_attribute hp hn.1 hv.1 fresh (attributesChars attributes ++ '>' :: cs)
    have split : attributesChars (pair :: attributes) ++ '>' :: cs = ' ' ::
        (pair.1.toList ++ (valueChars pair.2 ++ (attributesChars attributes ++ '>' :: cs))) := by
      simp [attributesChars]
    rw [split, read, ih hp' hn.2 hv.2 (by rwa [hd', List.append_assoc]), hname, hd',
      List.append_assoc, List.map_cons]
    rfl

end Tags

theorem finishAttribute_named (name : List Char) :
    (TagDraft.finishAttribute { name }).attributes = [] :=
  rfl

theorem lexTag_startTag {e : Element} (ht : isNameWord e.tag)
    (hn : ∀ pair ∈ e.attributes, isNameWord pair.1) (hv : ∀ pair ∈ e.attributes, isReadText pair.2)
    (hd : (e.readTag.attributes.map Prod.fst).Nodup) (cs : List Char) :
    lexTag .name {} (e.tag.toList ++ (attributesChars e.attributes ++ '>' :: cs)) = some (e.readTag, cs) := by
  obtain ⟨c, ws, hw, hc, hws⟩ := exists_of_isNameWord ht
  have chars : ∀ a ∈ e.tag.toList, staysInName a := by
    rw [hw, List.forall_mem_cons]
    exact ⟨hc, hws⟩
  rw [lexTag_nameChars chars, lexTag_attributes rfl hn hv (by rwa [finishAttribute_named])]
  simp [finishAttribute_named, Element.readTag, readName]

theorem exists_letter {name : String} (h : name.toList.head?.any isAsciiLetter) :
    ∃ c ws, name.toList = c :: ws ∧ isAsciiLetter c := by
  cases hn : name.toList with
  | nil =>
    rw [hn] at h
    cases h
  | cons c ws =>
    rw [hn] at h
    exact ⟨c, ws, rfl, h⟩

theorem lexBracket_letter {c : Char} (hc : isAsciiLetter c) (cdata : Bool) (cs : List Char) :
    lexBracket cdata (c :: cs) = ofTag .startTag (lexTag .name {} (c :: cs)) := by
  have ne {d : Char} (hd : isAsciiLetter d = false) : c ≠ d := by
    rintro rfl
    rw [hc] at hd
    cases hd
  rw [lexBracket, if_pos hc]
  · exact ne rfl
  · exact ne rfl
  · exact ne rfl

theorem lexEndTag_letter {c : Char} (hc : isAsciiLetter c) (cs : List Char) :
    lexEndTag (c :: cs) = ofTag .endTag (lexTag .name {} (c :: cs)) := by
  rw [lexEndTag, if_pos hc]
  rintro rfl
  cases hc

theorem lexMarkup_startTag {v : Vocabulary} {e : Element} (h : e.ReadableAs v) (cdata : Bool)
    (cs : List Char) : lexMarkup cdata ((writeStartTag e).toList ++ cs) = ([.startTag e.readTag], cs) := by
  have shape : (writeStartTag e).toList ++ cs =
      '<' :: (e.tag.toList ++ (attributesChars e.attributes ++ '>' :: cs)) := by
    rw [toList_writeStartTag]
    simp
  have read := lexTag_startTag h.tag h.names h.values h.distinct cs
  obtain ⟨c, ws, hw, hc⟩ := exists_letter h.letter
  rw [hw, List.cons_append] at read
  rw [shape, lexMarkup, hw, List.cons_append, lexBracket_letter hc, read]
  rfl

theorem lexTag_bare {name : String} (hn : isNameWord name) (cs : List Char) :
    lexTag .name {} (name.toList ++ '>' :: cs) = some (⟨readName name, [], false⟩, cs) := by
  let bare : Element := ⟨name, []⟩
  have none : ∀ pair ∈ bare.attributes, False := fun _ => List.not_mem_nil
  have named : isNameWord bare.tag := hn
  exact lexTag_startTag named (fun _ h => (none _ h).elim) (fun _ h => (none _ h).elim) .nil cs

theorem lexMarkup_endTag {tag : String} (hl : tag.toList.head?.any isAsciiLetter) (hn : isNameWord tag)
    (cdata : Bool) (cs : List Char) :
    lexMarkup cdata (("</" ++ tag ++ ">").toList ++ cs) = ([.endTag ⟨readName tag, [], false⟩], cs) := by
  have shape : ("</" ++ tag ++ ">").toList ++ cs = '<' :: '/' :: (tag.toList ++ '>' :: cs) := by
    simp
  have read := lexTag_bare hn cs
  obtain ⟨c, ws, hw, hc⟩ := exists_letter hl
  rw [hw, List.cons_append] at read
  rw [shape, lexMarkup, lexBracket, hw, List.cons_append, lexEndTag_letter hc, read]
  rfl

/-! Comments. -/

/-- A comment that is read as it is written: nothing in it ends it. -/
def isReadComment (content : String) : Bool :=
  let cs := content.toList
  isReadText content && !decide ("-->".toList <:+: cs) && !decide ("--!>".toList <:+: cs) &&
    !decide (">".toList <+: cs) && !decide ("->".toList <+: cs)

/-- What has been read of what may be the end of a comment. -/
def CommentPart.pending : CommentPart → List Char
  | start => []
  | startDash => ['-']
  | body => []
  | dash => ['-']
  | twoDashes => ['-', '-']
  | bang => ['-', '-', '!']

/-- Nothing ends a comment before the text given. -/
structure CommentPart.Open (part : CommentPart) (cs : List Char) : Prop where
  dashes : ¬ ['-', '-', '>'] <:+: part.pending ++ cs
  bang : ¬ ['-', '-', '!', '>'] <:+: part.pending ++ cs
  start : part = .start → ¬ ['>'] <+: cs ∧ ¬ ['-', '>'] <+: cs
  startDash : part = .startDash → ¬ ['>'] <+: cs
  null : '\x00' ∉ cs

theorem CommentPart.Open.next {part part' : CommentPart} {c : Char} {cs : List Char}
    (h : part.Open (c :: cs)) (hs : part'.pending ++ cs <:+ part.pending ++ c :: cs)
    (h₁ : part' ≠ .start) (h₂ : part' = .startDash → ¬ ['>'] <+: cs) : part'.Open cs where
  dashes hi := h.dashes (hi.trans hs.isInfix)
  bang hi := h.bang (hi.trans hs.isInfix)
  start e := absurd e h₁
  startDash := h₂
  null hm := h.null (List.mem_cons_of_mem c hm)

/-- A character that does not end a comment is read or held back, and the rest still does not
end it. -/
theorem lexComment_cons {part : CommentPart} {content cs : List Char} {c : Char}
    (h : part.Open (c :: cs)) (rest : List Char) :
    ∃ part' content', CommentPart.Open part' cs ∧
      lexComment part content (c :: rest) = lexComment part' content' rest ∧
      part'.pending.reverse ++ content' = c :: (part.pending.reverse ++ content) := by
  have hnull : replaceNull c = c := replaceNull_of_ne fun e => h.null (e ▸ List.mem_cons_self)
  have body : CommentPart.body.Open cs :=
    h.next ⟨part.pending ++ [c], by simp [CommentPart.pending]⟩ (by simp) (by simp)
  cases part with
  | start =>
    rw [lexComment, hnull]
    split_ifs with dash bracket
    · subst dash
      have open' : CommentPart.startDash.Open cs :=
        h.next (List.suffix_refl _) (by simp) fun _ ends =>
          (h.start rfl).2 ((List.prefix_cons_inj '-').mpr ends)
      exact ⟨_, _, open', rfl, rfl⟩
    · exact absurd ⟨cs, by rw [bracket]; rfl⟩ (h.start rfl).1
    · exact ⟨_, _, body, rfl, rfl⟩
  | startDash =>
    rw [lexComment, hnull]
    split_ifs with dash bracket
    · subst dash
      exact ⟨.twoDashes, _, h.next (List.suffix_refl _) (by simp) (by simp), rfl, rfl⟩
    · exact absurd ⟨cs, by rw [bracket]; rfl⟩ (h.startDash rfl)
    · exact ⟨_, _, body, rfl, rfl⟩
  | body =>
    rw [lexComment, hnull]
    split_ifs with dash
    · subst dash
      exact ⟨.dash, _, h.next (List.suffix_refl _) (by simp) (by simp), rfl, rfl⟩
    · exact ⟨_, _, body, rfl, rfl⟩
  | dash =>
    rw [lexComment, hnull]
    split_ifs with dash
    · subst dash
      exact ⟨.twoDashes, _, h.next (List.suffix_refl _) (by simp) (by simp), rfl, rfl⟩
    · exact ⟨_, _, body, rfl, rfl⟩
  | twoDashes =>
    rw [lexComment, hnull]
    split_ifs with bracket bang dash
    · exact absurd ⟨[], cs, by rw [bracket]; rfl⟩ h.dashes
    · subst bang
      exact ⟨.bang, _, h.next (List.suffix_refl _) (by simp) (by simp), rfl, rfl⟩
    · subst dash
      exact ⟨.twoDashes, _, h.next (List.suffix_cons _ _) (by simp) (by simp), rfl, rfl⟩
    · exact ⟨_, _, body, rfl, rfl⟩
  | bang =>
    rw [lexComment, hnull]
    split_ifs with dash bracket
    · subst dash
      have later : ['-'] ++ cs <:+ ['-', '-', '!'] ++ '-' :: cs := List.suffix_append _ _
      exact ⟨.dash, _, h.next later (by simp) (by simp), rfl, rfl⟩
    · exact absurd ⟨[], cs, by rw [bracket]; rfl⟩ h.bang
    · exact ⟨_, _, body, rfl, rfl⟩

theorem lexComment_open {part : CommentPart} {content cs : List Char} (h : part.Open cs)
    (rest : List Char) : lexComment part content (cs ++ '-' :: '-' :: '>' :: rest) =
      ((part.pending ++ cs).reverse ++ content, rest) := by
  induction cs generalizing part content with
  | nil => cases part <;> rfl
  | cons c cs ih =>
    obtain ⟨part', content', open', step, kept⟩ := lexComment_cons h (cs ++ '-' :: '-' :: '>' :: rest)
    rw [List.cons_append, step, ih open', List.reverse_append, List.append_assoc, kept]
    simp

theorem open_of_isReadComment {content : String} (h : isReadComment content) :
    CommentPart.start.Open content.toList := by
  simp only [isReadComment, Bool.and_eq_true, Bool.not_eq_true', decide_eq_false_iff_not] at h
  obtain ⟨⟨⟨⟨text, dashes⟩, bang⟩, bracket⟩, dash⟩ := h
  exact ⟨dashes, bang, fun _ => ⟨bracket, dash⟩, nofun, isReadText_iff.mp text⟩

theorem lexMarkup_comment {content : String} (h : isReadComment content) (cdata : Bool)
    (cs : List Char) :
    lexMarkup cdata (("<!--" ++ content ++ "-->").toList ++ cs) = ([.comment content], cs) := by
  have shape : ("<!--" ++ content ++ "-->").toList ++ cs =
      '<' :: '!' :: '-' :: '-' :: (content.toList ++ '-' :: '-' :: '>' :: cs) := by
    simp
  have opened (cs : List Char) : afterText? "--".toList ('-' :: '-' :: cs) = some cs :=
    afterText?_append ['-', '-'] cs
  rw [shape, lexMarkup, lexBracket]
  simp only [lexDeclaration, opened, lexComment_open (open_of_isReadComment h)]
  simp [CommentPart.pending]

/-! Document type declarations. -/

theorem afterWord?_append {ws : List Char} (h : ∀ w ∈ ws, w.toLower = w) (cs : List Char) :
    afterWord? ws (ws ++ cs) = some cs := by
  induction ws with
  | nil => rfl
  | cons w ws ih =>
    rw [List.forall_mem_cons] at h
    rw [List.cons_append, afterWord?, if_pos h.1, ih h.2]

theorem lexDoctype_name {name : String} (h : isReadName name) (cs : List Char) :
    Doctype.lex (' ' :: (name.toList ++ '>' :: cs)) = (⟨some name, none, none, false⟩, cs) := by
  have all : ∀ c ∈ name.toList, isReadNameChar c := by
    rw [isReadName, Bool.and_eq_true, List.all_eq_true] at h
    exact h.2
  have kept : (name.toList ++ '>' :: cs).takeWhile (fun c => !isHtmlSpace c && c != '>') = name.toList := by
    rw [List.takeWhile_append_of_pos fun c hc => ?_]
    · simp
    · obtain ⟨hs, -, hb, -⟩ := isReadNameChar_iff.mp (all c hc)
      simp [hs, hb]
  have spelled : name.toList.map nameChar = name.toList := map_nameChar_of_isReadNameChar all
  obtain ⟨c, ws, hw, -, -⟩ := exists_of_isNameWord (isReadName_iff.mp h).1
  have hc := all c (hw ▸ List.mem_cons_self)
  obtain ⟨hs, -, hb, -⟩ := isReadNameChar_iff.mp hc
  have skipped : skipHtmlSpace (' ' :: (name.toList ++ '>' :: cs)) = c :: (ws ++ '>' :: cs) := by
    rw [hw, List.cons_append, skipHtmlSpace, List.dropWhile_cons_of_pos rfl,
      List.dropWhile_cons_of_neg (by rw [hs]; exact Bool.false_ne_true)]
  have whole : c :: (ws ++ '>' :: cs) = name.toList ++ '>' :: cs := by
    rw [hw, List.cons_append]
  simp only [Doctype.lex, skipped]
  split
  next e => cases e
  next rest e => exact absurd (List.cons.inj e).1 hb
  next =>
    rw [whole, kept, spelled, String.ofList_toList, List.drop_left]
    rfl

theorem lexMarkup_doctype {name : String} (h : isReadName name) (cdata : Bool) (cs : List Char) :
    lexMarkup cdata (("<!DOCTYPE " ++ name ++ ">").toList ++ cs) =
      ([.doctype ⟨some name, none, none, false⟩], cs) := by
  have shape : ("<!DOCTYPE " ++ name ++ ">").toList ++ cs =
      '<' :: '!' :: ("DOCTYPE".toList ++ ' ' :: (name.toList ++ '>' :: cs)) := by
    simp
  have other (cs : List Char) : afterText? "--".toList ("DOCTYPE".toList ++ cs) = none :=
    afterText?_eq_none (by decide) cs
  have word (cs : List Char) : afterWord? "doctype".toList ("DOCTYPE".toList ++ cs) = some cs := by
    have d : "doctype".toList = ['d', 'o', 'c', 't', 'y', 'p', 'e'] := by decide
    have D : "DOCTYPE".toList = ['D', 'O', 'C', 'T', 'Y', 'P', 'E'] := by decide
    rw [d, D]
    rfl
  rw [shape, lexMarkup, lexBracket]
  simp only [lexDeclaration, other, word, lexDoctype_name h]

/-! Text. -/

theorem runsBy_of_forall {κ : Type} [DecidableEq κ] {kind : Char → κ} {k : κ} {cs : List Char}
    (hne : cs ≠ []) (h : ∀ c ∈ cs, kind c = k) : runsBy kind cs = [(k, cs)] := by
  induction cs with
  | nil => exact absurd rfl hne
  | cons c cs ih =>
    rw [List.forall_mem_cons] at h
    by_cases hcs : cs = []
    · rw [hcs, runsBy, runsBy, h.1]
    · rw [runsBy, ih hcs h.2]
      exact if_pos h.1

theorem characterTokens_of_not_mem {decode : List Char → List Char} {cs : List Char} (hne : cs ≠ [])
    (h : '\x00' ∉ cs) : characterTokens decode cs = spaceTokens (decode cs) := by
  have hk : ∀ c ∈ cs, (c == '\x00') = false := fun c hc => beq_eq_false_iff_ne.mpr fun e => h (e ▸ hc)
  rw [characterTokens, runsBy_of_forall hne hk, List.flatMap_singleton]
  rfl

theorem escapeText_ne_nil {text : String} (h : text ≠ "") : (escapeText text).toList ≠ [] := by
  intro e
  have decoded := decodeReferences_escapeText text
  rw [e] at decoded
  exact h (String.toList_inj.mp decoded.symm)

/-- An escaped text up to a bracket is read as the text. -/
theorem lexMarkup_text {text : String} (hne : text ≠ "") (ht : isReadText text) (cdata : Bool)
    {cs : List Char} (hcs : cs.head?.all (· == '<')) :
    lexMarkup cdata ((escapeText text).toList ++ cs) = (spaceTokens text.toList, cs) := by
  have closed : '<' ∉ (escapeText text).toList := lt_not_mem_escapeText text
  have kept : ((escapeText text).toList ++ cs).takeWhile (· != '<') = (escapeText text).toList := by
    rw [List.takeWhile_append_of_pos fun c hc => bne_iff_ne.mpr fun e : c = '<' => closed (e ▸ hc)]
    cases cs with
    | nil => rw [List.takeWhile_nil, List.append_nil]
    | cons c cs => rw [List.takeWhile_cons_of_neg (by simpa using hcs), List.append_nil]
  have null := not_mem_escapeText (by decide) (isReadText_iff.mp ht)
  have hcs := escapeText_ne_nil hne
  obtain ⟨c, ws, hw⟩ := List.exists_cons_of_ne_nil hcs
  have read (l : List Char) (hl : l = (escapeText text).toList ++ cs) (hh : l.head? = some c) :
      lexMarkup cdata l = (spaceTokens text.toList, cs) := by
    rw [lexMarkup]
    · rw [hl, kept, List.drop_left, characterTokens_of_not_mem hcs null, decodeReferences_escapeText]
    · rintro ds rfl
      cases hh
      exact closed (hw ▸ List.mem_cons_self)
  exact read _ rfl (by rw [hw]; rfl)

/-! Elements whose content is not markup. -/

/-- A text has the beginning of an end tag of an element. -/
def hasEndTag (name : String) (cs : List Char) : Bool :=
  cs.tails.any fun suffix => (afterWord? ('<' :: '/' :: name.toList) suffix).isSome

/-- How a text is written in an element whose content is read in a model. -/
inductive IsContent : ContentModel → String → List Char → String → Prop where
  | raw {name text : String} (h : hasEndTag name text.toList = false) :
    IsContent .raw name text.toList text
  | script {text : String} (h : hasEndTag "script" text.toList = false)
    (hc : ¬ "<!--".toList <:+: text.toList) : IsContent .script "script" text.toList text
  | escapable (name text : String) : IsContent .escapable name (escapeText text).toList text

theorem afterWord?_before {ws cs rest : List Char} {d : Char} (hw : d.toLower ∉ ws)
    (h : (afterWord? ws (cs ++ d :: rest)).isSome) : (afterWord? ws cs).isSome := by
  induction ws generalizing cs with
  | nil => rfl
  | cons w ws ih =>
    rw [List.mem_cons, not_or] at hw
    cases cs with
    | nil =>
      rw [List.nil_append, afterWord?, if_neg hw.1] at h
      cases h
    | cons c cs =>
      rw [List.cons_append, afterWord?] at h
      rw [afterWord?]
      split at h
      next e =>
        rw [if_pos e]
        exact ih hw.2 h
      next => cases h

theorem prefix_of_afterText? {ws cs rest : List Char} (hw : '<' ∉ ws)
    (h : (afterText? ws (cs ++ '<' :: rest)).isSome) : ws <+: cs := by
  induction ws generalizing cs with
  | nil => exact List.nil_prefix
  | cons w ws ih =>
    rw [List.mem_cons, not_or] at hw
    cases cs with
    | nil =>
      rw [List.nil_append, afterText?, if_neg hw.1] at h
      cases h
    | cons c cs =>
      rw [List.cons_append, afterText?] at h
      split at h
      next e => exact e ▸ (List.prefix_cons_inj c).mpr (ih hw.2 h)
      next => cases h

theorem hasEndTag_cons (name : String) (c : Char) (cs : List Char) : hasEndTag name (c :: cs) =
    ((afterWord? ('<' :: '/' :: name.toList) (c :: cs)).isSome || hasEndTag name cs) := by
  rw [hasEndTag, List.tails_cons, List.any_cons, hasEndTag]

theorem hasEndTag_of_not_mem (name : String) {cs : List Char} (h : '<' ∉ cs) :
    hasEndTag name cs = false := by
  induction cs with
  | nil => rfl
  | cons c cs ih =>
    rw [List.mem_cons, not_or] at h
    have hc : c.toLower ≠ '<' := by
      rcases toLower_cases c with e | ⟨ha, -⟩
      · rw [e]
        exact Ne.symm h.1
      · rintro e
        rw [e] at ha
        exact absurd ha (by decide)
    rw [hasEndTag_cons, afterWord?, if_neg hc, ih h.2]
    rfl

/-- No end tag of the element begins in the text before a character that its name does not have. -/
theorem not_isEndTagOf {name : String} {d : Char} (hd : d ≠ '/') (hn : d.toLower ∉ name.toList)
    {cs : List Char} (h : hasEndTag name ('<' :: cs) = false) (rest : List Char) :
    isEndTagOf name (cs ++ d :: rest) = false := by
  rw [hasEndTag_cons, Bool.or_eq_false_iff] at h
  cases cs with
  | nil =>
    rw [List.nil_append, isEndTagOf]
    rintro ds ⟨⟩
    exact hd rfl
  | cons c cs =>
    by_cases hc : c = '/'
    · have none : afterWord? name.toList (cs ++ d :: rest) = none := by
        rw [← Option.not_isSome_iff_eq_none]
        intro hs
        have found := afterWord?_before hn hs
        rw [hc] at h
        exact absurd (h.1.symm.trans found) Bool.false_ne_true
      rw [hc, List.cons_append, isEndTagOf, none]
    · rw [List.cons_append, isEndTagOf]
      rintro ds ⟨⟩
      exact hc rfl

section Content

variable {name : String} (hn : isReadName name) (hb : '<' ∉ name.toList)
include hn hb

omit hb in
theorem isEndTagOf_written (rest : List Char) :
    isEndTagOf name ('/' :: (name.toList ++ '>' :: rest)) := by
  rw [isReadName, Bool.and_eq_true, List.all_eq_true] at hn
  rw [isEndTagOf, afterWord?_append fun c hc => toLower_of_isReadNameChar (hn.2 c hc)]
  rfl

theorem splitAtEndTag_append {cs : List Char} (h : hasEndTag name cs = false) (rest : List Char) :
    splitAtEndTag name (cs ++ '<' :: '/' :: (name.toList ++ '>' :: rest)) =
      (cs, '<' :: '/' :: (name.toList ++ '>' :: rest)) := by
  induction cs with
  | nil =>
    rw [List.nil_append, splitAtEndTag, isEndTagOf_written hn]
    rfl
  | cons c cs ih =>
    have ht : hasEndTag name cs = false := by
      rw [hasEndTag_cons, Bool.or_eq_false_iff] at h
      exact h.2
    rw [List.cons_append, splitAtEndTag, ih ht, if_neg]
    rw [Bool.and_eq_true, decide_eq_true_iff]
    rintro ⟨rfl, he⟩
    rw [not_isEndTagOf (d := '<') (by decide) hb h] at he
    cases he

end Content

theorem splitScript_append {cs : List Char} (h : hasEndTag "script" cs = false)
    (hc : ¬ "<!--".toList <:+: cs) (rest : List Char) :
    splitScript .code (cs ++ '<' :: '/' :: ("script".toList ++ '>' :: rest)) =
      (cs, '<' :: '/' :: ("script".toList ++ '>' :: rest)) := by
  induction cs with
  | nil =>
    rw [List.nil_append, splitScript, isEndTagOf_written (by decide)]
    rfl
  | cons c cs ih =>
    have ht : hasEndTag "script" cs = false := by
      rw [hasEndTag_cons, Bool.or_eq_false_iff] at h
      exact h.2
    have stay (rest : List Char) : ScriptPart.code.after c (cs ++ '<' :: rest) = .code := by
      rw [ScriptPart.after, if_neg]
      rw [Bool.and_eq_true, decide_eq_true_iff]
      rintro ⟨rfl, hs⟩
      obtain ⟨r, hr⟩ := prefix_of_afterText? (by decide) hs
      exact hc ⟨[], r, by rw [← hr]; rfl⟩
    rw [List.cons_append, splitScript, stay, ih ht fun hi => hc (hi.trans (List.suffix_cons c cs).isInfix),
      if_neg]
    rw [Bool.and_eq_true, Bool.and_eq_true, decide_eq_true_iff]
    rintro ⟨⟨rfl, -⟩, he⟩
    rw [not_isEndTagOf (d := '<') (by decide) (by decide) h] at he
    cases he

/-- The content of an element is read up to its end tag. -/
theorem lexTokens_content {model : ContentModel} {name text : String} {cs : List Char}
    (h : IsContent model name cs text) (hn : isReadName name) (hb : '<' ∉ name.toList)
    (hne : text ≠ "") (ht : isReadText text) (cdata : Bool) (rest : List Char) :
    lexTokens model name cdata (cs ++ '<' :: '/' :: (name.toList ++ '>' :: rest)) =
      (spaceTokens text.toList, '<' :: '/' :: (name.toList ++ '>' :: rest)) := by
  have some (decode : List Char → List Char) {cs : List Char} (hcs : cs ≠ []) (rest : List Char) :
      textOrEndTag decode (cs, rest) = (spaceTokens (decode (cs.map replaceNull)), rest) := by
    rw [textOrEndTag]
    exact fun ds e => absurd e hcs
  have null := isReadText_iff.mp ht
  have hcs : text.toList ≠ [] := fun e => hne (String.toList_inj.mp e)
  cases h with
  | raw h => rw [lexTokens, splitAtEndTag_append hn hb h, some _ hcs, map_replaceNull null, id]
  | script h hc => rw [lexTokens, splitScript_append h hc, some _ hcs, map_replaceNull null, id]
  | escapable =>
    have null := not_mem_escapeText (by decide) null
    rw [lexTokens, splitAtEndTag_append hn hb (hasEndTag_of_not_mem name (lt_not_mem_escapeText text)),
      some _ (escapeText_ne_nil hne), map_replaceNull null, decodeReferences_escapeText]

/-- Where no content is left the end tag is read. -/
theorem lexTokens_contentEnd {model : ContentModel} {name text : String} {cs : List Char}
    (h : IsContent model name cs text) (hl : name.toList.head?.any isAsciiLetter) (hn : isReadName name)
    (hb : '<' ∉ name.toList) (cdata : Bool) (rest : List Char) :
    lexTokens model name cdata ('<' :: '/' :: (name.toList ++ '>' :: rest)) =
      ([.endTag ⟨name, [], false⟩], rest) := by
  have read : ofTag .endTag (lexTag .name {} (name.toList ++ '>' :: rest)) =
      ([.endTag ⟨name, [], false⟩], rest) := by
    rw [lexTag_bare (isReadName_iff.mp hn).1, (isReadName_iff.mp hn).2]
    rfl
  have split := splitAtEndTag_append hn hb (hasEndTag_of_not_mem name List.not_mem_nil) rest
  have none : hasEndTag "script" [] = false := rfl
  have splitCode := splitScript_append none (by decide) rest
  rw [List.nil_append] at split splitCode
  cases h with
  | raw => rw [lexTokens, split, textOrEndTag, read]
  | script => rw [lexTokens, splitCode, textOrEndTag, read]
  | escapable => rw [lexTokens, split, textOrEndTag, read]

end LivePages
