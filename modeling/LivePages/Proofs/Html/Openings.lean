import LivePages.Html.Lexer
import LivePages.Widget.Kind
import Mathlib.Data.List.Infix

namespace LivePages

/-- Whether a text is, or can be made to begin with, a name and the end of the name in a tag. -/
def canBegin : List Char → List Char → Bool
  | _, [] => true
  | [], c :: _ => endsTagName [c]
  | w :: ws, c :: cs => c.toLower == w && canBegin ws cs

/-- No start tag of a widget begins in a text, however the text goes on. -/
def isQuiet : List Char → Bool
  | [] => true
  | c :: cs => !(c == '<' && WidgetKind.tags.any fun tag => canBegin tag.toList cs) && isQuiet cs

/-- An element of the name has no start tag that could be one of a widget. -/
def isHarmless (name : String) : Bool :=
  WidgetKind.tags.all fun tag => !canBegin tag.toList (name.toList ++ [' '])

theorem isQuiet_cons {c : Char} {cs : List Char} : isQuiet (c :: cs) ↔
    (c = '<' → ∀ tag ∈ WidgetKind.tags, canBegin tag.toList cs = false) ∧ isQuiet cs := by
  rw [isQuiet, Bool.and_eq_true, Bool.not_eq_true', Bool.and_eq_false_imp, beq_iff_eq, List.any_eq_false]
  simp

theorem isQuiet_of_suffix {as bs : List Char} (h : as <:+ bs) (hb : isQuiet bs) : isQuiet as := by
  induction bs with
  | nil => rwa [List.suffix_nil.mp h]
  | cons b bs ih =>
    rcases List.suffix_cons_iff.mp h with rfl | h
    · exact hb
    · exact ih h (isQuiet_cons.mp hb).2

theorem canBegin_append {name cs : List Char} (ds : List Char) (h : canBegin name cs = false) :
    canBegin name (cs ++ ds) = false := by
  induction cs generalizing name with
  | nil => cases name <;> cases h
  | cons c cs ih =>
    cases name with
    | nil => exact h
    | cons w ws =>
      rw [canBegin, Bool.and_eq_false_imp] at h
      rw [List.cons_append, canBegin, Bool.and_eq_false_imp]
      exact fun hc => ih (h hc)

theorem isQuiet_append {as bs : List Char} (ha : isQuiet as) (hb : isQuiet bs) : isQuiet (as ++ bs) := by
  induction as with
  | nil => exact hb
  | cons a as ih =>
    rw [isQuiet_cons] at ha
    rw [List.cons_append, isQuiet_cons]
    exact ⟨fun hc tag ht => canBegin_append bs (ha.1 hc tag ht), ih ha.2⟩

theorem isQuiet_of_not_mem {cs : List Char} (h : '<' ∉ cs) : isQuiet cs := by
  induction cs with
  | nil => rfl
  | cons c cs ih =>
    rw [List.mem_cons, not_or] at h
    exact isQuiet_cons.mpr ⟨fun e => absurd e.symm h.1, ih h.2⟩

/-- All names of widgets begin with one letter. -/
theorem canBegin_of_ne {tag : String} (ht : tag ∈ WidgetKind.tags) {c : Char} (hc : c.toLower ≠ 'x')
    (cs : List Char) : canBegin tag.toList (c :: cs) = false := by
  have first : ∀ tag ∈ WidgetKind.tags, tag.toList.head? = some 'x' := by decide
  obtain ⟨ws, hw⟩ := List.head?_eq_some_iff.mp (first tag ht)
  rw [hw, canBegin, beq_eq_false_iff_ne.mpr hc, Bool.false_and]

/-- How a name ends does not matter, as long as it ends. -/
theorem canBegin_name {ws name : List Char} (hw : ∀ w ∈ ws, endsTagName [w] = false) {c d : Char}
    (hc : endsTagName [c]) (hd : endsTagName [d]) (cs ds : List Char) :
    canBegin ws (name ++ c :: cs) = canBegin ws (name ++ d :: ds) := by
  have lower {c : Char} (hc : endsTagName [c]) : c.toLower = c := by
    simp only [endsTagName, isHtmlSpace, Bool.or_eq_true, beq_iff_eq] at hc
    rcases hc with (((((rfl | rfl) | rfl) | rfl) | rfl) | rfl) | rfl <;> decide
  induction name generalizing ws with
  | nil =>
    cases ws with
    | nil => rw [List.nil_append, List.nil_append, canBegin, canBegin, hc, hd]
    | cons w ws =>
      have differs {c : Char} (hc : endsTagName [c]) : (c.toLower == w) = false := by
        rw [lower hc, beq_eq_false_iff_ne]
        rintro rfl
        rw [hw c List.mem_cons_self] at hc
        cases hc
      rw [List.nil_append, List.nil_append, canBegin, canBegin, differs hc, differs hd]
      rfl
  | cons a name ih =>
    cases ws with
    | nil => rfl
    | cons w ws =>
      rw [List.cons_append, List.cons_append, canBegin, canBegin,
        ih fun w hm => hw w (List.mem_cons_of_mem _ hm)]

theorem not_endsTagName_of_mem {tag : String} (ht : tag ∈ WidgetKind.tags) :
    ∀ w ∈ tag.toList, endsTagName [w] = false := by
  have all : ∀ tag ∈ WidgetKind.tags, tag.toList.all fun w => !endsTagName [w] := by decide
  intro w hw
  have h := List.all_eq_true.mp (all tag ht) w hw
  rwa [Bool.not_eq_true'] at h

theorem isHarmless_iff {name : String} {c : Char} (hc : endsTagName [c]) (cs : List Char) :
    isHarmless name ↔ ∀ tag ∈ WidgetKind.tags, canBegin tag.toList (name.toList ++ c :: cs) = false := by
  rw [isHarmless, List.all_eq_true]
  refine forall₂_congr fun tag ht => ?_
  rw [Bool.not_eq_true', canBegin_name (not_endsTagName_of_mem ht) (c := ' ') (d := c) (by decide) hc]

/-! Line ends. -/

theorem canBegin_normalizeLineEnds {name : List Char} (hn : ∀ w ∈ name, endsTagName [w] = false)
    (cs : List Char) : canBegin name (normalizeLineEnds cs) = canBegin name cs := by
  have ends : endsTagName ['\r'] = endsTagName ['\n'] := rfl
  -- Neither of the characters that change occurs in the name.
  have differs {c w : Char} {ws : List Char} (hw : ∀ v ∈ w :: ws, endsTagName [v] = false)
      (hc : c = '\r' ∨ c = '\n') : (c.toLower == w) = false := by
    rw [beq_eq_false_iff_ne]
    rintro rfl
    rcases hc with rfl | rfl <;> exact absurd (hw _ List.mem_cons_self) (by decide)
  fun_induction normalizeLineEnds cs generalizing name with
  | case1 => rfl
  | case2 rest ih =>
    cases name with
    | nil => exact ends.symm
    | cons w ws => rw [canBegin, canBegin, differs hn (.inr rfl), differs hn (.inl rfl)]; rfl
  | case3 rest hr ih =>
    cases name with
    | nil => exact ends.symm
    | cons w ws => rw [canBegin, canBegin, differs hn (.inr rfl), differs hn (.inl rfl)]; rfl
  | case4 c rest hr hc ih =>
    cases name with
    | nil => rfl
    | cons w ws => rw [canBegin, canBegin, ih fun v hv => hn v (List.mem_cons_of_mem _ hv)]

theorem isQuiet_normalizeLineEnds {cs : List Char} (h : isQuiet cs) : isQuiet (normalizeLineEnds cs) := by
  fun_induction normalizeLineEnds cs with
  | case1 => rfl
  | case2 rest ih =>
    exact isQuiet_cons.mpr ⟨fun e => absurd e (by decide), ih (isQuiet_cons.mp (isQuiet_cons.mp h).2).2⟩
  | case3 rest hr ih => exact isQuiet_cons.mpr ⟨fun e => absurd e (by decide), ih (isQuiet_cons.mp h).2⟩
  | case4 c rest hr hc ih =>
    rw [isQuiet_cons] at h
    refine isQuiet_cons.mpr ⟨fun e tag ht => ?_, ih h.2⟩
    rw [canBegin_normalizeLineEnds (not_endsTagName_of_mem ht)]
    exact h.1 e tag ht

theorem isQuiet_dropByteOrderMark {cs : List Char} (h : isQuiet cs) : isQuiet (dropByteOrderMark cs) := by
  rw [dropByteOrderMark.eq_def]
  split
  · exact (isQuiet_cons.mp h).2
  · exact h

/-! Letters of names. -/

theorem toLower_cases (c : Char) : c.toLower = c ∨ 'a' ≤ c.toLower ∧ c.toLower ≤ 'z' := by
  delta Char.toLower
  split
  next h =>
    right
    have hA : 65 ≤ c.val.toNat := UInt32.le_iff_toNat_le.mp h.1
    have hZ : c.val.toNat ≤ 90 := UInt32.le_iff_toNat_le.mp h.2
    have hn : (c.val + ('a'.val - 'A'.val)).toNat = c.val.toNat + 32 := by
      have hd : ('a'.val - 'A'.val).toNat = 32 := rfl
      rw [UInt32.toNat_add, hd]
      omega
    have ha : 'a'.val.toNat = 97 := rfl
    have hz : 'z'.val.toNat = 122 := rfl
    refine ⟨UInt32.le_iff_toNat_le.mpr ?_, UInt32.le_iff_toNat_le.mpr ?_⟩
    · rw [hn, ha]
      omega
    · rw [hn, hz]
      omega
  next => exact .inl rfl

theorem toLower_of_le {c : Char} (h : 'a' ≤ c) : c.toLower = c := by
  refine dif_neg ?_
  rintro ⟨-, hz⟩
  exact absurd (Char.le_trans h hz) (by decide)

theorem toLower_toLower (c : Char) : c.toLower.toLower = c.toLower := by
  rcases toLower_cases c with h | h
  · rw [h, h]
  · exact toLower_of_le h.1

theorem not_endsTagName_of_le {c : Char} (h : 'a' ≤ c) : endsTagName [c] = false := by
  rw [← Bool.not_eq_true]
  intro he
  simp only [endsTagName, isHtmlSpace, Bool.or_eq_true, beq_iff_eq] at he
  rcases he with (((((rfl | rfl) | rfl) | rfl) | rfl) | rfl) | rfl <;> exact absurd h (by decide)

theorem nameChar_spec {c : Char} (h : endsTagName [c] = false) :
    endsTagName [nameChar c] = false ∧ (nameChar c).toLower = nameChar c := by
  rw [nameChar, replaceNull]
  split
  next => decide
  next =>
    refine ⟨?_, toLower_toLower c⟩
    rcases toLower_cases c with e | ⟨ha, -⟩
    · rwa [e]
    · exact not_endsTagName_of_le ha

/-! What is left of a text after some tokens. -/

/-- A character ends a tag or is read on the way to its end. Only the name adds to the name. -/
theorem lexTag_cons (part : TagPart) (d : TagDraft) (c : Char) (cs : List Char) :
    (∃ closing, lexTag part d (c :: cs) = some (d.finish closing, cs)) ∨
    ∃ part' d', lexTag part d (c :: cs) = lexTag part' d' cs ∧
      (part ≠ .name → part' ≠ .name ∧ d'.name = d.name) := by
  cases part <;> simp only [lexTag] <;> split_ifs <;> first
    | exact .inl ⟨_, rfl⟩
    | exact .inr ⟨_, _, rfl, fun _ => ⟨nofun, rfl⟩⟩
    | exact .inr ⟨_, _, rfl, fun h => absurd rfl h⟩

theorem lexTag_suffix {part : TagPart} {d : TagDraft} {cs rest : List Char} {tag : Tag}
    (h : lexTag part d cs = some (tag, rest)) : rest <:+ cs := by
  induction cs generalizing part d with
  | nil => cases part <;> cases h
  | cons c cs ih =>
    rcases lexTag_cons part d c cs with ⟨closing, e⟩ | ⟨part', d', e, -⟩ <;> rw [e] at h
    · cases h
      exact List.suffix_cons _ _
    · exact (ih h).trans (List.suffix_cons c cs)

theorem lexTag_name_of_ne {part : TagPart} {d : TagDraft} {cs rest : List Char} {tag : Tag}
    (h : lexTag part d cs = some (tag, rest)) (hp : part ≠ .name) :
    tag.name = String.ofList d.name.reverse := by
  induction cs generalizing part d with
  | nil => cases part <;> cases h
  | cons c cs ih =>
    rcases lexTag_cons part d c cs with ⟨closing, e⟩ | ⟨part', d', e, hd⟩ <;> rw [e] at h
    · cases h
      rfl
    · rw [ih h (hd hp).1, (hd hp).2]

/-- The name of a tag goes up to the first character that can end it. -/
theorem lexTag_name {d : TagDraft} {cs rest : List Char} {tag : Tag}
    (h : lexTag .name d cs = some (tag, rest)) : ∃ name c more, cs = name ++ c :: more ∧
      endsTagName [c] ∧ (∀ a ∈ name, endsTagName [a] = false) ∧
      tag.name = String.ofList (d.name.reverse ++ name.map nameChar) := by
  induction cs generalizing d with
  | nil => cases h
  | cons c cs ih =>
    by_cases hc : endsTagName [c]
    · refine ⟨[], c, cs, rfl, hc, nofun, ?_⟩
      rw [List.map_nil, List.append_nil]
      simp only [lexTag] at h
      split_ifs at h with hs hd hb
      · exact lexTag_name_of_ne h nofun
      · exact lexTag_name_of_ne h nofun
      · cases h
        rfl
      · simp [endsTagName, hs, hd, hb] at hc
    · rw [Bool.not_eq_true] at hc
      obtain ⟨hs, hd, hb⟩ : isHtmlSpace c = false ∧ c ≠ '/' ∧ c ≠ '>' := by
        simpa [endsTagName, and_assoc] using hc
      simp only [lexTag, hs, if_neg hd, if_neg hb, Bool.false_eq_true, if_false] at h
      obtain ⟨name, e, more, rfl, he, hn, ht⟩ := ih h
      refine ⟨c :: name, e, more, rfl, he, List.forall_mem_cons.mpr ⟨hc, hn⟩, ?_⟩
      rw [ht, List.reverse_cons, List.append_assoc]
      rfl

theorem lexComment_suffix (part : CommentPart) (content cs : List Char) :
    (lexComment part content cs).2 <:+ cs := by
  induction cs generalizing part content with
  | nil => cases part <;> exact List.suffix_refl _
  | cons c cs ih =>
    cases part <;> simp only [lexComment] <;> split_ifs <;> first
      | exact (ih _ _).trans (List.suffix_cons c cs)
      | exact List.suffix_cons c cs

theorem skipPastBracket_suffix (cs : List Char) : skipPastBracket cs <:+ cs :=
  (List.drop_suffix 1 _).trans (List.dropWhile_suffix _)

theorem lexBogusComment_suffix (cs : List Char) : (lexBogusComment cs).2 <:+ cs :=
  skipPastBracket_suffix cs

theorem afterWord?_suffix {word cs rest : List Char} (h : afterWord? word cs = some rest) :
    rest <:+ cs := by
  induction word generalizing cs with
  | nil => cases h; exact List.suffix_refl _
  | cons w word ih =>
    cases cs with
    | nil => cases h
    | cons c cs =>
      rw [afterWord?] at h
      split at h
      next => exact (ih h).trans (List.suffix_cons c cs)
      next => cases h

theorem afterText?_suffix {word cs rest : List Char} (h : afterText? word cs = some rest) :
    rest <:+ cs := by
  induction word generalizing cs with
  | nil => cases h; exact List.suffix_refl _
  | cons w word ih =>
    cases cs with
    | nil => cases h
    | cons c cs =>
      rw [afterText?] at h
      split at h
      next => exact (ih h).trans (List.suffix_cons c cs)
      next => cases h

namespace Doctype

theorem abandon_suffix (d : Doctype) (force : Bool) (cs : List Char) : (d.abandon force cs).2 <:+ cs :=
  skipPastBracket_suffix cs

theorem lexQuoted_suffix (quote : Char) (cs : List Char) : (lexQuoted quote cs).2.2 <:+ cs := by
  have hd : ∀ n, cs.drop n <:+ cs := fun n => List.drop_suffix n cs
  rw [lexQuoted]
  split
  next => exact List.nil_suffix
  next c rest h =>
    have hc : c :: rest <:+ cs := h ▸ hd _
    split
    · exact (List.suffix_cons c rest).trans hc
    · exact hc

theorem lexEnd_suffix (d : Doctype) (cs : List Char) : (d.lexEnd cs).2 <:+ cs := by
  have hs := List.dropWhile_suffix isHtmlSpace (l := cs)
  rw [lexEnd, skipHtmlSpace]
  split
  next => exact (abandon_suffix ..).trans List.nil_suffix
  next c rest h => exact (abandon_suffix ..).trans (h ▸ hs)

theorem lexSystemId_suffix (d : Doctype) (quote : Char) (cs : List Char) :
    (d.lexSystemId quote cs).2 <:+ cs := by
  have hq := lexQuoted_suffix quote cs
  rw [lexSystemId]
  split
  next text rest h =>
    rw [h] at hq
    exact (abandon_suffix ..).trans hq
  next text _ rest h =>
    rw [h] at hq
    exact (lexEnd_suffix ..).trans hq

theorem lexBeforeSystemId_suffix (d : Doctype) (needed : Bool) (cs : List Char) :
    (d.lexBeforeSystemId needed cs).2 <:+ cs := by
  have hs := List.dropWhile_suffix isHtmlSpace (l := cs)
  rw [lexBeforeSystemId, skipHtmlSpace]
  split
  next => exact (abandon_suffix ..).trans List.nil_suffix
  next c rest h =>
    rw [h] at hs
    split_ifs
    · exact (lexSystemId_suffix ..).trans ((List.suffix_cons c rest).trans hs)
    · exact (abandon_suffix ..).trans hs
    · exact (abandon_suffix ..).trans hs

theorem lexPublicId_suffix (d : Doctype) (quote : Char) (cs : List Char) :
    (d.lexPublicId quote cs).2 <:+ cs := by
  have hq := lexQuoted_suffix quote cs
  rw [lexPublicId]
  split
  next text rest h =>
    rw [h] at hq
    exact (abandon_suffix ..).trans hq
  next text _ rest h =>
    rw [h] at hq
    exact (lexBeforeSystemId_suffix ..).trans hq

theorem lexBeforePublicId_suffix (d : Doctype) (cs : List Char) : (d.lexBeforePublicId cs).2 <:+ cs := by
  have hs := List.dropWhile_suffix isHtmlSpace (l := cs)
  rw [lexBeforePublicId, skipHtmlSpace]
  split
  next => exact (abandon_suffix ..).trans List.nil_suffix
  next c rest h =>
    rw [h] at hs
    split_ifs
    · exact (lexPublicId_suffix ..).trans ((List.suffix_cons c rest).trans hs)
    · exact (abandon_suffix ..).trans hs

theorem lexAfterName_suffix (d : Doctype) (cs : List Char) : (d.lexAfterName cs).2 <:+ cs := by
  have hs := List.dropWhile_suffix isHtmlSpace (l := cs)
  rw [lexAfterName, skipHtmlSpace]
  split
  next => exact (abandon_suffix ..).trans List.nil_suffix
  next rest h => exact (List.suffix_cons _ rest).trans (h ▸ hs)
  next =>
    refine List.IsSuffix.trans ?_ hs
    split
    next rest _ h => exact (lexBeforePublicId_suffix ..).trans (afterWord?_suffix h)
    next rest _ h => exact (lexBeforeSystemId_suffix ..).trans (afterWord?_suffix h)
    next => exact abandon_suffix ..

theorem lex_suffix (cs : List Char) : (lex cs).2 <:+ cs := by
  have hs := List.dropWhile_suffix isHtmlSpace (l := cs)
  rw [lex, skipHtmlSpace]
  split
  next => exact (abandon_suffix ..).trans List.nil_suffix
  next rest h => exact (List.suffix_cons _ rest).trans (h ▸ hs)
  next => exact (lexAfterName_suffix ..).trans ((List.drop_suffix ..).trans hs)

end Doctype

theorem splitAtEndTag_suffix (name : String) (cs : List Char) : (splitAtEndTag name cs).2 <:+ cs := by
  induction cs with
  | nil => exact List.suffix_refl _
  | cons c cs ih =>
    rw [splitAtEndTag]
    split
    · exact List.suffix_refl _
    · exact ih.trans (List.suffix_cons c cs)

theorem splitScript_suffix (part : ScriptPart) (cs : List Char) : (splitScript part cs).2 <:+ cs := by
  induction cs generalizing part with
  | nil => exact List.suffix_refl _
  | cons c cs ih =>
    rw [splitScript]
    split
    · exact List.suffix_refl _
    · exact (ih _).trans (List.suffix_cons c cs)

theorem splitCdata_suffix (cs : List Char) : (splitCdata cs).2 <:+ cs := by
  induction cs with
  | nil => exact List.suffix_refl _
  | cons c cs ih =>
    rw [splitCdata]
    split
    next rest h => exact afterText?_suffix h
    next => exact ih.trans (List.suffix_cons c cs)

/-! Tokens. -/

/-- A start tag among tokens is the only one, and stands in a text behind a bracket. -/
def StandIn (cs : List Char) (tokens : List Token) : Prop :=
  ∀ tag, .startTag tag ∈ tokens → tokens = [.startTag tag] ∧
    ∃ more rest, '<' :: more <:+ cs ∧ lexTag .name {} more = some (tag, rest)

theorem StandIn.of_not_mem {cs : List Char} {tokens : List Token}
    (h : ∀ tag, .startTag tag ∉ tokens) : StandIn cs tokens :=
  fun tag ht => absurd ht (h tag)

theorem startTag_not_mem_spaceTokens (cs : List Char) (tag : Tag) : .startTag tag ∉ spaceTokens cs := by
  intro h
  obtain ⟨⟨space, run⟩, -, h⟩ := List.mem_map.mp h
  dsimp only at h
  split at h <;> cases h

theorem startTag_not_mem_characterTokens (decode : List Char → List Char) (cs : List Char) (tag : Tag) :
    .startTag tag ∉ characterTokens decode cs := by
  intro h
  obtain ⟨⟨null, run⟩, -, h⟩ := List.mem_flatMap.mp h
  dsimp only at h
  split at h
  · obtain ⟨_, -, h⟩ := List.mem_map.mp h
    cases h
  · exact startTag_not_mem_spaceTokens _ _ h

theorem startTag_not_mem_endTag (found : Option (Tag × List Char)) (tag : Tag) :
    .startTag tag ∉ (ofTag .endTag found).1 := by
  intro h
  cases found with
  | none => cases h
  | some found => cases List.mem_singleton.mp h

theorem ofTag_suffix (wrap : Tag → Token) (cs : List Char) :
    (ofTag wrap (lexTag .name {} cs)).2 <:+ cs := by
  cases h : lexTag .name {} cs with
  | none => exact List.nil_suffix
  | some found => exact lexTag_suffix h

theorem lexDeclaration_spec (cdata : Bool) (cs : List Char) :
    (lexDeclaration cdata cs).2 <:+ cs ∧ ∀ tag, .startTag tag ∉ (lexDeclaration cdata cs).1 := by
  unfold lexDeclaration
  split
  next rest h =>
    exact ⟨(lexComment_suffix ..).trans (afterText?_suffix h), fun tag hm => by cases List.mem_singleton.mp hm⟩
  next =>
    split
    next rest h =>
      exact ⟨(Doctype.lex_suffix _).trans (afterWord?_suffix h), fun tag hm => by cases List.mem_singleton.mp hm⟩
    next =>
      split
      next rest _ h =>
        exact ⟨(splitCdata_suffix _).trans (afterText?_suffix h), startTag_not_mem_characterTokens _ _⟩
      next => exact ⟨lexBogusComment_suffix cs, fun tag hm => by cases List.mem_singleton.mp hm⟩

theorem lexEndTag_spec (cs : List Char) :
    (lexEndTag cs).2 <:+ cs ∧ ∀ tag, .startTag tag ∉ (lexEndTag cs).1 := by
  rw [lexEndTag.eq_def]
  split
  next => exact ⟨List.suffix_refl _, fun tag hm => by cases List.mem_singleton.mp hm⟩
  next rest => exact ⟨List.suffix_cons _ rest, fun tag hm => by cases hm⟩
  next c rest _ =>
    split
    · exact ⟨ofTag_suffix .endTag _, startTag_not_mem_endTag _⟩
    · exact ⟨lexBogusComment_suffix _, fun tag hm => by cases List.mem_singleton.mp hm⟩

theorem lexBracket_spec (cdata : Bool) (cs : List Char) :
    (lexBracket cdata cs).2 <:+ cs ∧ StandIn ('<' :: cs) (lexBracket cdata cs).1 := by
  rw [lexBracket.eq_def]
  split
  next rest =>
    obtain ⟨hs, ht⟩ := lexDeclaration_spec cdata rest
    exact ⟨hs.trans (List.suffix_cons _ _), .of_not_mem ht⟩
  next rest =>
    obtain ⟨hs, ht⟩ := lexEndTag_spec rest
    exact ⟨hs.trans (List.suffix_cons _ _), .of_not_mem ht⟩
  next rest => exact ⟨lexBogusComment_suffix _, .of_not_mem fun tag hm => by cases List.mem_singleton.mp hm⟩
  next c rest _ _ _ =>
    split
    · refine ⟨ofTag_suffix .startTag _, fun tag hm => ?_⟩
      cases h : lexTag .name {} (c :: rest) with
      | none =>
        rw [h] at hm
        cases hm
      | some found =>
        rw [h] at hm
        cases List.mem_singleton.mp hm
        exact ⟨rfl, _, found.2, List.suffix_refl _, h⟩
    · exact ⟨List.suffix_refl _, .of_not_mem fun tag hm => by cases List.mem_singleton.mp hm⟩
  next => exact ⟨List.suffix_refl _, .of_not_mem fun tag hm => by cases List.mem_singleton.mp hm⟩

theorem lexMarkup_spec (cdata : Bool) (cs : List Char) :
    (lexMarkup cdata cs).2 <:+ cs ∧ StandIn cs (lexMarkup cdata cs).1 := by
  rw [lexMarkup.eq_def]
  split
  next rest =>
    obtain ⟨hs, ht⟩ := lexBracket_spec cdata rest
    exact ⟨hs.trans (List.suffix_cons _ _), ht⟩
  next => exact ⟨List.drop_suffix _ _, .of_not_mem (startTag_not_mem_characterTokens _ _)⟩

theorem textOrEndTag_spec (decode : List Char → List Char) (split : List Char × List Char) :
    (textOrEndTag decode split).2 <:+ split.2 ∧ ∀ tag, .startTag tag ∉ (textOrEndTag decode split).1 := by
  rw [textOrEndTag.eq_def]
  split
  next rest =>
    exact ⟨(ofTag_suffix .endTag _).trans ((List.suffix_cons _ _).trans (List.suffix_cons _ _)),
      startTag_not_mem_endTag _⟩
  next => exact ⟨List.suffix_refl _, startTag_not_mem_spaceTokens _⟩

/-- Outside markup no start tag is read. -/
theorem startTag_not_mem_lexTokens {model : ContentModel} (h : model ≠ .markup) (element : String)
    (cdata : Bool) (cs : List Char) (tag : Tag) : .startTag tag ∉ (lexTokens model element cdata cs).1 := by
  cases model with
  | markup => exact absurd rfl h
  | plain => exact startTag_not_mem_spaceTokens _ tag
  | _ => exact (textOrEndTag_spec _ _).2 tag

/-- Reading goes on with what is left of a text, and its start tags are in the text. -/
theorem lexTokens_spec (model : ContentModel) (element : String) (cdata : Bool) (cs : List Char) :
    (lexTokens model element cdata cs).2 <:+ cs ∧ StandIn cs (lexTokens model element cdata cs).1 := by
  have text (decode : List Char → List Char) {split : List Char × List Char} (hs : split.2 <:+ cs) :
      (textOrEndTag decode split).2 <:+ cs ∧ StandIn cs (textOrEndTag decode split).1 :=
    have h := textOrEndTag_spec decode split
    ⟨h.1.trans hs, .of_not_mem h.2⟩
  cases model with
  | markup => exact lexMarkup_spec cdata cs
  | escapable => exact text _ (splitAtEndTag_suffix _ _)
  | raw => exact text _ (splitAtEndTag_suffix _ _)
  | script => exact text _ (splitScript_suffix _ _)
  | plain => exact ⟨List.nil_suffix, .of_not_mem (startTag_not_mem_spaceTokens _)⟩

/-! Names of tags. -/

theorem canBegin_map_nameChar {name : List Char} (hn : '\ufffd' ∉ name.map nameChar) {c : Char}
    (hc : endsTagName [c]) (cs : List Char) : canBegin (name.map nameChar) (name ++ c :: cs) := by
  induction name with
  | nil => exact hc
  | cons a name ih =>
    rw [List.map_cons, List.mem_cons, not_or] at hn
    have ha : nameChar a = a.toLower := by
      rw [nameChar, replaceNull] at hn ⊢
      split at hn
      · exact absurd rfl hn.1
      · next h => exact if_neg h
    rw [List.map_cons, List.cons_append, canBegin, ha, beq_self_eq_true, ih hn.2, Bool.and_self]

/-- Where no start tag of a widget begins, no start tag of a widget is read. -/
theorem not_widget_of_quiet {cs more rest : List Char} {tag : Tag} (hq : isQuiet cs)
    (hs : '<' :: more <:+ cs) (h : lexTag .name {} more = some (tag, rest)) :
    tag.name ∉ WidgetKind.tags := by
  intro ht
  obtain ⟨name, c, after, rfl, hc, -, hn⟩ := lexTag_name h
  have hl : tag.name.toList = name.map nameChar := by
    rw [hn, String.toList_ofList]
    rfl
  have plain : ∀ tag ∈ WidgetKind.tags, '\ufffd' ∉ tag.toList := by decide
  have hb := (isQuiet_cons.mp (isQuiet_of_suffix hs hq)).1 rfl tag.name ht
  rw [hl, canBegin_map_nameChar (hl ▸ plain _ ht) hc] at hb
  cases hb

theorem eq_of_canBegin {ws name : List Char} (hw : ∀ w ∈ ws, endsTagName [w] = false)
    (hn : ∀ a ∈ name, endsTagName [a] = false ∧ a.toLower = a) (h : canBegin ws (name ++ [' '])) :
    ws = name := by
  induction name generalizing ws with
  | nil =>
    cases ws with
    | nil => rfl
    | cons w ws =>
      rw [List.nil_append, canBegin, Bool.and_eq_true, beq_iff_eq] at h
      have hws := hw w List.mem_cons_self
      rw [← h.1] at hws
      exact absurd hws (by decide)
  | cons a name ih =>
    rw [List.forall_mem_cons] at hn
    cases ws with
    | nil =>
      rw [List.cons_append, canBegin, hn.1.1] at h
      cases h
    | cons w ws =>
      rw [List.forall_mem_cons] at hw
      rw [List.cons_append, canBegin, Bool.and_eq_true, beq_iff_eq, hn.1.2] at h
      rw [h.1, ih hw.2 hn.2 h.2]

/-- The name of a tag is a widget's or is not mistaken for a widget's. -/
theorem widget_or_harmless {cs rest : List Char} {tag : Tag}
    (h : lexTag .name {} cs = some (tag, rest)) :
    tag.name ∈ WidgetKind.tags ∨ isHarmless tag.name := by
  obtain ⟨name, c, after, rfl, -, hn, ht⟩ := lexTag_name h
  have hl : tag.name.toList = name.map nameChar := by
    rw [ht, String.toList_ofList]
    rfl
  refine or_iff_not_imp_left.mpr fun hw => List.all_eq_true.mpr fun widget hm => ?_
  rw [Bool.not_eq_true', ← Bool.not_eq_true]
  intro hb
  have letters : ∀ a ∈ tag.name.toList, endsTagName [a] = false ∧ a.toLower = a := by
    rw [hl]
    intro a ha
    obtain ⟨c, hc, rfl⟩ := List.mem_map.mp ha
    exact nameChar_spec (hn c hc)
  have e := eq_of_canBegin (not_endsTagName_of_mem hm) letters hb
  exact hw (String.toList_inj.mp e ▸ hm)

end LivePages
