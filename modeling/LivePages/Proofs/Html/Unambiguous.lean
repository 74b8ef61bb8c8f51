import LivePages.Proofs.Dom.Markup
import LivePages.Proofs.Dom.Planting
import LivePages.Proofs.Html.Escapes
import LivePages.Widget.Identity

namespace LivePages

/-- A name that starts with a small letter and goes on with small letters, digits and dashes. -/
def isOrdinaryName (name : String) : Bool :=
  match name.toList with
  | [] => false
  | c :: cs => ('a' ≤ c && c ≤ 'z') && cs.all isNameChar

structure Element.Ordinary (e : Element) : Prop where
  tag : isOrdinaryName e.tag
  attributes : ∀ pair ∈ e.attributes, isOrdinaryName pair.1

instance (e : Element) : Decidable e.Ordinary :=
  decidable_of_iff (isOrdinaryName e.tag ∧ ∀ pair ∈ e.attributes, isOrdinaryName pair.1)
    ⟨fun h => ⟨h.1, h.2⟩, fun h => ⟨h.tag, h.attributes⟩⟩

namespace Markup

def StartsWithText : Markup → Prop
  | node (.text _) _ _ => True
  | _ => False

/-- The content of a script or a style: one text at most, in which no end tag begins. -/
def IsCode : Markup → Prop
  | nil => True
  | node (.text code) nil nil => code ≠ "" ∧ ¬ "</".toList <:+: code.toList
  | _ => False

/-- Elements, texts and comments, the texts and comments without anything below them. Texts are not
empty and no two are neighbours, no comment ends before its end, elements that have no end tag have
no content, and of those whose text is not escaped there are scripts and styles only. -/
def Ordinary : Markup → Prop
  | nil => True
  | node data inner rest => rest.Ordinary ∧
    match data with
    | .element e => e.Ordinary ∧
      if e.tag ∈ voidTags then inner = nil
      else if e.tag ∈ rawTextTags then e.tag ∈ ["script", "style"] ∧ inner.IsCode
      else inner.Ordinary
    | .text content => content ≠ "" ∧ inner = nil ∧ ¬ rest.StartsWithText
    | .comment content => ¬ "-->".toList <:+: content.toList ∧ inner = nil
    | _ => False

instance : DecidablePred StartsWithText
  | nil => .isFalse id
  | node (.text _) _ _ => .isTrue trivial
  | node (.element _) _ _ | node (.comment _) _ _ | node .document _ _ | node (.doctype _ _ _) _ _
  | node (.instruction _ _) _ _ => .isFalse id

instance : DecidablePred IsCode
  | nil => .isTrue trivial
  | node (.text code) nil nil =>
    inferInstanceAs (Decidable (code ≠ "" ∧ ¬ "</".toList <:+: code.toList))
  | node (.text _) (node _ _ _) _ | node (.text _) nil (node _ _ _) | node (.element _) _ _
  | node (.comment _) _ _ | node .document _ _ | node (.doctype _ _ _) _ _
  | node (.instruction _ _) _ _ => .isFalse id

instance decidableOrdinary : (m : Markup) → Decidable m.Ordinary
  | nil => .isTrue trivial
  | node data inner rest =>
    have := decidableOrdinary inner
    have := decidableOrdinary rest
    match data with
    | .element e => inferInstanceAs (Decidable (rest.Ordinary ∧ e.Ordinary ∧
        if e.tag ∈ voidTags then inner = nil
        else if e.tag ∈ rawTextTags then e.tag ∈ ["script", "style"] ∧ inner.IsCode
        else inner.Ordinary))
    | .text content =>
      inferInstanceAs (Decidable (rest.Ordinary ∧ content ≠ "" ∧ inner = nil ∧ ¬ rest.StartsWithText))
    | .comment content => inferInstanceAs (Decidable
        (rest.Ordinary ∧ ¬ "-->".toList <:+: content.toList ∧ inner = nil))
    | .document | .doctype _ _ _ | .instruction _ _ => .isFalse And.right

end Markup

/-! Names and start tags. -/

theorem nameChars_of_ordinary {name : String} (h : isOrdinaryName name) :
    ∀ c ∈ name.toList, isNameChar c := by
  rw [isOrdinaryName] at h
  split at h
  next e => simp [e]
  next c cs e =>
    rw [e]
    simp only [Bool.and_eq_true, List.all_eq_true] at h
    simp only [List.mem_cons, forall_eq_or_imp, isNameChar]
    grind [isNameChar]

theorem head_of_ordinary {name : String} (h : isOrdinaryName name) :
    ∃ c cs, name.toList = c :: cs ∧ 'a' ≤ c := by
  rw [isOrdinaryName] at h
  split at h
  next => cases h
  next c cs e =>
    simp only [Bool.and_eq_true, decide_eq_true_eq] at h
    exact ⟨c, cs, e, h.1.1⟩

theorem eq_of_name {a b : String} {r s : List Char} (ha : isOrdinaryName a) (hb : isOrdinaryName b)
    (hr : r.takeWhile isNameChar = []) (hs : s.takeWhile isNameChar = [])
    (h : a.toList ++ r = b.toList ++ s) : a = b ∧ r = s := by
  obtain ⟨hab, hrs⟩ := eq_of_run (nameChars_of_ordinary ha) (nameChars_of_ordinary hb) hr hs h
  exact ⟨String.toList_inj.mp hab, hrs⟩

/-- What stands for the value of an attribute. -/
def valueChars (value : String) : List Char :=
  if value.isEmpty then [] else '=' :: '"' :: ((escapeAttribute value).toList ++ ['"'])

theorem toList_writeAttribute (pair : String × String) :
    (writeAttribute pair).toList = ' ' :: (pair.1.toList ++ valueChars pair.2) := by
  rw [writeAttribute, valueChars]
  split <;> simp

def attributesChars (attributes : List (String × String)) : List Char :=
  attributes.flatMap fun pair => ' ' :: (pair.1.toList ++ valueChars pair.2)

theorem toList_writeStartTag (e : Element) :
    (writeStartTag e).toList = '<' :: (e.tag.toList ++ (attributesChars e.attributes ++ ['>'])) := by
  rw [writeStartTag, attributesChars]
  simp [String.toList_join, List.flatMap_map, toList_writeAttribute]

/-- After an attribute there is a space or the end of the tag. -/
theorem attributesChars_ends (attributes : List (String × String)) (r : List Char) :
    ∃ c cs, attributesChars attributes ++ '>' :: r = c :: cs ∧ (c = ' ' ∨ c = '>') := by
  cases attributes with
  | nil => exact ⟨'>', r, rfl, .inr rfl⟩
  | cons pair rest => exact ⟨' ', _, rfl, .inl rfl⟩

theorem valueChars_injective {a b : String} {r s : List Char} {c d : Char} (hc : c ≠ '=')
    (hd : d ≠ '=') (h : valueChars a ++ c :: r = valueChars b ++ d :: s) :
    a = b ∧ c :: r = d :: s := by
  by_cases ha : a = "" <;> by_cases hb : b = "" <;> simp [valueChars, ha, hb] at h
  · exact ⟨ha.trans hb.symm, by rw [h.1, h.2]⟩
  · exact absurd h.1 hc
  · exact absurd h.1.symm hd
  · exact escapeAttribute_injective h

theorem attributesChars_injective {as bs : List (String × String)} {r s : List Char}
    (ha : ∀ pair ∈ as, isOrdinaryName pair.1) (hb : ∀ pair ∈ bs, isOrdinaryName pair.1)
    (h : attributesChars as ++ '>' :: r = attributesChars bs ++ '>' :: s) : as = bs ∧ r = s := by
  induction as generalizing bs with
  | nil =>
    cases bs with
    | nil => exact ⟨rfl, List.tail_eq_of_cons_eq h⟩
    | cons b bs => exact absurd (List.head_eq_of_cons_eq h) (by decide)
  | cons a as ih =>
    cases bs with
    | nil => exact absurd (List.head_eq_of_cons_eq h) (by decide)
    | cons b bs =>
      rw [List.forall_mem_cons] at ha hb
      obtain ⟨c, cs, hcs, hc⟩ := attributesChars_ends as r
      obtain ⟨d, ds, hds, hd⟩ := attributesChars_ends bs s
      have hv : a.1.toList ++ (valueChars a.2 ++ c :: cs) = b.1.toList ++ (valueChars b.2 ++ d :: ds) := by
        rw [← hcs, ← hds]
        simpa [attributesChars] using h
      have stop {value : String} {c : Char} {cs : List Char} (hc : c = ' ' ∨ c = '>') :
          (valueChars value ++ c :: cs).takeWhile isNameChar = [] := by
        rw [valueChars]
        rcases hc with rfl | rfl <;> split <;> rfl
      obtain ⟨hn, hv⟩ := eq_of_name ha.1 hb.1 (stop hc) (stop hd) hv
      obtain ⟨hv, hr⟩ := valueChars_injective (by rcases hc with rfl | rfl <;> decide)
        (by rcases hd with rfl | rfl <;> decide) hv
      obtain ⟨rfl, hr⟩ := ih ha.2 hb.2 (hcs.trans (hr.trans hds.symm))
      exact ⟨by rw [Prod.ext hn hv], hr⟩

theorem writeStartTag_injective {d e : Element} {r s : List Char} (hd : d.Ordinary) (he : e.Ordinary)
    (h : (writeStartTag d).toList ++ r = (writeStartTag e).toList ++ s) : d = e ∧ r = s := by
  have stop (attributes : List (String × String)) (r : List Char) :
      (attributesChars attributes ++ '>' :: r).takeWhile isNameChar = [] := by
    obtain ⟨c, cs, e, hc⟩ := attributesChars_ends attributes r
    rw [e]
    rcases hc with rfl | rfl <;> rfl
  rw [toList_writeStartTag, toList_writeStartTag] at h
  simp only [List.cons_append, List.append_assoc, List.nil_append, List.cons.injEq, true_and] at h
  obtain ⟨ht, h⟩ := eq_of_name hd.tag he.tag (stop _ _) (stop _ _) h
  obtain ⟨ha, hr⟩ := attributesChars_injective hd.attributes he.attributes h
  exact ⟨by cases d; cases e; cases ht; cases ha; rfl, hr⟩

/-! What a text goes on with. -/

inductive Lead where
  | ending
  | text
  | comment
  | element
  deriving DecidableEq

/-- The kind of the next piece of a text. What ends siblings is an end tag or the end of all. -/
def leadOf : List Char → Lead
  | [] => .ending
  | '<' :: '/' :: _ => .ending
  | '<' :: '!' :: _ => .comment
  | '<' :: _ => .element
  | _ => .text

theorem leadOf_eq_text {l : List Char} : leadOf l = .text ↔ l.head? ≠ some '<' ∧ l.head? ≠ none := by
  unfold leadOf
  split
  next => simp
  next => simp
  next => simp
  next => simp
  next hn _ _ ht =>
    cases l with
    | nil => exact absurd rfl hn
    | cons c cs => simpa using fun e : c = '<' => ht cs (e ▸ rfl)

theorem head?_of_leadOf {l : List Char} (h : leadOf l ≠ .text) :
    l.head? = some '<' ∨ l.head? = none := by
  rw [Ne, leadOf_eq_text] at h
  tauto

theorem leadOf_writeStartTag {e : Element} (he : e.Ordinary) (r : List Char) :
    leadOf ((writeStartTag e).toList ++ r) = .element := by
  obtain ⟨c, cs, hcs, hc⟩ := head_of_ordinary he.tag
  rw [toList_writeStartTag, hcs]
  have h₁ : c ≠ '/' := by rintro rfl; exact absurd hc (by decide)
  have h₂ : c ≠ '!' := by rintro rfl; exact absurd hc (by decide)
  simp only [List.cons_append]
  unfold leadOf
  split <;> simp_all

namespace Markup

def lead : Markup → Lead
  | nil => .ending
  | node (.text _) _ _ => .text
  | node (.comment _) _ _ => .comment
  | node _ _ _ => .element

theorem not_startsWithText_iff {m : Markup} : ¬ m.StartsWithText ↔ m.lead ≠ .text := by
  cases m with
  | nil => simp [StartsWithText, lead]
  | node data inner rest => cases data <;> simp [StartsWithText, lead]

theorem chars_element (e : Element) (inner rest : Markup) (r : List Char) :
    (node (.element e) inner rest).chars false ++ r = (writeStartTag e).toList ++
      ((if e.tag ∈ voidTags then []
        else inner.chars (rawTextTags.contains e.tag) ++ ("</" ++ e.tag ++ ">").toList) ++
      (rest.chars false ++ r)) := by
  rw [chars, NodeData.chars]
  simp only [List.contains_iff_mem]
  split <;> simp

/-- The first piece of ordinary siblings can be seen from the text they begin with. -/
theorem Ordinary.leadOf_chars {m : Markup} (h : m.Ordinary) {r : List Char}
    (hr : leadOf r = .ending) : leadOf (m.chars false ++ r) = m.lead := by
  cases m with
  | nil => exact hr
  | node data inner rest =>
    obtain ⟨-, h⟩ := h
    cases data with
    | element e =>
      rw [chars_element, leadOf_writeStartTag h.1]
      rfl
    | text content =>
      obtain ⟨hne, -⟩ := h
      rw [chars, NodeData.chars, if_neg Bool.false_ne_true, toList_escapeText, List.append_assoc]
      cases hc : content.toList with
      | nil => exact absurd (String.toList_eq_nil_iff.mp hc) hne
      | cons c cs =>
        rw [List.flatMap_cons, List.append_assoc]
        exact leadOf_eq_text.mpr (head?_escapeTextChar c _)
    | comment content =>
      rw [chars, NodeData.chars]
      simp only [String.toList_append, List.append_assoc]
      rfl
    | _ => exact h.elim

theorem IsCode.exists_text {m : Markup} (h : m.IsCode) : ∃ code : String,
    m = (if code = "" then nil else node (.text code) nil nil) ∧
      ¬ "</".toList <:+: code.toList ∧ m.chars true = code.toList := by
  unfold IsCode at h
  split at h
  next => exact ⟨"", rfl, by decide, rfl⟩
  next code =>
    refine ⟨code, (if_neg h.1).symm, h.2, ?_⟩
    rw [chars, NodeData.chars, if_pos rfl, chars, List.append_nil]
  next => exact h.elim

theorem IsCode.injective {a b : Markup} {r s : List Char} (ha : a.IsCode) (hb : b.IsCode)
    (h : a.chars true ++ '<' :: '/' :: r = b.chars true ++ '<' :: '/' :: s) : a = b ∧ r = s := by
  obtain ⟨code, rfl, hc, e⟩ := ha.exists_text
  obtain ⟨code', rfl, hc', e'⟩ := hb.exists_text
  rw [e, e'] at h
  obtain ⟨hcode, hr⟩ := eq_of_separated (by decide) hc hc' h
  exact ⟨by rw [String.toList_inj.mp hcode], hr⟩

theorem chars_text (content : String) (inner rest : Markup) (r : List Char) :
    (node (.text content) inner rest).chars false ++ r =
      (escapeText content).toList ++ (rest.chars false ++ r) := by
  rw [chars, NodeData.chars, if_neg Bool.false_ne_true, List.append_assoc]

theorem chars_comment (content : String) (inner rest : Markup) (r : List Char) :
    (node (.comment content) inner rest).chars false ++ r =
      "<!--".toList ++ (content.toList ++ ("-->".toList ++ (rest.chars false ++ r))) := by
  rw [chars, NodeData.chars]
  simp only [String.toList_append, List.append_assoc]

theorem Ordinary.text_ends {content : String} {inner rest : Markup} {r : List Char}
    (h : (node (.text content) inner rest).Ordinary) (hr : leadOf r = .ending) :
    (rest.chars false ++ r).head? = some '<' ∨ (rest.chars false ++ r).head? = none := by
  obtain ⟨hrest, -, -, hn⟩ := h
  refine head?_of_leadOf ?_
  rw [hrest.leadOf_chars hr]
  exact not_startsWithText_iff.mp hn

/-- What an element holds can be read off the text that begins with it, up to its end tag. -/
theorem Ordinary.inner_injective {e : Element} {a b rest rest' : Markup} {r s : List Char}
    (ha : (node (.element e) a rest).Ordinary) (hb : (node (.element e) b rest').Ordinary)
    (ih : a.Ordinary → b.Ordinary → ∀ {r s : List Char}, leadOf r = .ending → leadOf s = .ending →
      a.chars false ++ r = b.chars false ++ s → a = b ∧ r = s)
    (h : (if e.tag ∈ voidTags then []
          else a.chars (rawTextTags.contains e.tag) ++ ("</" ++ e.tag ++ ">").toList) ++ r =
        (if e.tag ∈ voidTags then []
          else b.chars (rawTextTags.contains e.tag) ++ ("</" ++ e.tag ++ ">").toList) ++ s) :
    a = b ∧ r = s := by
  obtain ⟨-, -, ha⟩ := ha
  obtain ⟨-, -, hb⟩ := hb
  by_cases hv : e.tag ∈ voidTags
  · rw [if_pos hv] at ha hb
    rw [if_pos hv, if_pos hv] at h
    exact ⟨ha.trans hb.symm, h⟩
  rw [if_neg hv] at ha hb
  rw [if_neg hv, if_neg hv, List.append_assoc, List.append_assoc] at h
  have tail {r s : List Char} (h : ("</" ++ e.tag ++ ">").toList ++ r = ("</" ++ e.tag ++ ">").toList ++ s) :
      r = s := List.append_cancel_left h
  have split (r : List Char) : ("</" ++ e.tag ++ ">").toList ++ r =
      '<' :: '/' :: (e.tag.toList ++ '>' :: r) := by
    simp
  by_cases hc : e.tag ∈ rawTextTags
  · rw [if_pos hc] at ha hb
    rw [List.contains_iff_mem.mpr hc, split, split] at h
    obtain ⟨hab, h⟩ := ha.2.injective hb.2 h
    exact ⟨hab, tail (by rw [split, split, h])⟩
  · rw [if_neg hc] at ha hb
    have hf : rawTextTags.contains e.tag = false := by simpa using hc
    rw [hf] at h
    obtain ⟨hab, h⟩ := ih ha hb (by rw [split]; rfl) (by rw [split]; rfl) h
    exact ⟨hab, tail h⟩

/-- Ordinary siblings can be read off a text that begins with them, up to the end tag around them. -/
theorem Ordinary.injective {a b : Markup} (ha : a.Ordinary) (hb : b.Ordinary) {r s : List Char}
    (hr : leadOf r = .ending) (hs : leadOf s = .ending)
    (h : a.chars false ++ r = b.chars false ++ s) : a = b ∧ r = s := by
  -- The first piece of the common text is of one kind, so both have a node of that kind first.
  induction a generalizing b r s with
  | nil =>
    have hl := congrArg leadOf h
    rw [ha.leadOf_chars hr, hb.leadOf_chars hs] at hl
    cases b with
    | nil => exact ⟨rfl, h⟩
    | node data inner rest => cases data <;> cases hl
  | node data inner rest ihi ihr =>
    have hl := congrArg leadOf h
    rw [ha.leadOf_chars hr, hb.leadOf_chars hs] at hl
    cases b with
    | nil => cases data <;> cases hl
    | node data' inner' rest' =>
      cases data with
      | element e =>
        cases data' with
        | element e' =>
          rw [chars_element, chars_element] at h
          obtain ⟨rfl, htail⟩ := writeStartTag_injective ha.2.1 hb.2.1 h
          obtain ⟨rfl, hrest⟩ := inner_injective ha hb (fun ha hb => ihi ha hb) htail
          obtain ⟨rfl, hrs⟩ := ihr ha.1 hb.1 hr hs hrest
          exact ⟨rfl, hrs⟩
        | text => cases hl
        | comment => cases hl
        | _ => exact hb.2.elim
      | text content =>
        cases data' with
        | text content' =>
          rw [chars_text, chars_text] at h
          obtain ⟨rfl, hrest⟩ := escapeText_injective (ha.text_ends hr) (hb.text_ends hs) h
          obtain ⟨rfl, hrs⟩ := ihr ha.1 hb.1 hr hs hrest
          exact ⟨by rw [ha.2.2.1, hb.2.2.1], hrs⟩
        | _ => cases hl
      | comment content =>
        cases data' with
        | comment content' =>
          rw [chars_comment, chars_comment] at h
          obtain ⟨hc, hrest⟩ := eq_of_separated (by decide) ha.2.1 hb.2.1 (List.append_cancel_left h)
          obtain ⟨rfl, hrs⟩ := ihr ha.1 hb.1 hr hs hrest
          exact ⟨by rw [String.toList_inj.mp hc, ha.2.2, hb.2.2], hrs⟩
        | _ => cases hl
      | _ => exact ha.2.elim

end Markup

/-- Two nodes with ordinary markup below them have equal inner markup only if what is below them is
equal: no text, attribute or nesting is taken for another. -/
theorem Tree.innerHtml_injective {t u : Tree} {p q : NodeId} (ht : t.WellFormed) (hu : u.WellFormed)
    (hp : (t.markup p).Ordinary) (hq : (u.markup q).Ordinary) (h : t.innerHtml p = u.innerHtml q) :
    t.markup p = u.markup q := by
  have hl := congrArg String.toList h
  rw [ht.toList_innerHtml, hu.toList_innerHtml] at hl
  exact (hp.injective hq (r := []) (s := []) rfl rfl (by rw [hl])).1

/-- One page planted in two orders. -/
theorem Tree.innerHtml_injective_paragraph :
    (ofNodes [(0, .element ⟨"p", [("id", "\"<")]⟩), (1, .text "</p>"), (0, .comment "&")]).markup 0 =
      (ofNodes [(0, .element ⟨"p", [("id", "\"<")]⟩), (0, .comment "&"), (1, .text "</p>")]).markup 0 :=
  innerHtml_injective (ofNodes_wellFormed _) (ofNodes_wellFormed _) (by decide) (by decide)
    (by decide)

end LivePages
