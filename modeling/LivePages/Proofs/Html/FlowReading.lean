import LivePages.Proofs.Html.ForeignTags

namespace LivePages

/-- A node is written in front of its siblings. -/
theorem Markup.chars_cons (data : NodeData) (inner more : Markup) (rest : List Char) :
    (node data inner more).chars false ++ rest =
      (node data inner .nil).chars false ++ (more.chars false ++ rest) := by
  rw [chars, chars, chars, List.append_nil, List.append_assoc]

namespace Region

variable {region : Region} {around : List String} {e : Element} {filling : Filling}

/-- Elements are of HTML unless foreign content begins with them, or they stand in it. -/
theorem vocabulary_eq (h : region.filling? around e = some filling)
    (hf : ∀ part, filling = .content part → part.isHtml) : region.vocabulary e.tag = .html := by
  by_cases hr : region.isHtml
  · have other : ¬ (e.tag = "svg" ∨ e.tag = "math") := by
      intro ht
      cases region with
      | foreign => cases hr
      | label => cases hr
      | flow =>
        rcases ht with ht | ht <;> simp [filling?, flowFilling?, ht, voidTags, textModel?] at h <;>
          cases hf _ h.symm
      | _ =>
        rcases ht with ht | ht <;>
          simp [filling?, headFilling?, choicesFilling?, tableFilling?, columnsFilling?, ht, textModel?] at h
    rw [not_or] at other
    cases region with
    | foreign => cases hr
    | _ => exact (if_neg other.1).trans (if_neg other.2)
  · cases region with
    | foreign v =>
      simp only [filling?, foreignFilling?] at h
      split at h
      next => cases h
      next =>
        have html := hf _ (Option.some.inj h).symm
        split at html <;> cases html
    | label => cases h
    | _ => exact absurd rfl hr

namespace Fills

theorem mem_voidTags (h : region.Fills around e .nothing) : e.tag ∈ voidTags := by
  cases h with
  | headVoid ht =>
    have void : ∀ n ∈ ["base", "link", "meta"], n ∈ voidTags := by decide
    exact void _ ht
  | flowVoid hv => exact hv
  | rule ht => rw [ht]; decide
  | column ht => rw [ht]; decide
  | hidden _ ht => rw [ht]; decide

theorem not_mem_voidTags (h : region.Fills around e filling) (hf : filling ≠ .nothing) : e.tag ∉ voidTags := by
  have text {model : ContentModel} (hm : textModel? e.tag = some model) : e.tag ∉ voidTags := by
    have filled : ∀ n ∈ voidTags, textModel? n = none := by decide
    exact fun hv => by cases (filled _ hv).symm.trans hm
  have named {l : List String} (hl : ∀ n ∈ l, n ∉ voidTags) (ht : l.contains e.tag) : e.tag ∉ voidTags :=
    hl _ (List.contains_iff_mem.mp ht)
  cases h with
  | headVoid => exact absurd rfl hf
  | flowVoid => exact absurd rfl hf
  | rule => exact absurd rfl hf
  | column => exact absurd rfl hf
  | hidden => exact absurd rfl hf
  | noscript _ hm => exact text hm
  | text hm => exact text hm
  | headText _ hm => exact text hm
  | template _ _ ht => rw [ht]; decide
  | kind hk => exact not_mem_of_flowKind? hk (by decide)
  | rows ht => exact named (by decide) ht
  | cells ht => exact named (by decide) ht
  | cell ht => exact named (by decide) ht
  | label hv => exact hv
  | foreign hv => exact hv
  | _ ht => rw [ht]; decide

theorem textModel?_eq {model : ContentModel} (h : region.Fills around e (.text model)) :
    textModel? e.tag = some model := by
  cases h with
  | noscript _ hm => exact hm
  | text hm => exact hm
  | headText _ hm => exact hm

theorem isHtml_of_text {model : ContentModel} (h : region.Fills around e (.text model)) : region.isHtml := by
  cases h with
  | noscript => rfl
  | text => rfl
  | headText hn => exact isHtml_of_mem_headContent hn

end Fills

end Region

namespace Builder

variable {b b₁ s : Builder} {region part : Region} {around : List String} {e : Element} {inner : Markup}
  {rest : List Char}

theorem insertHeadContent_template {tag : Tag} (ht : tag.name = "template") :
    b.insertHeadContent tag = b.openTemplate tag := by
  simp only [insertHeadContent, ht]

/-- The start tag of an element opens it, if it may hold a part of a page. -/
theorem At.holds (h : s.At region around) (hb : b.Stands s)
    (fills : region.filling? around e = some (.content part)) (he : e.ReadableAs (region.vocabulary e.tag)) :
    s.Holds around e part (b.read (.startTag e.readTag)) := by
  by_cases html : part.isHtml
  · rw [Region.vocabulary_eq fills fun part' e' => by cases e'; exact html] at he
    have named := he.readName_eq
    have ready := h.prepared (.startTag ⟨e.tag, e.attributes, false⟩)
    rw [he.readTag_eq]
    cases Region.fills_of_filling? fills with
    | template hn hr ht =>
      have inMode : (s.prepared (.startTag ⟨e.tag, e.attributes, false⟩)).inMode
          (.startTag ⟨e.tag, e.attributes, false⟩) = ((s.prepared (.startTag ⟨e.tag, e.attributes, false⟩)).openTemplate
            ⟨e.tag, e.attributes, false⟩).done := by
        rw [ready.inMode_headContent hn, insertHeadContent_template ht]
      have html := Region.isHtml_of_mem_headContent hn
      exact h.holds_of_inMode html hb rfl ⟨_, inMode, ready.holds_template html hr rfl named ht⟩
    | table ht hp =>
      have parts : e.tag ∉ tablePartTags ∧ e.tag ∉ headContentTags := by rw [ht]; decide
      have entered := h.entered.prepared (.startTag ⟨e.tag, e.attributes, false⟩)
      rw [h.eq_of_stands hb rfl, h.read_startTag parts.1 parts.2]
      exact (entered.holds_table rfl named ht hp).of_entered _
    | select ht =>
      have parts : e.tag ∉ tablePartTags ∧ e.tag ∉ headContentTags := by rw [ht]; decide
      have entered := h.entered.prepared (.startTag ⟨e.tag, e.attributes, false⟩)
      rw [h.eq_of_stands hb rfl, h.read_startTag parts.1 parts.2]
      exact (entered.holds_select rfl named ht).of_entered _
    | kind hk hf =>
      rw [h.eq_of_stands hb rfl]
      exact h.holds_flow named hk hf
    | option ht hn => exact h.holds_of_inMode rfl hb rfl (ready.holds_option rfl named ht hn)
    | group ht hn => exact h.holds_of_inMode rfl hb rfl (ready.holds_optionGroup rfl named ht hn)
    | caption ht => exact h.holds_of_inMode rfl hb rfl (ready.holds_caption rfl named ht)
    | columns ht => exact h.holds_of_inMode rfl hb rfl (ready.holds_columns rfl named ht)
    | rows ht => exact h.holds_of_inMode rfl hb rfl (ready.holds_rows rfl named ht)
    | cells ht =>
      have row := List.mem_singleton.mp (List.contains_iff_mem.mp ht)
      exact h.holds_of_inMode rfl hb rfl (ready.holds_cells rfl named row)
    | cell ht => exact h.holds_of_inMode rfl hb rfl (ready.holds_cell rfl named ht)
    | _ => cases html
  · cases Region.fills_of_filling? fills with
    | svg ht =>
      have vocabulary : Region.flow.vocabulary e.tag = .svg := if_pos ht
      rw [vocabulary] at he
      rw [h.eq_of_stands hb rfl]
      exact h.holds_root he (.inl ⟨rfl, ht⟩)
    | math ht =>
      have vocabulary : Region.flow.vocabulary e.tag = .mathml := by rw [ht]; decide
      rw [vocabulary] at he
      rw [h.eq_of_stands hb rfl]
      exact h.holds_root he (.inr ⟨rfl, ht⟩)
    | label _ hn hf ha hl =>
      rw [h.eq_of_stands hb rfl]
      exact h.holds_child he hn hf ha rfl (if_pos hl).symm
    | foreign _ hn hf ha hl =>
      rw [h.eq_of_stands hb rfl]
      exact h.holds_child he hn hf ha rfl (by rw [hl]; rfl)
    | _ => exact absurd rfl html

/-! Pieces of markup. -/

section Pieces

variable (hc : b.content = .markup)
include hc

theorem reads_startTag {v : Vocabulary} (he : e.ReadableAs v) (rest : List Char) :
    b.Reads ((writeStartTag e).toList ++ rest) (b.read (.startTag e.readTag)) rest := by
  refine .single ?_ ?_
  · rw [hc, lexTokens]
    exact lexMarkup_startTag he b.knowsCdata rest
  · rw [toList_writeStartTag]
    simp only [List.length_append, List.length_cons]
    omega

theorem reads_endTag {v : Vocabulary} (he : e.ReadableAs v) (rest : List Char) :
    b.Reads (("</" ++ e.tag ++ ">").toList ++ rest) (b.read (.endTag ⟨readName e.tag, [], false⟩)) rest := by
  refine .single ?_ ?_
  · rw [hc, lexTokens]
    exact lexMarkup_endTag he.letter he.tag b.knowsCdata rest
  · simp only [String.toList_append, List.length_append]
    exact Nat.lt_add_of_pos_left (by simp)

theorem reads_comment {content : String} (h : isReadComment content) (rest : List Char) :
    b.Reads ((Markup.node (.comment content) .nil .nil).chars false ++ rest)
      (b.read (.comment content)) rest := by
  have written : (Markup.node (.comment content) .nil .nil).chars false =
      ("<!--" ++ content ++ "-->").toList := List.append_nil _
  rw [written]
  refine .single ?_ ?_
  · rw [hc, lexTokens]
    exact lexMarkup_comment h b.knowsCdata rest
  · simp only [String.toList_append, List.length_append]
    exact Nat.lt_add_of_pos_left (by simp)

theorem reads_text {text : String} (hne : text ≠ "") (ht : isReadText text)
    (hr : rest.head?.all (· == '<')) :
    b.Reads ((escapeText text).toList ++ rest) ((spaceTokens text.toList).foldl read b) rest := by
  refine .one ?_ ?_
  · rw [hc, lexTokens]
    exact lexMarkup_text hne ht b.knowsCdata hr
  · rw [List.length_append]
    exact Nat.lt_add_of_pos_left (List.length_pos_iff.mpr (escapeText_ne_nil hne))

end Pieces

/-! Comments. -/

theorem Sound.adds_insertComment (h : b.Sound) (hs : b.skipLineFeed = false) (content : String) :
    b.Adds b.here (.node (.comment content) .nil .nil) (b.insertComment content) := by
  rw [h.insertComment_eq]
  exact .of_plant h.tree h.here_lt rfl hs rfl

theorem At.inMode_comment (h : b.At region around) (content : String) :
    b.inMode (.comment content) = (b.insertComment content).done := by
  have mode := h.mode
  rw [inMode]
  split
  all_goals first
    | rfl
    | next e =>
      rw [e] at mode
      cases region <;> simp [Region.modes, foreignModes] at mode

/-- A comment goes to where the reader is. -/
theorem At.adds_comment (h : s.At region around) (hb : b.Stands s) (content : String) :
    s.Adds s.here (.node (.comment content) .nil .nil) (b.read (.comment content)) := by
  have ready := h.prepared (.comment content)
  have adds : s.Adds s.here (.node (.comment content) .nil .nil)
      ((s.prepared (.comment content)).insertComment content) :=
    (ready.adds_insertComment rfl content).of_leads (.refl _) rfl
  by_cases hr : region.isHtml
  · rwa [hb.read_eq (h.steady hr) rfl (ready.inMode_comment content)]
  · rw [Bool.not_eq_true] at hr
    have plain : region.isTable = false := by
      cases region with
      | foreign => rfl
      | label => rfl
      | _ => cases hr
    rwa [h.eq_of_stands hb plain, read_eq_of_inForeign (h.isForeign hr (.inr ⟨content, rfl⟩)) (fun _ => rfl) rfl]

/-! Text. -/

/-- The start of a text is read where the reader of its part of a page puts it. -/
theorem TakesText.of_read (hr : ∀ (b' : Builder) (run : String) (token : Token),
    token = .space run ∨ token = .text run → b'.frame = b.frame → b'.tree.WellFormed →
      b.tree.size ≤ b'.tree.size → ∃ allowed,
        (if b'.isForeign token then b'.inForeign token else b'.inMode token) =
          ({ b' with framesetAllowed := allowed }.insertText run).done) : b.TakesText := by
  intro b' run token ht hf hw hsize hs
  obtain ⟨allowed, read⟩ := hr b' run token ht hf hw hsize
  refine ⟨allowed, ?_⟩
  rw [Builder.read_eq fun hb => absurd (hs.symm.trans hb) Bool.false_ne_true, prepared_eq ht hs, settleToken, read]
  rfl

theorem At.inMode_text (h : b.At region around) (hm : b.mode ∈ Region.flow.modes) {run : String} {token : Token}
    (ht : token = .space run ∨ token = .text run) :
    ∃ allowed, b.inMode token = ({ b with framesetAllowed := allowed }.insertText run).done := by
  have inBody : b.inMode token = b.inBody token := by
    simp only [Region.modes, List.mem_cons, List.not_mem_nil, or_false] at hm
    rcases hm with e | e | e | e <;> rcases ht with rfl | rfl <;> rw [inMode, e] <;> rfl
  rw [inBody]
  rcases ht with rfl | rfl
  · exact ⟨b.framesetAllowed, by rw [Builder.inBody, h.reconstruct_eq]⟩
  · exact ⟨false, by rw [Builder.inBody, h.reconstruct_eq]; rfl⟩

/-- Text goes into a part of a page that is not left to spaces. -/
theorem At.takesText (h : b.At region around) (hr : region.isSpaced = false) : b.TakesText := by
  refine .of_read fun b' run token ht hf hw hsize => ?_
  have reader : b'.At region around := h.of_eq hf hw hsize
  cases region with
  | flow =>
    rw [(reader.steady rfl).not_isForeign, if_neg Bool.false_ne_true]
    exact reader.inMode_text reader.mode ht
  | choices =>
    rw [(reader.steady rfl).not_isForeign, if_neg Bool.false_ne_true]
    have read : b'.inMode token = b'.inSelect token := by
      rcases List.mem_pair.mp reader.mode with e | e <;> rcases ht with rfl | rfl <;> rw [inMode, e] <;> rfl
    refine ⟨b'.framesetAllowed, ?_⟩
    rcases ht with rfl | rfl <;> exact read
  | foreign v =>
    obtain ⟨o, os, ho, hos, rfl, hv, label, annotation, holds⟩ := reader.among
    rw [Region.isLabel_eq, Bool.or_eq_false_iff] at label
    have foreign : b'.isForeign token := by
      rw [Builder.isForeign, ho]
      rcases ht with rfl | rfl <;> simp [hv, label.1, label.2, holds]
    rw [if_pos foreign]
    rcases ht with rfl | rfl
    · exact ⟨b'.framesetAllowed, rfl⟩
    · exact ⟨false, rfl⟩
  | label =>
    obtain ⟨o, os, ho, hos, label⟩ := reader.among
    rw [Region.isLabel_eq, Bool.or_eq_true] at label
    have foreign : b'.isForeign token = false := by
      rw [Builder.isForeign, ho]
      rcases label with label | label <;> rcases ht with rfl | rfl <;> simp [label]
    rw [foreign, if_neg Bool.false_ne_true]
    have listed : ∀ m ∈ foreignModes, m ∈ Region.flow.modes := by decide
    exact reader.inMode_text (listed _ reader.mode) ht
  | _ => cases hr

theorem spaceTokens_of_isSpaces {text : String} (h : Markup.isSpaces text) :
    spaceTokens text.toList = [.space text] := by
  rw [Markup.isSpaces, Bool.and_eq_true, bne_iff_ne, List.all_eq_true] at h
  have full : text.toList ≠ [] := fun e => h.1 (String.toList_eq_nil_iff.mp e)
  rw [spaceTokens, runsBy_of_forall full h.2]
  exact congrArg (fun s => [Token.space s]) String.ofList_toList

theorem isReadText_of_isSpaces {text : String} (h : Markup.isSpaces text) : isReadText text := by
  rw [Markup.isSpaces, Bool.and_eq_true, List.all_eq_true] at h
  rw [isReadText_iff]
  exact fun hn => absurd (h.2 _ hn) (by decide)

/-- Spaces in a table wait. -/
theorem At.read_space_table (h : b.At region around) (hr : region.isTable) {text : String}
    (hs : b.skipLineFeed → dropLineFeed (.space text) = some (.space text)) :
    b.read (.space text) = (b.prepared (.space text)).waiting text := by
  have ready := h.prepared (.space text)
  have inTable : (b.prepared (.space text)).inMode (.space text) =
      (b.prepared (.space text)).tableCharacters (.space text) := by
    have mode := ready.mode
    cases region with
    | table => rw [inMode, List.mem_singleton.mp mode]; rfl
    | rows => rw [inMode, List.mem_singleton.mp mode]; rfl
    | cells => rw [inMode, List.mem_singleton.mp mode]; rfl
    | _ => cases hr
  have html : region.isHtml := by
    cases region with
    | foreign => cases hr
    | label => cases hr
    | _ => rfl
  have current : (b.prepared (.space text)).currentIsHtmlIn fosteringTags := by
    have parent := ready.parent
    rw [ready.currentIsHtmlIn_eq html]
    cases region with
    | table => exact head_any_mono parent (by decide)
    | rows => exact head_any_mono parent (by decide)
    | cells => exact head_any_mono parent (by decide)
    | _ => cases hr
  rw [tableCharacters, current, if_pos rfl] at inTable
  have steady := ready.steady html
  refine (h.steady html).read_eq_again hs inTable ?_ rfl
  exact ⟨⟨steady.tree, steady.root, steady.fostering, steady.nodes⟩, steady.html⟩

/-- A text goes to where the reader is. -/
theorem At.adds_text (h : s.At region around) (hb : b.Stands s) (hl : s.NoTextLast) {content : String}
    (hc : content ≠ "" ∧ isReadText content ∧ (region.isSpaced → Markup.isSpaces content))
    (hs : s.skipLineFeed → content.toList.head? ≠ some '\n') (hr : rest.head?.all (· == '<')) :
    ∃ b' s', b.Reads ((escapeText content).toList ++ rest) b' rest ∧ b'.Stands s' ∧
      s.Adds s.here (.node (.text content) .nil .nil) s' := by
  obtain ⟨full, ht, hc⟩ := hc
  have reads := reads_text h.content full ht hr
  rw [hb.eq_of_noTextLast hl]
  by_cases spaced : region.isSpaced
  · rw [spaceTokens_of_isSpaces (hc spaced), List.foldl_cons, List.foldl_nil] at reads
    have kept (hb : s.skipLineFeed) : dropLineFeed (.space content) = some (.space content) := by
      have token : runToken (true, content.toList) = .space content := congrArg Token.space String.ofList_toList
      have fed : dropLineFeed (runToken (true, content.toList)) = some (runToken (true, content.toList)) :=
        runToken_kept (hs hb)
      rwa [token] at fed
    have html : region.isHtml := by
      cases region with
      | foreign => cases spaced
      | label => cases spaced
      | _ => rfl
    have ready := h.prepared (.space content)
    by_cases table : region.isTable
    · refine ⟨_, (s.prepared (.space content)).waited content, reads, ?_, .of_plant h.tree h.here_lt rfl rfl rfl⟩
      rw [h.read_space_table table kept]
      exact .waiting (ready.steady html) (ready.mode_mem_tableModes table) hl
    · have inMode : (s.prepared (.space content)).inMode (.space content) =
          ((s.prepared (.space content)).insertText content).done := by
        have mode := ready.mode
        cases region with
        | head => rw [Builder.inMode, List.mem_singleton.mp mode]; rfl
        | columns => rw [Builder.inMode, List.mem_singleton.mp mode]; rfl
        | table => exact absurd rfl table
        | rows => exact absurd rfl table
        | cells => exact absurd rfl table
        | _ => cases spaced
      have last : (s.prepared (.space content)).NoTextLast := hl
      refine ⟨_, _, reads, .itself _, ?_⟩
      rw [(h.steady html).read_eq kept inMode, ready.insertText_new last]
      exact .of_plant h.tree h.here_lt rfl rfl rfl
  · rw [Bool.not_eq_true] at spaced
    have chars : content.toList ≠ [] := fun e => full (String.toList_eq_nil_iff.mp e)
    obtain ⟨b', hb', -, -, adds⟩ := (h.takesText spaced).adds h.toSound hl chars hs
    rw [String.ofList_toList] at adds
    exact ⟨b', b', hb' ▸ reads, .itself b', adds⟩

/-! Parts of pages. -/

/-- Whatever is not text begins with a bracket. -/
theorem head_chars {m : Markup} (hn : ¬ m.StartsWithText) (hd : ∀ inner more, m ≠ .node .document inner more)
    (hr : rest.head?.all (· == '<')) : (m.chars false ++ rest).head?.all (· == '<') := by
  cases m with
  | nil => exact hr
  | node data inner more =>
    cases data with
    | document => exact absurd rfl (hd inner more)
    | doctype name publicId systemId =>
      rw [Markup.chars, NodeData.chars]
      simp only [String.toList_append, List.append_assoc]
      rfl
    | element e =>
      rw [Markup.chars_element, toList_writeStartTag]
      rfl
    | text content => exact absurd trivial hn
    | comment content =>
      rw [Markup.chars_comment]
      rfl
    | instruction target data =>
      rw [Markup.chars, NodeData.chars]
      split <;> simp only [String.toList_append, List.append_assoc] <;> rfl

theorem Adds.noTextLast {p : NodeId} {data : NodeData} (ha : b.Adds p (.node data inner .nil) b₁)
    (hp : b₁.here = p) (hd : data.text? = none) : b₁.NoTextLast := by
  obtain ⟨id, hl, hid⟩ := ha.tree.lastChild?
  intro id' hl'
  rw [hp, hl] at hl'
  rw [Tree.text?, ← Option.some.inj hl', hid]
  exact hd

/-- Content can be read in a part of a page, inside open elements, in front of what begins with a
bracket. -/
def Readable (region : Region) (around : List String) (m : Markup) : Prop :=
  ∀ (b s : Builder) (rest : List Char), b.Stands s → s.At region around → (m.StartsWithText → s.NoTextLast) →
    (s.skipLineFeed → ¬ m.startsWithLineFeed) → rest.head?.all (· == '<') →
      ∃ b' s', b.Reads (m.chars false ++ rest) b' rest ∧ b'.Stands s' ∧ s.Adds s.here m s'

/-- An element is read from its start tag up to its end tag, if its content is. -/
theorem Holds.reads (h : s.At region around) (hh : s.Holds around e part b₁)
    (he : e.ReadableAs (region.vocabulary e.tag)) (hi : Readable part (e.tag :: around) inner)
    (feed : flowKind? e.tag = some .preformatted → ¬ inner.startsWithLineFeed) (rest : List Char) :
    ∃ b', b₁.Reads (inner.chars false ++ (("</" ++ e.tag ++ ">").toList ++ rest)) b' rest ∧
      s.Adds s.here (.node (.element e) inner .nil) b' := by
  have planted := h.tree.planted h.here_lt (.element e)
  rw [← hh.tree] at planted
  have bracket : (("</" ++ e.tag ++ ">").toList ++ rest).head?.all (· == '<') := by simp
  obtain ⟨b₂, s₂, reads, stands, adds⟩ := hi b₁ b₁ _ (.itself b₁) hh.reader
    (fun _ => noTextLast_of_planted h.tree h.here_lt planted hh.here) (fun hs => feed (hh.settled hs)) bracket
  have reader := hh.reader.of_leads adds.frame adds.tree.wellFormed adds.tree.size_le
  obtain ⟨frame, tree, skip⟩ := hh.shut b₂ s₂ stands adds.frame reader
  have content : b₂.content = .markup := stands.content.trans reader.content
  rw [hh.here] at adds
  refine ⟨_, reads.trans (reads_endTag content he rest), frame, ?_, fun hs => ?_⟩
  · rw [tree]
    exact planted.sown h.tree h.here_lt adds.tree
  · rw [skip] at hs
    cases hs

/-- An element is read from its start tag on. -/
theorem At.reads_element (h : s.At region around) (hb : b.Stands s) {more : Markup}
    (hm : (Markup.node (.element e) inner more).Fits region around)
    (ih : ∀ part, inner.Fits part (e.tag :: around) → Readable part (e.tag :: around) inner) (rest : List Char) :
    ∃ b', b.Reads ((Markup.node (.element e) inner .nil).chars false ++ rest) b' rest ∧
      s.Adds s.here (.node (.element e) inner .nil) b' := by
  obtain ⟨-, he, hm⟩ := hm
  rw [Markup.chars_element, Markup.chars, List.nil_append]
  have opens := reads_startTag (hb.content.trans h.content) he
  rw [Markup.MayHold] at hm
  split at hm
  next fills =>
    have void := Region.fills_of_filling? fills
    subst hm
    rw [Region.vocabulary_eq fills (by simp)] at he
    rw [if_pos void.mem_voidTags, List.nil_append]
    refine ⟨_, opens rest, ?_⟩
    rw [he.readTag_eq]
    exact h.adds_void hb void
  next model fills =>
    have text := Region.fills_of_filling? fills
    have html : region.isHtml := text.isHtml_of_text
    rw [Region.vocabulary_eq fills (by simp)] at he
    rw [if_neg (text.not_mem_voidTags (by simp)), List.append_assoc]
    have held := h.holdsText hb text
    obtain ⟨b', reads, adds⟩ := held.reads (h.steady html) h.content he text.textModel?_eq hm rest
    refine ⟨b', (opens _).trans ?_, adds⟩
    rwa [he.readTag_eq]
  next part fills =>
    obtain ⟨feed, same, fits⟩ := hm
    have content := Region.fills_of_filling? fills
    rw [if_neg (content.not_mem_voidTags (by simp)), List.append_assoc, same]
    obtain ⟨b', reads, adds⟩ := (h.holds hb fills he).reads h he (ih part fits) feed rest
    exact ⟨b', (opens _).trans reads, adds⟩
  next => exact hm.elim

/-- What can stand in a part of a page is read as it is. -/
theorem readable {m : Markup} (hm : m.Fits region around) : Readable region around m := by
  induction m generalizing region around with
  | nil =>
    intro b s rest hb h _ _ _
    exact ⟨b, s, .refl b rest, hb, .refl h.tree _⟩
  | node data inner more ihi ihm =>
    intro b s rest hb h hl hs hr
    -- The first node, and then the others where it has been added.
    have first : ∃ b₁ s₁, b.Reads ((Markup.node data inner .nil).chars false ++ (more.chars false ++ rest)) b₁
        (more.chars false ++ rest) ∧ b₁.Stands s₁ ∧ s.Adds s.here (.node data inner .nil) s₁ := by
      cases data with
      | element e =>
        obtain ⟨b₁, reads, adds⟩ := h.reads_element hb hm (fun part hi => ihi hi) (more.chars false ++ rest)
        exact ⟨b₁, b₁, reads, .itself b₁, adds⟩
      | text content =>
        obtain ⟨hmore, hc, rfl, hn⟩ := hm
        rw [Markup.chars_text, Markup.chars, List.nil_append]
        exact h.adds_text hb (hl trivial) hc (fun hb e => hs hb (by rw [Markup.startsWithLineFeed, Markup.text, e]; rfl))
          (head_chars hn (fun inner more' e => by subst e; exact hmore.2) hr)
      | comment content =>
        obtain ⟨-, hc, rfl⟩ := hm
        exact ⟨_, _, reads_comment (hb.content.trans h.content) hc _, .itself _, h.adds_comment hb content⟩
      | _ => exact hm.2.elim
    obtain ⟨b₁, s₁, reads, stands, adds⟩ := first
    have reader := h.of_leads adds.frame adds.tree.wellFormed adds.tree.size_le
    have last : more.StartsWithText → s₁.NoTextLast := by
      intro hmore
      refine adds.noTextLast adds.here ?_
      cases data with
      | text content => exact absurd hmore hm.2.2.2
      | _ => rfl
    have settled (hb : s₁.skipLineFeed) : ¬ more.startsWithLineFeed := by
      cases (adds.settled hb).2
    obtain ⟨b', s', reads', stands', adds'⟩ := ihm hm.1 b₁ s₁ rest stands reader last settled hr
    rw [adds.here] at adds'
    refine ⟨b', s', ?_, stands', adds.trans adds' h.here_lt⟩
    rw [Markup.chars_cons]
    exact reads.trans reads'

end Builder

end LivePages
