import LivePages.Proofs.Html.FlowReading

namespace LivePages

namespace Builder

variable {b b₁ : Builder} {e : Element} {m inner : Markup} {rest : List Char} {p : NodeId}

theorem Steady.adds_appendComment (h : b.Steady) (hp : p < b.tree.size) {content : String}
    (hm : (b.prepared (.comment content)).inMode (.comment content) =
      ((b.prepared (.comment content)).appendComment p content).done) :
    b.Adds p (.node (.comment content) .nil .nil) (b.read (.comment content)) := by
  rw [h.read_eq (fun _ => rfl) hm]
  exact .of_plant h.tree hp rfl rfl rfl

theorem Steady.adds_comment (h : b.Steady) {content : String}
    (hm : (b.prepared (.comment content)).inMode (.comment content) =
      ((b.prepared (.comment content)).insertComment content).done) :
    b.Adds b.here (.node (.comment content) .nil .nil) (b.read (.comment content)) := by
  rw [h.read_eq (fun _ => rfl) hm]
  exact ((h.prepared _).adds_insertComment rfl content).of_leads (.refl _) rfl

/-- Comments are read one by one where each of them goes to one place. -/
theorem Steady.reads_comments (h : b.Steady) (hc : b.content = .markup) (hn : b.mode ≠ .inTemplate)
    (hp : p < b.tree.size) (hm : m.IsComments) (step : ∀ (b' : Builder) (content : String),
      b'.frame = b.frame → b'.inMode (.comment content) = (b'.appendComment p content).done) (rest : List Char) :
    ∃ b', b.Reads (m.chars false ++ rest) b' rest ∧ b.Adds p m b' := by
  induction m generalizing b with
  | nil => exact ⟨b, .refl b rest, .refl h.tree p⟩
  | node data inner more _ ih =>
    match data, inner, hm with
    | .comment content, .nil, ⟨hcontent, hmore⟩ =>
      have first := h.adds_appendComment hp (step (b.prepared (.comment content)) content rfl)
      have same := first.frame_eq hn
      have hp' := Nat.lt_of_lt_of_le hp first.tree.size_le
      have mode : (b.read (.comment content)).mode = b.mode := congrArg Frame.mode same
      obtain ⟨b', reads, adds⟩ := ih (first.steady h) ((congrArg Frame.content same).trans hc) (mode ▸ hn) hp' hmore
        fun b' content hf => step b' content (hf.trans same)
      refine ⟨b', ?_, first.trans adds hp⟩
      rw [Markup.chars_cons]
      exact (reads_comment hc hcontent _).trans reads

/-- Spaces become a text of their own, in a mode that keeps them. -/
theorem Steady.reads_space (h : b.Steady) (hc : b.content = .markup) (hl : b.NoTextLast)
    (hs : b.skipLineFeed = false) {text : String} (ht : Markup.isSpaces text)
    (hm : b.inMode (.space text) = (b.insertText text).done) (hr : rest.head?.all (· == '<')) :
    b.Reads ((escapeText text).toList ++ rest) (b.read (.space text)) rest ∧
      b.Adds b.here (.node (.text text) .nil .nil) (b.read (.space text)) := by
  have hne : text ≠ "" := by
    rw [Markup.isSpaces, Bool.and_eq_true, bne_iff_ne] at ht
    exact ht.1
  constructor
  · have reads := reads_text hc hne (isReadText_of_isSpaces ht) hr
    rwa [spaceTokens_of_isSpaces ht] at reads
  · have read : b.read (.space text) = b.insertText text := by
      refine h.read_eq (fun hb => absurd (hs.symm.trans hb) Bool.false_ne_true) ?_
      rw [prepared_eq (.inl rfl) hs, hm]
    rw [read, h.insertText_new hl]
    exact .of_plant h.tree h.here_lt rfl hs rfl

/-! Sections. -/

/-- The reader is right inside the root element. -/
structure InRoot (b : Builder) : Prop extends b.Steady where
  content : b.content = .markup
  names : b.openElements.map OpenElement.name = ["html"]
  formatting : b.formatting = []
  form : b.form = none

namespace InRoot

theorem of_frame {b' : Builder} (h : b.InRoot) {mode : InsertionMode}
    (hf : b'.frame = { b.frame with mode }) (ht : b'.tree.WellFormed) (hs : b.tree.size ≤ b'.tree.size) :
    b'.InRoot := by
  have opened : b'.openElements = b.openElements := congrArg Frame.openElements hf
  refine ⟨⟨⟨ht, Nat.lt_of_lt_of_le h.root hs, (congrArg Frame.fostering hf).trans h.fostering, fun e he => ?_⟩,
    opened ▸ h.html⟩, (congrArg Frame.content hf).trans h.content, opened ▸ h.names,
    (congrArg Frame.formatting hf).trans h.formatting, (congrArg Frame.form hf).trans h.form⟩
  exact Nat.lt_of_lt_of_le (h.nodes e (opened ▸ he)) hs

end InRoot

/-- The reader is behind the body, or behind the root element. -/
structure IsBehind (b : Builder) (mode : InsertionMode) : Prop extends b.Steady where
  mode : b.mode = mode
  content : b.content = .markup

theorem IsBehind.of_adds {mode : InsertionMode} (h : b.IsBehind mode) (hn : mode ≠ .inTemplate)
    (ha : b.Adds p m b₁) : b₁.IsBehind mode :=
  have same := ha.frame_eq (h.mode ▸ hn)
  ⟨ha.steady h.toSteady, (congrArg Frame.mode same).trans h.mode, (congrArg Frame.content same).trans h.content⟩

theorem InRoot.openElements (h : b.InRoot) : ∃ root, b.openElements = [root] ∧ b.here = root.node := by
  have names := h.names
  cases ho : b.openElements with
  | nil =>
    rw [ho] at names
    cases names
  | cons root es =>
    rw [ho, List.map_cons] at names
    have none : es = [] := List.map_eq_nil_iff.mp (List.cons.inj names).2
    exact ⟨root, by rw [none], by rw [here, ho]⟩

theorem InRoot.of_adds (h : b.InRoot) (hn : b.mode ≠ .inTemplate) (ha : b.Adds p m b₁) : b₁.InRoot :=
  have hf : b₁.frame = { b.frame with mode := b.mode } := ha.frame_eq hn
  h.of_frame hf ha.tree.wellFormed ha.tree.size_le

/-- The sections of the root element, and how their content is read. -/
inductive IsSection : String → Region → InsertionMode → Prop
  | head : IsSection "head" .head .inHead
  | body : IsSection "body" .flow .inBody

/-- A section of the root element has been opened. -/
structure OpensSection (b : Builder) (e : Element) (mode : InsertionMode) (b₁ : Builder) : Prop where
  read : b.read (.startTag ⟨e.tag, e.attributes, false⟩) = b₁
  tree : b₁.tree = b.tree.plant b.here (.element e)
  frame : b₁.frame =
    { b.frame with mode, openElements := b.opening .html ⟨e.tag, e.attributes, false⟩ :: b.openElements }
  settled : b₁.skipLineFeed = false

namespace OpensSection

variable {region : Region} {mode : InsertionMode}

theorem openElements (ho : b.OpensSection e mode b₁) :
    b₁.openElements = b.opening .html ⟨e.tag, e.attributes, false⟩ :: b.openElements :=
  congrArg Frame.openElements ho.frame

theorem reader (ho : b.OpensSection e mode b₁) (h : b.InRoot) (hs : IsSection e.tag region mode) :
    b₁.At region [e.tag, "html"] := by
  have opened := ho.openElements
  have formatting : b₁.formatting = [] := (congrArg Frame.formatting ho.frame).trans h.formatting
  have mode' : b₁.mode = mode := congrArg Frame.mode ho.frame
  have html : ∀ o ∈ b₁.openElements, o.vocabulary = .html := by
    rw [opened, List.forall_mem_cons]
    exact ⟨rfl, h.html⟩
  have sound := h.toSound.opening (congrArg Frame.fostering ho.frame) ho.tree opened rfl
  have names : b₁.openElements.map OpenElement.name = [e.tag, "html"] := by
    rw [opened, List.map_cons, h.names]
    rfl
  obtain ⟨root, hroot, -⟩ := h.openElements
  have calls (b' : Builder) : b'.modeFor b₁.openElements = mode := by
    rw [opened, hroot, opening]
    generalize e.tag = name at hs
    cases hs <;> rfl
  have listed : mode ∈ region.modes ∧ mode ≠ .inTemplate ∧ region.isIn [e.tag, "html"] := by
    generalize e.tag = name at hs
    cases hs <;> decide
  have among : region.Among b₁.openElements := by
    generalize e.tag = name at hs
    cases hs <;> exact html
  refine ⟨sound, (congrArg Frame.content ho.frame).trans h.content, names, opened ▸ List.cons_ne_nil _ _, among,
    listed.2.2, mode' ▸ listed.1, fun e' => absurd (mode'.symm.trans e') listed.2.1, fun _ b' _ => mode' ▸ calls b',
    ?_, ?_, fun _ => (congrArg Frame.form ho.frame).trans h.form⟩
  · rw [sinceMark, formatting]
    exact fun f hf => absurd hf List.not_mem_nil
  · rw [formatting]
    exact fun f hf => absurd hf List.not_mem_nil

/-- A section is read up to its end tag. -/
theorem reads (ho : b.OpensSection e mode b₁) (h : b.InRoot) (hs : IsSection e.tag region mode)
    (he : e.ReadableAs .html) (hm : inner.Fits region [e.tag, "html"]) (rest : List Char) :
    ∃ b₂ : Builder, b.Reads ((Markup.node (.element e) inner .nil).chars false ++ rest)
        (b₂.read (.endTag ⟨e.tag, [], false⟩)) rest ∧
      b.tree.Sown b.here (.node (.element e) inner .nil) b₂.tree ∧ b₂.Steady ∧ b₂.frame = b₁.frame := by
  have reader := ho.reader h hs
  have named : e.tag ∉ voidTags ∧ rawTextTags.contains e.tag = false ∧ mode ≠ .inTemplate ∧
      region.isHtml ∧ region.isTable = false := by
    generalize e.tag = name at hs
    cases hs <;> decide
  obtain ⟨hv, hr, hn, html, table⟩ := named
  have planted := h.tree.planted h.here_lt (.element e)
  rw [← ho.tree] at planted
  have here : b₁.here = b.tree.size := by
    rw [Builder.here, ho.openElements]
    rfl
  have opens := reads_startTag h.content he (inner.chars false ++ (("</" ++ e.tag ++ ">").toList ++ rest))
  rw [he.readTag_eq, ho.read] at opens
  have ends : (("</" ++ e.tag ++ ">").toList ++ rest).head?.all (· == '<') := by simp
  obtain ⟨b₂, s₂, reads, stands, adds⟩ := readable hm b₁ b₁ _ (.itself b₁) reader
    (fun _ => noTextLast_of_planted h.tree h.here_lt planted here)
    (fun hb => absurd (ho.settled.symm.trans hb) Bool.false_ne_true) ends
  have reader₂ := reader.of_leads adds.frame adds.tree.wellFormed adds.tree.size_le
  cases reader₂.eq_of_stands stands table
  have shuts := reads_endTag reader₂.content he rest
  rw [he.readName_eq] at shuts
  rw [here] at adds
  have mode₁ : b₁.mode = mode := congrArg Frame.mode ho.frame
  refine ⟨b₂, ?_, planted.sown h.tree h.here_lt adds.tree, reader₂.steady html, adds.frame_eq (mode₁ ▸ hn)⟩
  rw [Markup.chars_element, if_neg hv, hr, Markup.chars, List.nil_append, List.append_assoc]
  exact opens.trans (reads.trans shuts)

end OpensSection

/-- The start tag of the body opens it. -/
theorem InRoot.opensBody (h : b.InRoot) (hmode : b.mode = .afterHead) (ht : e.tag = "body") :
    ∃ b₁, b.OpensSection e .inBody b₁ := by
  have hp := h.toSteady.prepared (.startTag ⟨e.tag, e.attributes, false⟩)
  have read : b.read (.startTag ⟨e.tag, e.attributes, false⟩) =
      ((b.prepared (.startTag ⟨e.tag, e.attributes, false⟩)).insertElement
        ⟨e.tag, e.attributes, false⟩).forbidFrameset.withMode .inBody := by
    refine h.toSteady.read_eq (fun _ => rfl) ?_
    have mode : (b.prepared (.startTag ⟨e.tag, e.attributes, false⟩)).mode = .afterHead := hmode
    rw [inMode, mode, ht]
    rfl
  rw [hp.insertElement_eq] at read
  exact ⟨_, read, rfl, rfl, rfl⟩

/-- The body is read up to its end tag, which leaves it open. -/
theorem InRoot.reads_bodyElement (h : b.InRoot) (hmode : b.mode = .afterHead) (ht : e.tag = "body")
    (he : e.ReadableAs .html) (hm : inner.Fits .flow ["body", "html"]) (rest : List Char) :
    ∃ b', b.Reads ((Markup.node (.element e) inner .nil).chars false ++ rest) b' rest ∧
      b.tree.Sown b.here (.node (.element e) inner .nil) b'.tree ∧ b'.IsBehind .afterBody ∧
      ∃ body, b'.openElements = body :: b.openElements := by
  obtain ⟨b₁, opens⟩ := h.opensBody hmode ht
  have named : IsSection e.tag .flow .inBody := ht ▸ .body
  obtain ⟨b₂, reads, sown, steady, frame⟩ := opens.reads h named he (ht ▸ hm) rest
  have frame₂ := frame.trans opens.frame
  have opened : b₂.openElements = b.opening .html ⟨e.tag, e.attributes, false⟩ :: b.openElements :=
    congrArg Frame.openElements frame₂
  have shut : b₂.read (.endTag ⟨e.tag, [], false⟩) =
      (b₂.prepared (.endTag ⟨e.tag, [], false⟩)).withMode .afterBody := by
    refine steady.read_eq (fun _ => rfl) ?_
    have mode : (b₂.prepared (.endTag ⟨e.tag, [], false⟩)).mode = .inBody := congrArg Frame.mode frame₂
    have reached : (b₂.prepared (.endTag ⟨e.tag, [], false⟩)).inDefaultScope "body" := by
      have opened' : (b₂.prepared (.endTag ⟨e.tag, [], false⟩)).openElements = _ := opened
      exact inScope_current opened' (isHtml_current rfl ht)
    rw [ht] at reached
    rw [inMode, mode, ht]
    simp only [inBody, reached, if_true]
  have content : b₂.content = .markup := (congrArg Frame.content frame₂).trans h.content
  refine ⟨_, reads, ?_, ?_, b.opening .html ⟨e.tag, e.attributes, false⟩, ?_⟩ <;> rw [shut]
  · exact sown
  · exact ⟨⟨⟨steady.tree, steady.root, steady.fostering, steady.nodes⟩, steady.html⟩, rfl, content⟩
  · exact opened

/-- The body is read with the comments behind it. -/
theorem InRoot.reads_bodyAndComments (h : b.InRoot) (hmode : b.mode = .afterHead) (ht : e.tag = "body")
    (he : e.ReadableAs .html) (flow : inner.Fits .flow ["body", "html"]) {more : Markup} (hm : more.IsComments)
    (rest : List Char) :
    ∃ b', b.Reads ((Markup.node (.element e) inner .nil).chars false ++ (more.chars false ++ rest)) b' rest ∧
      b.tree.Sown b.here (.node (.element e) inner more) b'.tree ∧ b'.IsBehind .afterBody := by
  obtain ⟨b₁, reads, sown, behind, body, opened⟩ :=
    h.reads_bodyElement hmode ht he flow (more.chars false ++ rest)
  obtain ⟨root, hroot, here⟩ := h.openElements
  have kept (b₂ : Builder) (content : String) (hf : b₂.frame = b₁.frame) :
      b₂.inMode (.comment content) = (b₂.appendComment b.here content).done := by
    have mode : b₂.mode = .afterBody := (congrArg Frame.mode hf).trans behind.mode
    have last : b₂.rootElement? = some root := by
      have same : b₂.openElements = b₁.openElements := congrArg Frame.openElements hf
      rw [rootElement?, same, opened, hroot]
      rfl
    rw [inMode, mode]
    simp only [afterBody, last, Option.map_some, Option.getD_some, here]
  obtain ⟨b', reads', adds⟩ := behind.toSteady.reads_comments behind.content
    (behind.mode ▸ by decide) (Nat.lt_of_lt_of_le h.here_lt sown.size_le) hm kept rest
  exact ⟨b', reads.trans reads', sown.trans adds.tree h.here_lt, behind.of_adds (by decide) adds⟩

/-- What follows the head is read as it is. -/
theorem InRoot.reads_body (h : b.InRoot) (hmode : b.mode = .afterHead) (hm : m.HasBody)
    (hl : m.StartsWithText → b.NoTextLast) (hs : b.skipLineFeed = false) (hr : rest.head?.all (· == '<')) :
    ∃ b', b.Reads (m.chars false ++ rest) b' rest ∧ b.tree.Sown b.here m b'.tree ∧
      b'.IsBehind .afterBody := by
  induction m generalizing b with
  | nil => exact hm.elim
  | node data inner more _ ih =>
    rw [Markup.chars_cons]
    -- Texts and comments before the body leave the reader where it is.
    have go {b₁ : Builder} (reads : b.Reads
          ((Markup.node data inner .nil).chars false ++ (more.chars false ++ rest)) b₁ (more.chars false ++ rest))
        (adds : b.Adds b.here (.node data inner .nil) b₁)
        (hmore : more.HasBody) (last : more.StartsWithText → b₁.NoTextLast) :
        ∃ b', b.Reads ((Markup.node data inner .nil).chars false ++ (more.chars false ++ rest)) b' rest ∧
          b.tree.Sown b.here (.node data inner more) b'.tree ∧ b'.IsBehind .afterBody := by
      have outside : b.mode ≠ .inTemplate := hmode ▸ by decide
      have mode := (congrArg Frame.mode (adds.frame_eq outside)).trans hmode
      obtain ⟨b', reads', sown, behind⟩ := ih (h.of_adds outside adds) mode hmore last adds.skipLineFeed
      rw [adds.here] at sown
      exact ⟨b', reads.trans reads', adds.tree.trans sown h.here_lt, behind⟩
    cases data with
    | element e =>
      obtain ⟨ht, he, flow, comments⟩ := hm
      exact h.reads_bodyAndComments hmode ht he flow comments rest
    | text content =>
      obtain ⟨ht, rfl, hn, hmore⟩ := hm
      have document (inner more' : Markup) : more ≠ .node .document inner more' := by
        rintro rfl
        exact hmore
      have kept : b.inMode (.space content) = (b.insertText content).done := by
        rw [inMode, hmode]
        rfl
      obtain ⟨reads, adds⟩ :=
        h.toSteady.reads_space h.content (hl trivial) hs ht kept (head_chars hn document hr)
      have text : (Markup.node (.text content) .nil .nil).chars false = (escapeText content).toList := by
        rw [Markup.chars, Markup.chars, List.append_nil]
        rfl
      rw [← text] at reads
      exact go reads adds hmore fun hmore => absurd hmore hn
    | comment content =>
      obtain ⟨hcontent, rfl, hmore⟩ := hm
      have kept : (b.prepared (.comment content)).inMode (.comment content) =
          ((b.prepared (.comment content)).insertComment content).done := by
        have mode : (b.prepared (.comment content)).mode = .afterHead := hmode
        rw [inMode, mode]
        rfl
      have adds := h.toSteady.adds_comment kept
      exact go (reads_comment h.content hcontent _) adds hmore fun _ =>
        adds.noTextLast adds.here rfl
    | _ => exact hm.elim

/-- The start tag of the head opens it. -/
theorem InRoot.opensHead (h : b.InRoot) (hmode : b.mode = .beforeHead) (ht : e.tag = "head") :
    ∃ b₁, b.OpensSection e .inHead b₁ := by
  have hp := h.toSteady.prepared (.startTag ⟨e.tag, e.attributes, false⟩)
  have read : b.read (.startTag ⟨e.tag, e.attributes, false⟩) =
      ((b.prepared (.startTag ⟨e.tag, e.attributes, false⟩)).insertHead
        ⟨e.tag, e.attributes, false⟩).withMode .inHead := by
    refine h.toSteady.read_eq (fun _ => rfl) ?_
    have mode : (b.prepared (.startTag ⟨e.tag, e.attributes, false⟩)).mode = .beforeHead := hmode
    rw [inMode, mode, ht]
    rfl
  rw [insertHead, hp.insertElement_eq] at read
  exact ⟨_, read, rfl, rfl, rfl⟩

/-- The head is read up to its end tag. -/
theorem InRoot.reads_headSection (h : b.InRoot) (hmode : b.mode = .beforeHead) (ht : e.tag = "head")
    (he : e.ReadableAs .html) (hm : inner.Fits .head ["head", "html"]) (rest : List Char) :
    ∃ b', b.Reads ((Markup.node (.element e) inner .nil).chars false ++ rest) b' rest ∧
      b.tree.Sown b.here (.node (.element e) inner .nil) b'.tree ∧
      b'.frame = { b.frame with mode := .afterHead } ∧ b'.skipLineFeed = false := by
  obtain ⟨b₁, opens⟩ := h.opensHead hmode ht
  have named : IsSection e.tag .head .inHead := ht ▸ .head
  obtain ⟨b₂, reads, sown, steady, frame⟩ := opens.reads h named he (ht ▸ hm) rest
  have frame₂ := frame.trans opens.frame
  have shut : b₂.read (.endTag ⟨e.tag, [], false⟩) =
      (b₂.prepared (.endTag ⟨e.tag, [], false⟩)).pop.withMode .afterHead := by
    refine steady.read_eq (fun _ => rfl) ?_
    have mode : (b₂.prepared (.endTag ⟨e.tag, [], false⟩)).mode = .inHead := congrArg Frame.mode frame₂
    rw [inMode, mode, ht]
    rfl
  refine ⟨_, reads, ?_, ?_, ?_⟩ <;> rw [shut]
  · exact sown
  · have popped : ((b₂.prepared (.endTag ⟨e.tag, [], false⟩)).pop.withMode .afterHead).frame =
        { b₂.frame with mode := .afterHead, openElements := b₂.openElements.tail } := rfl
    have opened : b₂.openElements.tail = b.openElements := congrArg (List.tail ∘ Frame.openElements) frame₂
    rw [popped, opened, frame₂]
    rfl
  · rfl

/-- The content of the root element is read as it is. -/
theorem InRoot.reads_sections (h : b.InRoot) (hmode : b.mode = .beforeHead) (hm : m.HasSections)
    (hr : rest.head?.all (· == '<')) :
    ∃ b', b.Reads (m.chars false ++ rest) b' rest ∧ b.tree.Sown b.here m b'.tree ∧
      b'.IsBehind .afterBody := by
  induction m generalizing b with
  | nil => exact hm.elim
  | node data inner more _ ih =>
    rw [Markup.chars_cons]
    cases data with
    | element e =>
      obtain ⟨ht, he, head, body⟩ := hm
      obtain ⟨b₁, reads, sown, frame, skip⟩ := h.reads_headSection hmode ht he head (more.chars false ++ rest)
      have root : b₁.InRoot := h.of_frame frame sown.wellFormed sown.size_le
      have here : b₁.here = b.here := by
        have opened : b₁.openElements = b.openElements := congrArg Frame.openElements frame
        rw [Builder.here, opened, Builder.here]
      have last : b₁.NoTextLast := by
        obtain ⟨id, hl, hid⟩ := sown.lastChild?
        intro id' hl'
        rw [here, hl] at hl'
        rw [Tree.text?, ← Option.some.inj hl', hid]
        rfl
      obtain ⟨b', reads', sown', behind⟩ := root.reads_body (congrArg Frame.mode frame) body (fun _ => last)
        skip hr
      rw [here] at sown'
      exact ⟨b', reads.trans reads', sown.trans sown' h.here_lt, behind⟩
    | comment content =>
      obtain ⟨hcontent, rfl, hmore⟩ := hm
      have kept : (b.prepared (.comment content)).inMode (.comment content) =
          ((b.prepared (.comment content)).insertComment content).done := by
        have mode : (b.prepared (.comment content)).mode = .beforeHead := hmode
        rw [inMode, mode]
        rfl
      have adds := h.toSteady.adds_comment kept
      have outside : b.mode ≠ .inTemplate := hmode ▸ by decide
      have mode := (congrArg Frame.mode (adds.frame_eq outside)).trans hmode
      obtain ⟨b', reads', sown, behind⟩ := ih (h.of_adds outside adds) mode hmore
      rw [adds.here] at sown
      exact ⟨b', (reads_comment h.content hcontent _).trans reads', adds.tree.trans sown h.here_lt, behind⟩
    | _ => exact hm.elim

/-! Pages. -/

/-- The reader has not come to the root element. The flag says that a document type has been read. -/
structure BeforeRoot (b : Builder) (seen : Bool) : Prop extends b.Steady where
  mode : b.mode = if seen then .beforeHtml else .initial
  content : b.content = .markup
  openElements : b.openElements = []
  formatting : b.formatting = []
  form : b.form = none

namespace BeforeRoot

variable {seen : Bool}

theorem here (h : b.BeforeRoot seen) : b.here = Tree.root := by
  rw [Builder.here, h.openElements]

theorem not_inTemplate (h : b.BeforeRoot seen) : b.mode ≠ .inTemplate := by
  rw [h.mode]
  cases seen <;> nofun

theorem of_adds (h : b.BeforeRoot seen) (ha : b.Adds p m b₁) : b₁.BeforeRoot seen := by
  have same := ha.frame_eq h.not_inTemplate
  exact ⟨ha.steady h.toSteady, (congrArg Frame.mode same).trans h.mode,
    (congrArg Frame.content same).trans h.content, (congrArg Frame.openElements same).trans h.openElements,
    (congrArg Frame.formatting same).trans h.formatting, (congrArg Frame.form same).trans h.form⟩

/-- The start tag of the root element opens it. -/
theorem opensRoot (h : b.BeforeRoot seen) (attributes : List (String × String)) :
    ∃ b₁, b.read (.startTag ⟨"html", attributes, false⟩) = b₁ ∧ b₁.InRoot ∧ b₁.mode = .beforeHead ∧
      b₁.tree = b.tree.plant Tree.root (.element ⟨"html", attributes⟩) ∧ b₁.here = b.tree.size := by
  have read : ∃ quirky, b.read (.startTag ⟨"html", attributes, false⟩) =
      ({ b.prepared (.startTag ⟨"html", attributes, false⟩) with quirky }.insertRoot
        ⟨"html", attributes, false⟩).withMode .beforeHead := by
    cases seen with
    | true =>
      refine ⟨b.quirky, h.toSteady.read_eq (fun _ => rfl) ?_⟩
      have mode : (b.prepared (.startTag ⟨"html", attributes, false⟩)).mode = .beforeHtml := h.mode
      rw [inMode, mode]
      rfl
    | false =>
      have mode : (b.prepared (.startTag ⟨"html", attributes, false⟩)).mode = .initial := h.mode
      refine ⟨true, h.toSteady.read_eq_again (fun _ => rfl) (by rw [inMode, mode]; rfl) ?_ rfl⟩
      exact ⟨⟨h.tree, h.root, h.fostering, h.nodes⟩, h.html⟩
  obtain ⟨quirky, read⟩ := read
  let b₁ := ({ b.prepared (.startTag ⟨"html", attributes, false⟩) with quirky }.insertRoot
    ⟨"html", attributes, false⟩).withMode .beforeHead
  have tree : b₁.tree = b.tree.plant Tree.root (.element ⟨"html", attributes⟩) := rfl
  have planted : b₁.tree = b.tree.plant b.here (.element ⟨"html", attributes⟩) := by rw [h.here, tree]
  have steady : b₁.Steady :=
    ⟨h.toSound.opening rfl planted rfl rfl, List.forall_mem_cons.mpr ⟨rfl, h.html⟩⟩
  have names : b₁.openElements.map OpenElement.name = ["html"] :=
    congrArg (fun es : List OpenElement => "html" :: es.map OpenElement.name) h.openElements
  exact ⟨b₁, read, ⟨steady, h.content, names, h.formatting, h.form⟩, rfl, tree, rfl⟩

/-- A document type is read before the root element. -/
theorem reads_doctype (h : b.BeforeRoot false) {name : String} (hn : isReadName name) (rest : List Char) :
    ∃ b₁, b.Reads (("<!DOCTYPE " ++ name ++ ">").toList ++ rest) b₁ rest ∧ b₁.BeforeRoot true ∧
      b₁.tree = b.tree.plant Tree.root (.doctype name "" "") := by
  let d : Doctype := ⟨some name, none, none, false⟩
  have read : b.read (.doctype d) =
      ((b.prepared (.doctype d)).insertDoctype d).withMode .beforeHtml := by
    refine h.toSteady.read_eq (fun _ => rfl) ?_
    have mode : (b.prepared (.doctype d)).mode = .initial := h.mode
    rw [inMode, mode]
    rfl
  have planted := h.tree.planted h.root (.doctype name "" "")
  have size : b.tree.size ≤ (b.tree.plant Tree.root (.doctype name "" "")).size :=
    planted.size ▸ Nat.le_succ _
  refine ⟨b.read (.doctype d), .single ?_ ?_, ?_, ?_⟩
  · rw [h.content]
    exact lexMarkup_doctype hn b.knowsCdata rest
  · simp only [String.toList_append, List.length_append]
    exact Nat.lt_add_of_pos_left (by simp)
  · rw [read]
    exact ⟨⟨⟨planted.wellFormed, Nat.lt_of_lt_of_le h.root size, h.fostering, fun e he =>
      Nat.lt_of_lt_of_le (h.nodes e he) size⟩, h.html⟩, rfl, h.content, h.openElements, h.formatting, h.form⟩
  · rw [read]
    rfl

/-- The root element and the comments after it are read as they are. -/
theorem reads_root (h : b.BeforeRoot seen) {more : Markup} (ht : e.tag = "html") (he : e.ReadableAs .html)
    (hi : inner.HasSections) (hm : more.IsComments) :
    ∃ b', b.Reads ((Markup.node (.element e) inner more).chars false) b' [] ∧
      b.tree.Sown Tree.root (.node (.element e) inner more) b'.tree ∧ b'.IsBehind .afterAfterBody := by
  have hv : e.tag ∉ voidTags := by rw [ht]; decide
  have hr : rawTextTags.contains e.tag = false := by rw [ht]; decide
  obtain ⟨name, attributes⟩ := e
  cases ht
  have parts := Markup.chars_element ⟨"html", attributes⟩ inner more []
  rw [List.append_nil, if_neg hv, hr, List.append_nil, List.append_assoc] at parts
  rw [parts]
  obtain ⟨b₁, read, root, mode, tree, here⟩ := h.opensRoot attributes
  have planted := h.tree.planted h.root (.element ⟨"html", attributes⟩)
  rw [← tree] at planted
  have opens := reads_startTag h.content he
    (inner.chars false ++ (("</" ++ "html" ++ ">").toList ++ more.chars false))
  rw [he.readTag_eq, read] at opens
  have ends : (("</" ++ "html" ++ ">").toList ++ more.chars false).head?.all (· == '<') := rfl
  obtain ⟨b₂, reads, sown, behind⟩ := root.reads_sections mode hi ends
  rw [here] at sown
  have mode₂ : (b₂.prepared (.endTag ⟨"html", [], false⟩)).mode = .afterBody := behind.mode
  have shut : b₂.read (.endTag ⟨"html", [], false⟩) =
      (b₂.prepared (.endTag ⟨"html", [], false⟩)).withMode .afterAfterBody := by
    refine behind.toSteady.read_eq (fun _ => rfl) ?_
    rw [inMode, mode₂]
    rfl
  have behind₃ : (b₂.read (.endTag ⟨"html", [], false⟩)).IsBehind .afterAfterBody := by
    rw [shut]
    exact ⟨⟨⟨behind.tree, behind.root, behind.fostering, behind.nodes⟩, behind.html⟩, rfl, behind.content⟩
  have sown₃ : b.tree.Sown Tree.root (.node (.element ⟨"html", attributes⟩) inner .nil)
      (b₂.read (.endTag ⟨"html", [], false⟩)).tree := by
    rw [shut]
    exact planted.sown h.tree h.root sown
  obtain ⟨b', comments, adds⟩ := behind₃.toSteady.reads_comments behind₃.content
    (behind₃.mode ▸ by decide) (Nat.lt_of_lt_of_le h.root sown₃.size_le) hm (fun b₄ content hf => by
      have mode₄ : b₄.mode = .afterAfterBody := (congrArg Frame.mode hf).trans behind₃.mode
      rw [inMode, mode₄]
      rfl) []
  rw [List.append_nil] at comments
  have shuts := reads_endTag behind.content he (more.chars false)
  rw [he.readName_eq] at shuts
  exact ⟨b', opens.trans (reads.trans (shuts.trans comments)), sown₃.trans adds.tree h.root,
    behind₃.of_adds (by decide) adds⟩

/-- A page is read as it is. -/
theorem reads_page (h : b.BeforeRoot seen) (hm : m.HasRoot seen) :
    ∃ b', b.Reads (m.chars false) b' [] ∧ b.tree.Sown Tree.root m b'.tree ∧
      b'.IsBehind .afterAfterBody := by
  induction m generalizing b seen with
  | nil => exact hm.elim
  | node data inner more _ ih =>
    cases data with
    | element e => exact h.reads_root hm.1 hm.2.1 hm.2.2.1 hm.2.2.2
    | doctype name publicId systemId =>
      obtain ⟨rfl, hn, rfl, rfl, rfl, hmore⟩ := hm
      obtain ⟨b₁, reads, before, tree⟩ := h.reads_doctype hn (more.chars false)
      have sown := (h.tree.planted h.root (.doctype name "" "")).sown_leaf h.tree h.root
      rw [← tree] at sown
      obtain ⟨b', reads', sown', behind⟩ := ih before hmore
      exact ⟨b', reads.trans reads', sown.trans sown' h.root, behind⟩
    | comment content =>
      obtain ⟨hcontent, rfl, hmore⟩ := hm
      have kept : (b.prepared (.comment content)).inMode (.comment content) =
          ((b.prepared (.comment content)).appendComment Tree.root content).done := by
        have mode : (b.prepared (.comment content)).mode = if seen then .beforeHtml else .initial := h.mode
        rw [inMode, mode]
        cases seen <;> rfl
      have adds := h.toSteady.adds_appendComment h.root kept
      obtain ⟨b', reads', sown, behind⟩ := ih (h.of_adds adds) hmore
      have written := Markup.chars_cons (.comment content) .nil more []
      rw [List.append_nil, List.append_nil] at written
      rw [written]
      exact ⟨b', (reads_comment h.content hcontent _).trans reads', adds.tree.trans sown h.root, behind⟩
    | _ => exact hm.elim

end BeforeRoot

end Builder

end LivePages
