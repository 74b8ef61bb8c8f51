import LivePages.Html.PageContent
import LivePages.Proofs.Dom.Sowing
import LivePages.Proofs.Html.Lexemes

namespace LivePages

namespace Builder

variable {b b' b'' : Builder} {cs rest rest' : List Char} {p : NodeId} {m : Markup} {token : Token}

/-- Reading goes from one place in a text on to a later one. -/
inductive Reads : Builder → List Char → Builder → List Char → Prop
  | refl (b : Builder) (cs : List Char) : Reads b cs b cs
  | step {b b' : Builder} {cs rest rest' : List Char} {tokens : List Token}
    (hl : lexTokens b.content b.lastStartTag b.knowsCdata cs = (tokens, rest))
    (hr : rest.length < cs.length) (h : Reads (tokens.foldl read b) rest b' rest') : Reads b cs b' rest'

theorem Reads.trans (h : b.Reads cs b' rest) (h' : b'.Reads rest b'' rest') : b.Reads cs b'' rest' := by
  induction h with
  | refl => exact h'
  | step hl hr _ ih => exact .step hl hr (ih h')

theorem Reads.one {tokens : List Token}
    (hl : lexTokens b.content b.lastStartTag b.knowsCdata cs = (tokens, rest))
    (hr : rest.length < cs.length) : b.Reads cs (tokens.foldl read b) rest :=
  .step hl hr (.refl _ _)

theorem Reads.single (hl : lexTokens b.content b.lastStartTag b.knowsCdata cs = ([token], rest))
    (hr : rest.length < cs.length) : b.Reads cs (b.read token) rest :=
  .one hl hr

/-- A text that has been read to its end has been read as a whole. -/
theorem Reads.readText (h : b.Reads cs b' []) {bound : Nat} (hb : cs.length < bound) :
    Builder.readText bound b cs = b'.read .endOfFile := by
  generalize hr : ([] : List Char) = rest at h
  induction h generalizing bound with
  | refl =>
    subst hr
    obtain ⟨n, rfl⟩ := Nat.exists_eq_add_of_lt hb
    rfl
  | @step b b' cs rest rest' tokens hl hlt _ ih =>
    cases cs with
    | nil => exact absurd hlt (Nat.not_lt_zero _)
    | cons c cs =>
      obtain ⟨bound, rfl⟩ := Nat.exists_eq_add_of_lt hb
      rw [Builder.readText, hl]
      exact ih (by simp at hlt ⊢; omega) hr

/-! Single tokens. -/

/-- The builder as it is when it turns to a token. -/
def prepared (b : Builder) : Token → Builder
  | .startTag tag => { b with skipLineFeed := false, lastStartTag := tag.name }
  | _ => { b with skipLineFeed := false }

theorem read_eq (hs : b.skipLineFeed → dropLineFeed token = some token) :
    b.read token = settleToken (2 * b.openElements.length + 24) (b.prepared token) token := by
  have kept : (if b.skipLineFeed then dropLineFeed token else some token) = some token := by
    split
    next h => exact hs h
    next => rfl
  cases token <;> simp only [read, kept] <;> rfl

/-- What decides how the next tokens are read, apart from the tree. -/
structure Frame where
  mode : InsertionMode
  content : ContentModel
  fostering : Bool
  openElements : List OpenElement
  formatting : List (Option FormattingElement)
  form : Option NodeId
  templateModes : List InsertionMode

def frame (b : Builder) : Frame :=
  ⟨b.mode, b.content, b.fostering, b.openElements, b.formatting, b.form, b.templateModes⟩

namespace Frame

variable {f f' f'' : Frame}

/-- The frame once a template turns out to hold what stands in the flow of a page. -/
def entered (f : Frame) : Frame :=
  if f.mode = .inTemplate then
    { f with mode := .inBody, templateModes := .inBody :: f.templateModes.tail }
  else f

/-- Nothing is decided anew, except what a template holds. -/
def Leads (f f' : Frame) : Prop :=
  f' = f ∨ f' = f.entered

theorem entered_eq (h : f.mode ≠ .inTemplate) : f.entered = f :=
  if_neg h

theorem entered_template (h : f.mode = .inTemplate) : f.entered =
    { f with mode := .inBody, templateModes := .inBody :: f.templateModes.tail } :=
  if_pos h

theorem entered_mode (f : Frame) : f.entered.mode ≠ .inTemplate := by
  rw [entered]
  split
  next => nofun
  next h => exact h

namespace Leads

theorem refl (f : Frame) : f.Leads f :=
  .inl rfl

theorem of_eq (h : f' = f) : f.Leads f' :=
  .inl h

theorem eq (h : f.Leads f') (hm : f.mode ≠ .inTemplate) : f' = f :=
  h.elim id fun h => h.trans (entered_eq hm)

theorem trans (h : f.Leads f') (h' : f'.Leads f'') : f.Leads f'' := by
  rcases h with rfl | rfl
  · exact h'
  · exact .inr (h'.eq (entered_mode f))

theorem cases_content (h : f.Leads f') : f'.content = f.content ∧ f'.fostering = f.fostering ∧
    f'.openElements = f.openElements ∧ f'.formatting = f.formatting ∧ f'.form = f.form := by
  rcases h with rfl | rfl
  · exact ⟨rfl, rfl, rfl, rfl, rfl⟩
  · rw [entered]
    split <;> exact ⟨rfl, rfl, rfl, rfl, rfl⟩

theorem content (h : f.Leads f') : f'.content = f.content :=
  h.cases_content.1

theorem fostering (h : f.Leads f') : f'.fostering = f.fostering :=
  h.cases_content.2.1

theorem openElements (h : f.Leads f') : f'.openElements = f.openElements :=
  h.cases_content.2.2.1

theorem formatting (h : f.Leads f') : f'.formatting = f.formatting :=
  h.cases_content.2.2.2.1

theorem form (h : f.Leads f') : f'.form = f.form :=
  h.cases_content.2.2.2.2

end Leads

end Frame

@[simp] theorem frame_prepared (b : Builder) (token : Token) : (b.prepared token).frame = b.frame := by
  cases token <;> rfl

@[simp] theorem tree_prepared (b : Builder) (token : Token) : (b.prepared token).tree = b.tree := by
  cases token <;> rfl

@[simp] theorem skipLineFeed_prepared (b : Builder) (token : Token) :
    (b.prepared token).skipLineFeed = false := by
  cases token <;> rfl

/-- The node that content goes to. -/
def here (b : Builder) : NodeId :=
  match b.openElements with
  | [] => Tree.root
  | e :: _ => e.node

theorem here_eq (h : b'.openElements = b.openElements) : b'.here = b.here := by
  rw [here, here, h]

theorem openElements_eq (h : b.frame.Leads b'.frame) : b'.openElements = b.openElements :=
  h.openElements

/-- What is open is part of the page, and what is put into the page goes to where the reader is. -/
structure Sound (b : Builder) : Prop where
  tree : b.tree.WellFormed
  root : Tree.root < b.tree.size
  fostering : b.fostering = false
  nodes : ∀ e ∈ b.openElements, e.node < b.tree.size

/-- A token that needs no second mode is read in one step. -/
theorem read_eq_of_inMode (hf : b.isForeign token = false) (hs : b.skipLineFeed → dropLineFeed token = some token)
    (hm : (b.prepared token).inMode token = b'.done) : b.read token = b' := by
  have foreign : (b.prepared token).isForeign token = b.isForeign token := by cases token <;> rfl
  rw [read_eq hs, settleToken, foreign, hf, if_neg Bool.false_ne_true, hm]
  rfl

/-- A token of foreign content is read in one step. -/
theorem read_eq_of_inForeign (hf : b.isForeign token) (hs : b.skipLineFeed → dropLineFeed token = some token)
    (hm : (b.prepared token).inForeign token = b'.done) : b.read token = b' := by
  have foreign : (b.prepared token).isForeign token = b.isForeign token := by cases token <;> rfl
  rw [read_eq hs, settleToken, foreign, if_pos hf, hm]
  rfl

namespace Sound

theorem of_leads (h : b.Sound) (hf : b.frame.Leads b'.frame) (ht : b'.tree.WellFormed)
    (hs : b.tree.size ≤ b'.tree.size) : b'.Sound where
  tree := ht
  root := Nat.lt_of_lt_of_le h.root hs
  fostering := hf.fostering.trans h.fostering
  nodes e he := Nat.lt_of_lt_of_le (h.nodes e (openElements_eq hf ▸ he)) hs

theorem here_lt (h : b.Sound) : b.here < b.tree.size := by
  rw [here]
  split
  next => exact h.root
  next e es he => exact h.nodes e (he ▸ List.mem_cons_self)

theorem place_eq (h : b.Sound) : b.place = .lastIn b.here := by
  rw [place, here]
  cases b.openElements with
  | nil => rfl
  | cons e es =>
    dsimp only
    rw [placeIn, h.fostering]
    rfl

theorem insertForeignClosed_eq (h : b.Sound) (tag : Tag) : b.insertForeignClosed .html tag =
    ({ b with tree := b.tree.plant b.here (.element ⟨tag.name, tag.attributes⟩) },
      ⟨b.tree.size, .html, tag.name, false⟩) := by
  rw [insertForeignClosed, h.place_eq]
  rfl

theorem insertVoid_eq (h : b.Sound) (tag : Tag) : b.insertVoid tag =
    { b with tree := b.tree.plant b.here (.element ⟨tag.name, tag.attributes⟩) } := by
  rw [insertVoid, h.insertForeignClosed_eq]

theorem insertElement_eq (h : b.Sound) (tag : Tag) : b.insertElement tag =
    { b with
      tree := b.tree.plant b.here (.element ⟨tag.name, tag.attributes⟩)
      openElements := ⟨b.tree.size, .html, tag.name, false⟩ :: b.openElements } := by
  rw [insertElement, insertForeign, h.insertForeignClosed_eq]
  rfl

theorem insertComment_eq (h : b.Sound) (content : String) : b.insertComment content =
    { b with tree := b.tree.plant b.here (.comment content) } := by
  have hp : ({ b with tree := (b.tree.create (.comment content)).1 } : Builder).putAt (.lastIn b.here)
      b.tree.size = { b with tree := b.tree.plant b.here (.comment content) } := rfl
  rw [insertComment, h.place_eq]
  exact hp

/-- A new node is open. -/
theorem opening (h : b.Sound) {e : OpenElement} {data : NodeData} (hf : b'.fostering = b.fostering)
    (ht : b'.tree = b.tree.plant b.here data) (ho : b'.openElements = e :: b.openElements)
    (he : e.node = b.tree.size) : b'.Sound := by
  have planted := h.tree.planted h.here_lt data
  rw [← ht] at planted
  refine ⟨planted.wellFormed, planted.size ▸ Nat.succ_pos _, hf.trans h.fostering, ?_⟩
  rw [ho, List.forall_mem_cons, planted.size, he]
  exact ⟨Nat.lt_succ_self _, fun e' he' => Nat.lt_succ_of_lt (h.nodes e' he')⟩

end Sound

/-- Only HTML is open. -/
structure Steady (b : Builder) : Prop extends b.Sound where
  html : ∀ e ∈ b.openElements, e.vocabulary = .html

namespace Steady

theorem of_leads (h : b.Steady) (hf : b.frame.Leads b'.frame) (ht : b'.tree.WellFormed)
    (hs : b.tree.size ≤ b'.tree.size) : b'.Steady where
  toSound := h.toSound.of_leads hf ht hs
  html e he := h.html e (openElements_eq hf ▸ he)

theorem prepared (h : b.Steady) (token : Token) : (b.prepared token).Steady :=
  h.of_leads (.of_eq (frame_prepared b token)) (tree_prepared b token ▸ h.tree)
    (tree_prepared b token ▸ Nat.le_refl _)

theorem not_isForeign (h : b.Steady) (token : Token) : b.isForeign token = false := by
  rw [isForeign]
  split
  next => rfl
  next e es he => rw [h.html e (he ▸ List.mem_cons_self)]; rfl

theorem read_eq (h : b.Steady) (hs : b.skipLineFeed → dropLineFeed token = some token)
    (hm : (b.prepared token).inMode token = b'.done) : b.read token = b' :=
  read_eq_of_inMode (h.not_isForeign token) hs hm

/-- A token that needs one more mode is read in two steps. -/
theorem read_eq_again (h : b.Steady) {b₁ : Builder} (hs : b.skipLineFeed → dropLineFeed token = some token)
    (hm : (b.prepared token).inMode token = (b₁, .again)) (h₁ : b₁.Steady)
    (hm₁ : b₁.inMode token = b'.done) : b.read token = b' := by
  rw [Builder.read_eq hs, settleToken, (h.prepared token).not_isForeign, if_neg Bool.false_ne_true, hm]
  dsimp only
  rw [settleToken, h₁.not_isForeign, if_neg Bool.false_ne_true, hm₁]
  rfl

end Steady

/-- No text is the last thing where the reader is. -/
def NoTextLast (b : Builder) : Prop :=
  ∀ id, b.tree.lastChild? b.here = some id → b.tree.text? id = none

theorem Sound.insertText_new (h : b.Sound) (hl : b.NoTextLast) (text : String) : b.insertText text =
    { b with tree := b.tree.plant b.here (.text text) } := by
  have none : ((b.tree.lastChild? b.here).bind fun id =>
      (b.tree.text? id).map fun old => (id, old)) = none := by
    rw [Option.bind_eq_none_iff]
    intro id hid
    rw [hl id hid]
    rfl
  rw [insertText, h.place_eq]
  simp only [settle, none]
  rfl

theorem Sound.insertText_more (h : b.Sound) {id : NodeId} {old : String}
    (hl : b.tree.lastChild? b.here = some id) (ho : b.tree.text? id = some old) (text : String) :
    b.insertText text =
      { b with tree := b.tree.update id fun n => { n with data := .text (old ++ text) } } := by
  rw [insertText, h.place_eq]
  simp only [settle, hl, Option.bind_some, ho, Option.map_some]

/-- Content has been added in one place, and the reader is where it was. -/
structure Adds (b : Builder) (p : NodeId) (m : Markup) (b' : Builder) : Prop where
  frame : b.frame.Leads b'.frame
  tree : b.tree.Sown p m b'.tree
  settled : b'.skipLineFeed → b.skipLineFeed ∧ m = .nil

namespace Adds

theorem refl (h : b.tree.WellFormed) (p : NodeId) : b.Adds p .nil b :=
  ⟨.refl _, .refl h p, fun hs => ⟨hs, rfl⟩⟩

theorem trans (h : b.Adds p m b') {m' : Markup} (h' : b'.Adds p m' b'') (hp : p < b.tree.size) :
    b.Adds p (m.append m') b'' where
  frame := h.frame.trans h'.frame
  tree := h.tree.trans h'.tree hp
  settled hs := by
    obtain ⟨hs, rfl⟩ := h'.settled hs
    obtain ⟨hs, rfl⟩ := h.settled hs
    exact ⟨hs, rfl⟩

theorem of_plant (h : b.tree.WellFormed) (hp : p < b.tree.size) {data : NodeData} (hf : b'.frame = b.frame)
    (hs : b'.skipLineFeed = false) (ht : b'.tree = b.tree.plant p data) :
    b.Adds p (.node data .nil .nil) b' where
  frame := .of_eq hf
  tree := ht ▸ (h.planted hp data).sown_leaf h hp
  settled h := by rw [hs] at h; cases h

/-- After a node nothing is left to be dropped. -/
theorem skipLineFeed {data : NodeData} {inner : Markup} (h : b.Adds p (.node data inner m) b') :
    b'.skipLineFeed = false := by
  rw [← Bool.not_eq_true]
  exact fun hs => nomatch (h.settled hs).2

theorem here (h : b.Adds p m b') : b'.here = b.here :=
  here_eq (openElements_eq h.frame)

theorem frame_eq (h : b.Adds p m b') (hm : b.mode ≠ .inTemplate) : b'.frame = b.frame :=
  h.frame.eq hm

theorem steady (h : b.Adds p m b') (hb : b.Steady) : b'.Steady :=
  hb.of_leads h.frame h.tree.wellFormed h.tree.size_le

end Adds

/-! Text. -/

/-- Characters go into the page as they are. -/
def TakesText (b : Builder) : Prop :=
  ∀ (b' : Builder) (run : String) (token : Token), token = .space run ∨ token = .text run →
    b'.frame = b.frame → b'.tree.WellFormed → b.tree.size ≤ b'.tree.size → b'.skipLineFeed = false →
      ∃ allowed, b'.read token = { b' with framesetAllowed := allowed }.insertText run

theorem read_prepared (hs : b.skipLineFeed → dropLineFeed token = some token) :
    b.read token = (b.prepared token).read token := by
  have again : (b.prepared token).prepared token = b.prepared token := by cases token <;> rfl
  have opened : (b.prepared token).openElements = b.openElements := congrArg Frame.openElements (frame_prepared b token)
  rw [read_eq hs, read_eq (b := b.prepared token), again, opened]
  intro h
  rw [skipLineFeed_prepared] at h
  cases h

/-- The token for a run of spaces or of other characters. -/
def runToken (run : Bool × List Char) : Token :=
  if run.1 then .space (String.ofList run.2) else .text (String.ofList run.2)

theorem runToken_cases (run : Bool × List Char) :
    runToken run = .space (String.ofList run.2) ∨ runToken run = .text (String.ofList run.2) := by
  rw [runToken]
  split
  next => exact .inl rfl
  next => exact .inr rfl

theorem runToken_kept {run : Bool × List Char} (h : run.2.head? ≠ some '\n') :
    dropLineFeed (runToken run) = some (runToken run) := by
  rw [runToken]
  split
  next =>
    rw [dropLineFeed, String.toList_ofList]
    split
    next e => rw [e] at h; exact absurd rfl h
    next e => rw [e] at h; exact absurd rfl h
    next => rfl
  next => rfl

theorem spaceTokens_eq (cs : List Char) : spaceTokens cs = (runsBy isHtmlSpace cs).map runToken :=
  rfl

theorem flatten_runsBy {κ : Type} [DecidableEq κ] (kind : Char → κ) (cs : List Char) :
    (runsBy kind cs).flatMap Prod.snd = cs := by
  induction cs with
  | nil => rfl
  | cons c cs ih =>
    rw [runsBy]
    split
    next k run more e =>
      rw [e] at ih
      split <;> simpa using ih
    next e =>
      rw [e] at ih
      rw [← ih]
      rfl

theorem nil_not_mem_runsBy {κ : Type} [DecidableEq κ] (kind : Char → κ) (cs : List Char) (k : κ) :
    (k, []) ∉ runsBy kind cs := by
  induction cs with
  | nil => exact List.not_mem_nil
  | cons c cs ih =>
    rw [runsBy]
    split
    next k' run more e =>
      rw [e] at ih
      split <;> simp_all
    next e => simp

/-- Further characters make the text longer that has just been added. -/
theorem TakesText.more (ht : b.TakesText) (h : b.Sound) {text : String} (hf : b'.frame = b.frame)
    (hs : b'.skipLineFeed = false) (hb : b.tree.Planted b.here (.text text) b'.tree)
    (runs : List (Bool × List Char)) :
    ∃ b'', (runs.map runToken).foldl read b' = b'' ∧ b''.frame = b.frame ∧ b''.skipLineFeed = false ∧
      b''.returnMode = b'.returnMode ∧ b''.lastStartTag = b'.lastStartTag ∧
      b.tree.Planted b.here (.text (text ++ String.ofList (runs.flatMap Prod.snd))) b''.tree := by
  induction runs generalizing b' text with
  | nil => exact ⟨b', rfl, hf, hs, rfl, rfl, by simpa using hb⟩
  | cons run runs ih =>
    have size : b.tree.size ≤ b'.tree.size := hb.size ▸ Nat.le_succ _
    obtain ⟨allowed, hr⟩ := ht b' (String.ofList run.2) (runToken run) (runToken_cases run) hf hb.wellFormed
      size hs
    have sound : ({ b' with framesetAllowed := allowed } : Builder).Sound := h.of_leads (.of_eq hf) hb.wellFormed size
    have last : b'.tree.lastChild? b'.here = some b.tree.size := by
      rw [here_eq (congrArg Frame.openElements hf), hb.lastChild?]
    have old : b'.tree.text? b.tree.size = some text := by
      rw [Tree.text?, hb.data?, if_pos rfl]
      rfl
    rw [List.map_cons, List.foldl_cons, hr, sound.insertText_more last old, List.flatMap_cons,
      String.ofList_append, ← String.append_assoc]
    exact ih hf hs (hb.extend (text ++ String.ofList run.2))

/-- Character data become one text. -/
theorem TakesText.adds (ht : b.TakesText) (h : b.Sound) (hl : b.NoTextLast) (hne : cs ≠ [])
    (hs : b.skipLineFeed → cs.head? ≠ some '\n') :
    ∃ b', (spaceTokens cs).foldl read b = b' ∧ b'.returnMode = b.returnMode ∧
      b'.lastStartTag = b.lastStartTag ∧ b.Adds b.here (.node (.text (String.ofList cs)) .nil .nil) b' := by
  have whole := flatten_runsBy isHtmlSpace cs
  have full := nil_not_mem_runsBy isHtmlSpace cs
  rw [spaceTokens_eq]
  cases hr : runsBy isHtmlSpace cs with
  | nil =>
    rw [hr] at whole
    exact absurd whole.symm hne
  | cons run runs =>
    rw [hr] at whole full
    obtain ⟨k, chars⟩ := run
    have kept : b.skipLineFeed → dropLineFeed (runToken (k, chars)) = some (runToken (k, chars)) := by
      refine fun hb => runToken_kept fun e => hs hb ?_
      cases chars with
      | nil => exact absurd List.mem_cons_self (full k)
      | cons c chars =>
        rw [← whole]
        exact e
    -- The token is read where a line feed is not dropped.
    let ready : Builder := { b with skipLineFeed := false }
    have turned : b.prepared (runToken (k, chars)) = ready := by
      rcases runToken_cases (k, chars) with e | e <;> rw [e] <;> rfl
    obtain ⟨allowed, hr⟩ := ht ready (String.ofList chars) _ (runToken_cases (k, chars)) rfl h.tree
      (Nat.le_refl _) rfl
    have sound : ({ ready with framesetAllowed := allowed } : Builder).Sound :=
      h.of_leads (.of_eq rfl) h.tree (Nat.le_refl _)
    have begun : ({ ready with
        framesetAllowed := allowed
        tree := b.tree.plant b.here (.text (String.ofList chars)) } : Builder).frame = b.frame := rfl
    obtain ⟨b', hb, hf, hs, hm, he, hp⟩ := ht.more h begun rfl (h.tree.planted h.here_lt _) runs
    have joined : chars ++ runs.flatMap Prod.snd = cs := whole
    rw [← String.ofList_append, joined] at hp
    rw [List.map_cons, List.foldl_cons, read_prepared kept, turned, hr, sound.insertText_new hl]
    exact ⟨b', hb, hm, he, .of_eq hf, hp.sown_leaf h.tree h.here_lt, fun hb => by rw [hs] at hb; cases hb⟩

end Builder

end LivePages
