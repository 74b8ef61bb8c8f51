import LivePages.Proofs.Html.Lexemes

namespace LivePages

/-- How the content of an element is read that holds nothing but text. -/
def textModel? (name : String) : Option ContentModel :=
  if name = "script" then some .script
  else if ["title", "textarea"].contains name then some .escapable
  else if ["style", "iframe", "noembed", "noframes", "noscript"].contains name then some .raw
  else none

theorem mem_of_textModel? {name : String} {model : ContentModel} (h : textModel? name = some model) :
    name ∈ ["script", "title", "textarea", "style", "iframe", "noembed", "noframes", "noscript"] := by
  by_contra hn
  simp only [List.mem_cons, not_or] at hn
  simp [textModel?, hn] at h

/-- Elements of the flow of a page, by what their tags do to what is open. -/
inductive FlowKind where
  | paragraph
  | block
  | heading
  | formatting
  | item (names : List String)
  | preformatted
  | button
  | form
  /-- An element that shuts out the formatting elements around it. -/
  | embedded
  /-- A part of an annotation, which ends other parts but one. -/
  | annotation (names : List String) (kept : String)
  | choice
  | other
  deriving DecidableEq

namespace FlowKind

def tags : FlowKind → List String
  | paragraph => ["p"]
  | block => blockTags.erase "p"
  | heading => headingTags
  | formatting => "a" :: "nobr" :: formattingTags
  | item names => names
  | preformatted => ["listing", "pre"]
  | button => ["button"]
  | form => ["form"]
  | embedded => ["applet", "marquee", "object"]
  | annotation names _ => names
  | choice => ["optgroup", "option"]
  | other => []

/-- The kinds of elements that are not read like any other. -/
def ruled : List FlowKind :=
  [paragraph, block, heading, formatting, item ["li"], item ["dd", "dt"], preformatted, button, form,
    embedded, annotation ["rb", "rtc"] "", annotation ["rp", "rt"] "rtc", choice]

end FlowKind

/-- Elements that stand in places of their own, have no content, or have no markup in it. -/
def placedTags : List String :=
  voidTags ++ headContentTags ++
    ["body", "caption", "colgroup", "frame", "frameset", "head", "html", "iframe", "image", "keygen",
      "math", "noembed", "noscript", "plaintext", "select", "svg", "table", "tbody", "td", "textarea",
      "tfoot", "th", "thead", "tr", "xmp"]

/-- The tags that are not read like any other. -/
def ruledTags : List String :=
  FlowKind.ruled.flatMap FlowKind.tags ++ placedTags

def flowKind? (name : String) : Option FlowKind :=
  match FlowKind.ruled.find? (·.tags.contains name) with
  | some kind => some kind
  | none => if placedTags.contains name then none else some .other

/-- What the kind of an element says of its name. -/
def FlowKind.Names (kind : FlowKind) (name : String) : Prop :=
  kind ∈ ruled ∧ name ∈ kind.tags ∨ kind = .other ∧ name ∉ ruledTags

theorem names_of_flowKind? {name : String} {kind : FlowKind} (h : flowKind? name = some kind) :
    kind.Names name := by
  unfold flowKind? at h
  split at h
  next found =>
    cases h
    have listed := List.find?_some (p := fun kind : FlowKind => kind.tags.contains name) found
    exact .inl ⟨List.mem_of_find?_eq_some found, List.contains_iff_mem.mp listed⟩
  next none =>
    split at h
    next => cases h
    next placed =>
      cases h
      refine .inr ⟨rfl, fun hm => ?_⟩
      rw [ruledTags, List.mem_append, List.mem_flatMap] at hm
      rcases hm with ⟨kind, hk, hn⟩ | hn
      · exact List.find?_eq_none.mp none kind hk (List.contains_iff_mem.mpr hn)
      · exact placed (List.contains_iff_mem.mpr hn)

/-! What is open. -/

/-- Elements that nothing inside them looks beyond for what is open. -/
def boundaryTags : List String :=
  ["applet", "caption", "marquee", "object", "td", "template", "th"]

/-- The names of open elements up to the innermost boundary, the innermost first. -/
def within (around : List String) : List String :=
  around.takeWhile fun name => !boundaryTags.contains name

/-- Whether an item would end one of the open elements. -/
def endsItem (names around : List String) : Bool :=
  (around.find? fun n => names.contains n ||
    (specialTags.contains n && !(["address", "div", "p"].contains n))).any names.contains

/-- Whether an element can stand among open ones without closing any. -/
def FlowKind.fits (name : String) (around : List String) : FlowKind → Bool
  | paragraph => !(within around).contains "p"
  | block => !(within around).contains "p"
  | heading => !(within around).contains "p" && !(around.head?.any headingTags.contains)
  | formatting => !(within around).contains name
  | item names => !(within around).contains "p" && !endsItem names around
  | preformatted => !(within around).contains "p"
  | button => !(within around).contains "button"
  | form => !(within around).contains "p" && !around.contains "form" && !around.contains "template"
  | embedded => true
  | annotation _ kept =>
    !(within around).contains "ruby" || around.head?.all fun n => n == kept || !impliedEndTags.contains n
  | choice => around.head? != some "option"
  | other => true

/-! Parts of a page. -/

/-- The parts of a page, by how what stands in them is read. -/
inductive Region where
  | head
  | flow
  | choices
  | table
  | columns
  | rows
  | cells
  | foreign (vocabulary : Vocabulary)
  /-- Content of a foreign element that is read like the flow around. -/
  | label
  deriving DecidableEq

/-- What an element holds: nothing, text that is read in a way of its own, or a part of a page. -/
inductive Filling where
  | nothing
  | text (model : ContentModel)
  | content (region : Region)
  deriving DecidableEq

namespace Region

variable (around : List String) (e : Element)

def headFilling? : Option Filling :=
  if ["base", "link", "meta"].contains e.tag then some .nothing
  else if e.tag = "template" then some (.content .flow)
  else if ["textarea", "iframe", "noembed"].contains e.tag then none
  else (textModel? e.tag).map .text

def flowFilling? : Option Filling :=
  if voidTags.contains e.tag then
    if e.tag = "col" ∨ e.tag = "hr" ∧ (within around).contains "p" then none else some .nothing
  else
    match textModel? e.tag with
    | some model => some (.text model)
    | none =>
      if e.tag = "table" then if (within around).contains "p" then none else some (.content .table)
      else if e.tag = "select" then some (.content .choices)
      else if e.tag = "template" then some (.content .flow)
      else if e.tag = "svg" then some (.content (.foreign .svg))
      else if e.tag = "math" then some (.content (.foreign .mathml))
      else
        match flowKind? e.tag with
        | some kind => if kind.fits e.tag around then some (.content .flow) else none
        | none => none

def choicesFilling? : Option Filling :=
  let inGroup := around.head?.any ["optgroup", "option"].contains
  if e.tag = "hr" then if inGroup then none else some .nothing
  else if e.tag = "script" then some (.text .script)
  else if e.tag = "option" then
    if around.head? = some "option" then none else some (.content .choices)
  else if e.tag = "optgroup" then if inGroup then none else some (.content .choices)
  else none

/-- What can stand in a part of a table: its own parts, and some elements that show nothing. -/
def tableFilling? (parts : List String) (region : Region) : Option Filling :=
  if parts.contains e.tag then some (.content region)
  else if e.tag = "template" then some (.content .flow)
  else if e.tag = "script" then some (.text .script)
  else if e.tag = "style" then some (.text .raw)
  else if e.tag = "input" ∧ Builder.isHiddenInput ⟨e.tag, e.attributes, false⟩ then some .nothing
  else none

def columnsFilling? : Option Filling :=
  if e.tag = "col" then some .nothing
  else if e.tag = "template" then some (.content .flow)
  else none

/-- Foreign elements whose content is read like the flow around them. -/
def isLabel (tag : String) : Vocabulary → Bool
  | .html => false
  | .svg => svgHtmlTags.contains tag
  | .mathml => mathmlTextTags.contains tag

def foreignFilling? (v : Vocabulary) : Option Filling :=
  let name := readName e.tag
  if voidTags.contains e.tag ∨ foreignBreakerTags.contains name ∨ name = "font" ∨
      name = "annotation-xml" then none
  else some (.content (if isLabel e.tag v then .label else .foreign v))

/-- What an element may hold inside open ones; `around` has their names, the innermost first. -/
def filling? : Region → Option Filling
  | head => headFilling? e
  | flow => flowFilling? around e
  | choices => choicesFilling? around e
  | table =>
    if e.tag = "caption" then some (.content .flow)
    else if e.tag = "colgroup" then some (.content .columns)
    else tableFilling? e ["tbody", "tfoot", "thead"] .rows
  | columns => columnsFilling? e
  | rows => tableFilling? e ["tr"] .cells
  | cells => tableFilling? e ["td", "th"] .flow
  | foreign v => foreignFilling? e v
  | label => none

def isTable : Region → Bool
  | table => true
  | rows => true
  | cells => true
  | _ => false

/-- The elements of a head that also stand in another part of a page. -/
def headContent : Region → List String
  | head => headContentTags
  | flow => headContentTags
  | choices => ["script"]
  | table => ["script", "style", "template"]
  | columns => ["template"]
  | rows => ["script", "style", "template"]
  | cells => ["script", "style", "template"]
  | foreign _ => []
  | label => []

theorem mem_of_mem_headContent {region : Region} {name : String} (h : name ∈ region.headContent) : name ∈ headContentTags := by
  have listed : ∀ n ∈ region.headContent, n ∈ headContentTags := by
    cases region <;> simp [headContent, headContentTags]
  exact listed _ h

/-- The rules for what an element may hold. -/
inductive Fills (around : List String) (e : Element) : Region → Filling → Prop
  | headVoid (ht : e.tag ∈ ["base", "link", "meta"]) : Fills around e head .nothing
  | flowVoid (hv : e.tag ∈ voidTags) (hc : e.tag ≠ "col") (hr : e.tag = "hr" → "p" ∉ within around) :
    Fills around e flow .nothing
  | rule (ht : e.tag = "hr") (hn : around.head?.any ["optgroup", "option"].contains = false) :
    Fills around e choices .nothing
  | column (ht : e.tag = "col") : Fills around e columns .nothing
  | hidden {region : Region} (hr : region.isTable) (ht : e.tag = "input")
    (hh : Builder.isHiddenInput ⟨e.tag, e.attributes, false⟩) : Fills around e region .nothing
  | noscript {model : ContentModel} (ht : e.tag = "noscript") (hm : textModel? e.tag = some model) :
    Fills around e head (.text model)
  | text {model : ContentModel} (hm : textModel? e.tag = some model) : Fills around e flow (.text model)
  | headText {region : Region} {model : ContentModel} (hn : e.tag ∈ region.headContent)
    (hm : textModel? e.tag = some model) : Fills around e region (.text model)
  | template {region : Region} (hn : e.tag ∈ region.headContent) (hr : region ≠ choices)
    (ht : e.tag = "template") : Fills around e region (.content flow)
  | table (ht : e.tag = "table") (hp : "p" ∉ within around) : Fills around e flow (.content table)
  | select (ht : e.tag = "select") : Fills around e flow (.content choices)
  | svg (ht : e.tag = "svg") : Fills around e flow (.content (foreign .svg))
  | math (ht : e.tag = "math") : Fills around e flow (.content (foreign .mathml))
  | kind {kind : FlowKind} (hk : flowKind? e.tag = some kind) (hf : kind.fits e.tag around) :
    Fills around e flow (.content flow)
  | option (ht : e.tag = "option") (hn : around.head? ≠ some "option") :
    Fills around e choices (.content choices)
  | group (ht : e.tag = "optgroup") (hn : around.head?.any ["optgroup", "option"].contains = false) :
    Fills around e choices (.content choices)
  | caption (ht : e.tag = "caption") : Fills around e table (.content flow)
  | columns (ht : e.tag = "colgroup") : Fills around e table (.content columns)
  | rows (ht : ["tbody", "tfoot", "thead"].contains e.tag) : Fills around e table (.content rows)
  | cells (ht : ["tr"].contains e.tag) : Fills around e rows (.content cells)
  | cell (ht : ["td", "th"].contains e.tag) : Fills around e cells (.content flow)
  | label {v : Vocabulary} (hv : e.tag ∉ voidTags) (hb : readName e.tag ∉ foreignBreakerTags)
    (hf : readName e.tag ≠ "font") (ha : readName e.tag ≠ "annotation-xml") (hl : isLabel e.tag v) :
    Fills around e (foreign v) (.content label)
  | foreign {v : Vocabulary} (hv : e.tag ∉ voidTags) (hb : readName e.tag ∉ foreignBreakerTags)
    (hf : readName e.tag ≠ "font") (ha : readName e.tag ≠ "annotation-xml") (hl : isLabel e.tag v = false) :
    Fills around e (foreign v) (.content (foreign v))

section Fills

variable {around : List String} {e : Element} {filling : Filling}

theorem fills_of_headFilling? (h : headFilling? e = some filling) : head.Fills around e filling := by
  unfold headFilling? at h
  split at h
  next ht =>
    cases h
    exact .headVoid (List.contains_iff_mem.mp ht)
  split at h
  next ht =>
    cases h
    exact .template (by rw [ht]; decide) nofun ht
  split at h
  next => cases h
  next hn =>
    obtain ⟨model, hm, rfl⟩ := Option.map_eq_some_iff.mp h
    have sorted : ∀ n ∈ ["script", "title", "textarea", "style", "iframe", "noembed", "noframes", "noscript"],
        n ∉ ["textarea", "iframe", "noembed"] → n = "noscript" ∨ n ∈ head.headContent := by decide
    rcases sorted _ (mem_of_textModel? hm) (fun hl => hn (List.contains_iff_mem.mpr hl)) with ht | ht
    · exact .noscript ht hm
    · exact .headText ht hm

theorem fills_of_flowFilling? (h : flowFilling? around e = some filling) : flow.Fills around e filling := by
  unfold flowFilling? at h
  split at h
  next hv =>
    split at h
    next => cases h
    next hn =>
      cases h
      rw [not_or, not_and] at hn
      exact .flowVoid (List.contains_iff_mem.mp hv) hn.1 fun e hp => hn.2 e (List.contains_iff_mem.mpr hp)
  split at h
  next model hm =>
    cases h
    exact .text hm
  split at h
  next ht =>
    split at h
    next => cases h
    next hp =>
      cases h
      exact .table ht fun hm => hp (List.contains_iff_mem.mpr hm)
  split at h
  next ht =>
    cases h
    exact .select ht
  split at h
  next ht =>
    cases h
    exact .template (by rw [ht]; decide) nofun ht
  split at h
  next ht =>
    cases h
    exact .svg ht
  split at h
  next ht =>
    cases h
    exact .math ht
  split at h
  next kind hk =>
    split at h
    next hf =>
      cases h
      exact .kind hk hf
    next => cases h
  next => cases h

theorem fills_of_choicesFilling? (h : choicesFilling? around e = some filling) :
    choices.Fills around e filling := by
  unfold choicesFilling? at h
  dsimp only at h
  split at h
  next ht =>
    split at h
    next => cases h
    next hn =>
      cases h
      exact .rule ht (Bool.not_eq_true _ ▸ hn)
  split at h
  next ht =>
    cases h
    exact .headText (by rw [ht]; decide) (by rw [ht]; rfl)
  split at h
  next ht =>
    split at h
    next => cases h
    next hn =>
      cases h
      exact .option ht hn
  split at h
  next ht =>
    split at h
    next => cases h
    next hn =>
      cases h
      exact .group ht (Bool.not_eq_true _ ▸ hn)
  next => cases h

theorem fills_of_tableFilling? {parts : List String} {region part : Region}
    (hr : region.isTable) (hp : parts.contains e.tag → region.Fills around e (.content part))
    (h : tableFilling? e parts part = some filling) : region.Fills around e filling := by
  have listed (n : String) (hn : n ∈ ["script", "style", "template"]) : n ∈ region.headContent := by
    cases region with
    | table => exact hn
    | rows => exact hn
    | cells => exact hn
    | _ => cases hr
  unfold tableFilling? at h
  split at h
  next ht =>
    cases h
    exact hp ht
  split at h
  next ht =>
    cases h
    refine .template (by rw [ht]; exact listed _ (by decide)) ?_ ht
    rintro rfl
    cases hr
  split at h
  next ht =>
    cases h
    exact .headText (by rw [ht]; exact listed _ (by decide)) (by rw [ht]; rfl)
  split at h
  next ht =>
    cases h
    exact .headText (by rw [ht]; exact listed _ (by decide)) (by rw [ht]; rfl)
  split at h
  next ht =>
    cases h
    exact .hidden hr ht.1 ht.2
  next => cases h

theorem fills_of_columnsFilling? (h : columnsFilling? e = some filling) : columns.Fills around e filling := by
  unfold columnsFilling? at h
  split at h
  next ht =>
    cases h
    exact .column ht
  split at h
  next ht =>
    cases h
    exact .template (by rw [ht]; decide) nofun ht
  next => cases h

theorem fills_of_foreignFilling? {v : Vocabulary} (h : foreignFilling? e v = some filling) :
    (foreign v).Fills around e filling := by
  unfold foreignFilling? at h
  simp only [List.contains_eq_mem, decide_eq_true_eq] at h
  split at h
  next => cases h
  next hn =>
    rw [not_or, not_or, not_or] at hn
    cases h
    obtain ⟨hv, hb, hf, ha⟩ := hn
    split
    next hl => exact .label hv hb hf ha hl
    next hl => exact .foreign hv hb hf ha (Bool.not_eq_true _ ▸ hl)

theorem fills_of_filling? {region : Region} (h : region.filling? around e = some filling) :
    region.Fills around e filling := by
  cases region with
  | head => exact fills_of_headFilling? h
  | flow => exact fills_of_flowFilling? h
  | choices => exact fills_of_choicesFilling? h
  | table =>
    rw [filling?] at h
    split at h
    next ht =>
      cases h
      exact .caption ht
    split at h
    next ht =>
      cases h
      exact .columns ht
    next => exact fills_of_tableFilling? rfl .rows h
  | columns => exact fills_of_columnsFilling? h
  | rows => exact fills_of_tableFilling? rfl .cells h
  | cells => exact fills_of_tableFilling? rfl .cell h
  | foreign v => exact fills_of_foreignFilling? h
  | label => cases h

end Fills

/-- The vocabulary of an element. -/
def vocabulary (name : String) : Region → Vocabulary
  | foreign v => v
  | _ => if name = "svg" then .svg else if name = "math" then .mathml else .html

/-- The regions in which there is no text but spaces. -/
def isSpaced : Region → Bool
  | head => true
  | table => true
  | columns => true
  | rows => true
  | cells => true
  | _ => false

end Region

namespace Markup

/-- One text, or none where it would be empty. -/
def ofText (text : String) : Markup :=
  if text = "" then nil else node (.text text) nil nil

def text : Markup → String
  | node (.text content) _ _ => content
  | _ => ""

/-- Whether a text is read as it is written in an element that holds nothing but text. -/
def isVerbatim (name text : String) : ContentModel → Bool
  | .script => !hasEndTag name text.toList && !decide ("<!--".toList <:+: text.toList)
  | .raw => !hasEndTag name text.toList && (rawTextTags.contains name || escapeText text == text)
  | .escapable => name != "textarea" || text.toList.head? != some '\n'
  | _ => false

/-- The content of an element that holds nothing but text. -/
def IsTextOf (name : String) (model : ContentModel) (m : Markup) : Prop :=
  m = ofText m.text ∧ isReadText m.text ∧ isVerbatim name m.text model

/-- What begins with a line feed loses it where the first one is dropped. -/
def startsWithLineFeed (m : Markup) : Bool :=
  m.text.toList.head? == some '\n'

/-- A run of spaces and nothing else. -/
def isSpaces (text : String) : Bool :=
  text != "" && text.toList.all isHtmlSpace

/-- What an element may hold inside open ones; `content` says what can stand in it as a part of the
page. -/
def MayHold (region : Region) (around : List String) (e : Element) (inner : Markup)
    (content : Region → Prop) : Prop :=
  match region.filling? around e with
  | some .nothing => inner = nil
  | some (.text model) => inner.IsTextOf e.tag model
  | some (.content part) =>
    (flowKind? e.tag = some .preformatted → ¬ inner.startsWithLineFeed) ∧
      inner.chars (rawTextTags.contains e.tag) = inner.chars false ∧ content part
  | none => False

/-- Content that can stand in a part of a page, inside open elements with the given names, the
innermost first: every element is read where it is written, and closed by its own end tag. -/
def Fits : Region → List String → Markup → Prop
  | _, _, nil => True
  | region, around, node data inner rest => rest.Fits region around ∧
    match data with
    | .element e => e.ReadableAs (region.vocabulary e.tag) ∧
      MayHold region around e inner fun part => inner.Fits part (e.tag :: around)
    | .text content => (content ≠ "" ∧ isReadText content ∧ (region.isSpaced → isSpaces content)) ∧
      inner = nil ∧ ¬ rest.StartsWithText
    | .comment content => isReadComment content ∧ inner = nil
    | _ => False

instance (name : String) (model : ContentModel) (m : Markup) : Decidable (m.IsTextOf name model) :=
  inferInstanceAs (Decidable (_ ∧ _ ∧ _))

instance (region : Region) (around : List String) (e : Element) (inner : Markup) (content : Region → Prop)
    [DecidablePred content] : Decidable (MayHold region around e inner content) :=
  match h : region.filling? around e with
  | some .nothing => decidable_of_iff (inner = nil) (by rw [MayHold, h])
  | some (.text model) => decidable_of_iff (inner.IsTextOf e.tag model) (by rw [MayHold, h])
  | some (.content part) =>
    decidable_of_iff ((flowKind? e.tag = some .preformatted → ¬ inner.startsWithLineFeed) ∧
        inner.chars (rawTextTags.contains e.tag) = inner.chars false ∧ content part)
      (by rw [MayHold, h])
  | none => .isFalse (by rw [MayHold, h]; exact id)

instance decidableFits : (region : Region) → (around : List String) → (m : Markup) →
    Decidable (m.Fits region around)
  | _, _, nil => .isTrue trivial
  | region, around, node data inner rest =>
    have := decidableFits region around rest
    match data with
    | .element e =>
      have := fun part => decidableFits part (e.tag :: around) inner
      inferInstanceAs (Decidable (rest.Fits region around ∧ e.ReadableAs (region.vocabulary e.tag) ∧
        MayHold region around e inner fun part => inner.Fits part (e.tag :: around)))
    | .text content => inferInstanceAs (Decidable (rest.Fits region around ∧
        (content ≠ "" ∧ isReadText content ∧ (region.isSpaced → isSpaces content)) ∧
          inner = nil ∧ ¬ rest.StartsWithText))
    | .comment content =>
      inferInstanceAs (Decidable (rest.Fits region around ∧ isReadComment content ∧ inner = nil))
    | .document | .doctype _ _ _ | .instruction _ _ => .isFalse And.right

/-! Pages. -/

def IsComments : Markup → Prop
  | nil => True
  | node (.comment content) nil rest => isReadComment content ∧ rest.IsComments
  | _ => False

/-- What follows the head: the body, after spaces and comments, and then comments. -/
def HasBody : Markup → Prop
  | nil => False
  | node data inner rest =>
    match data with
    | .element e => e.tag = "body" ∧ e.ReadableAs .html ∧ inner.Fits .flow ["body", "html"] ∧ rest.IsComments
    | .text content => isSpaces content ∧ inner = nil ∧ ¬ rest.StartsWithText ∧ rest.HasBody
    | .comment content => isReadComment content ∧ inner = nil ∧ rest.HasBody
    | _ => False

/-- The head after comments, and what follows it. -/
def HasSections : Markup → Prop
  | nil => False
  | node data inner rest =>
    match data with
    | .element e => e.tag = "head" ∧ e.ReadableAs .html ∧ inner.Fits .head ["head", "html"] ∧ rest.HasBody
    | .comment content => isReadComment content ∧ inner = nil ∧ rest.HasSections
    | _ => False

/-- A document type with no more than a name, at most once, and a root element with a head and a
body, among comments. The flag says that a document type has been there. -/
def HasRoot : Bool → Markup → Prop
  | _, nil => False
  | seen, node data inner rest =>
    match data with
    | .element e => e.tag = "html" ∧ e.ReadableAs .html ∧ inner.HasSections ∧ rest.IsComments
    | .doctype name publicId systemId =>
      seen = false ∧ isReadName name ∧ publicId = "" ∧ systemId = "" ∧ inner = nil ∧ rest.HasRoot true
    | .comment content => isReadComment content ∧ inner = nil ∧ rest.HasRoot seen
    | _ => False

/-- A page that is read as it is written. There is no carriage return in it, as one would be read as
a line feed. -/
structure IsPage (m : Markup) : Prop where
  root : m.HasRoot false
  feeds : '\r' ∉ m.chars false

instance decidableIsComments : (m : Markup) → Decidable m.IsComments
  | nil => .isTrue trivial
  | node (.comment content) nil rest =>
    have := decidableIsComments rest
    inferInstanceAs (Decidable (isReadComment content ∧ rest.IsComments))
  | node (.comment _) (node _ _ _) _ | node (.element _) _ _ | node (.text _) _ _ | node .document _ _
  | node (.doctype _ _ _) _ _ | node (.instruction _ _) _ _ => .isFalse id

instance decidableHasBody : (m : Markup) → Decidable m.HasBody
  | nil => .isFalse id
  | node data inner rest =>
    have := decidableHasBody rest
    match data with
    | .element e => inferInstanceAs (Decidable
        (e.tag = "body" ∧ e.ReadableAs .html ∧ inner.Fits .flow ["body", "html"] ∧ rest.IsComments))
    | .text content => inferInstanceAs (Decidable
        (isSpaces content ∧ inner = nil ∧ ¬ rest.StartsWithText ∧ rest.HasBody))
    | .comment content =>
      inferInstanceAs (Decidable (isReadComment content ∧ inner = nil ∧ rest.HasBody))
    | .document | .doctype _ _ _ | .instruction _ _ => .isFalse id

instance decidableHasSections : (m : Markup) → Decidable m.HasSections
  | nil => .isFalse id
  | node data inner rest =>
    have := decidableHasSections rest
    match data with
    | .element e => inferInstanceAs (Decidable
        (e.tag = "head" ∧ e.ReadableAs .html ∧ inner.Fits .head ["head", "html"] ∧ rest.HasBody))
    | .comment content =>
      inferInstanceAs (Decidable (isReadComment content ∧ inner = nil ∧ rest.HasSections))
    | .text _ | .document | .doctype _ _ _ | .instruction _ _ => .isFalse id

instance decidableHasRoot : (seen : Bool) → (m : Markup) → Decidable (m.HasRoot seen)
  | _, nil => .isFalse id
  | seen, node data inner rest =>
    have := decidableHasRoot true rest
    have := decidableHasRoot seen rest
    match data with
    | .element e => inferInstanceAs (Decidable
        (e.tag = "html" ∧ e.ReadableAs .html ∧ inner.HasSections ∧ rest.IsComments))
    | .doctype name publicId systemId => inferInstanceAs (Decidable
        (seen = false ∧ isReadName name ∧ publicId = "" ∧ systemId = "" ∧ inner = nil ∧ rest.HasRoot true))
    | .comment content =>
      inferInstanceAs (Decidable (isReadComment content ∧ inner = nil ∧ rest.HasRoot seen))
    | .text _ | .document | .instruction _ _ => .isFalse id

instance (m : Markup) : Decidable m.IsPage :=
  decidable_of_iff (m.HasRoot false ∧ '\r' ∉ m.chars false) ⟨fun h => ⟨h.1, h.2⟩, fun h => ⟨h.root, h.feeds⟩⟩

end Markup

end LivePages
