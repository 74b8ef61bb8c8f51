import LivePages.Html.CharacterReference
import LivePages.Html.Token

namespace LivePages

/-! Tags. -/

inductive TagPart where
  | name
  | beforeName
  | attributeName
  | afterName
  | beforeValue
  | quotedValue (quote : Char)
  | unquotedValue
  | afterQuoted
  | slash
  deriving DecidableEq

/-- A tag as far as it has been read; names and values grow at the front. -/
structure TagDraft where
  name : List Char := []
  attributes : List (String × String) := []
  attributeName : List Char := []
  attributeValue : List Char := []

namespace TagDraft

/-- Files the attribute being read; of attributes with one name the first is kept. -/
def finishAttribute (d : TagDraft) : TagDraft :=
  let name := String.ofList d.attributeName.reverse
  let value := String.ofList (decodeReferences true d.attributeValue.reverse)
  let fresh := !d.attributeName.isEmpty && (d.attributes.lookup name).isNone
  { d with
    attributes := if fresh then d.attributes ++ [(name, value)] else d.attributes
    attributeName := []
    attributeValue := [] }

def startAttribute (d : TagDraft) (c : Char) : TagDraft :=
  { d.finishAttribute with attributeName := [nameChar c] }

def finish (d : TagDraft) (selfClosing : Bool) : Tag :=
  ⟨String.ofList d.name.reverse, d.finishAttribute.attributes, selfClosing⟩

end TagDraft

/-- Reads a tag up to its closing bracket; a tag that the input ends in is lost. -/
def lexTag : TagPart → TagDraft → List Char → Option (Tag × List Char)
  | _, _, [] => none
  | .name, d, c :: cs =>
    if isHtmlSpace c then lexTag .beforeName d cs
    else if c = '/' then lexTag .slash d cs
    else if c = '>' then some (d.finish false, cs)
    else lexTag .name { d with name := nameChar c :: d.name } cs
  | .beforeName, d, c :: cs =>
    if isHtmlSpace c then lexTag .beforeName d cs
    else if c = '/' then lexTag .slash d cs
    else if c = '>' then some (d.finish false, cs)
    else lexTag .attributeName (d.startAttribute c) cs
  | .attributeName, d, c :: cs =>
    if isHtmlSpace c then lexTag .afterName d cs
    else if c = '/' then lexTag .slash d cs
    else if c = '=' then lexTag .beforeValue d cs
    else if c = '>' then some (d.finish false, cs)
    else lexTag .attributeName { d with attributeName := nameChar c :: d.attributeName } cs
  | .afterName, d, c :: cs =>
    if isHtmlSpace c then lexTag .afterName d cs
    else if c = '/' then lexTag .slash d cs
    else if c = '=' then lexTag .beforeValue d cs
    else if c = '>' then some (d.finish false, cs)
    else lexTag .attributeName (d.startAttribute c) cs
  | .beforeValue, d, c :: cs =>
    if isHtmlSpace c then lexTag .beforeValue d cs
    else if c = '"' || c = '\'' then lexTag (.quotedValue c) d cs
    else if c = '>' then some (d.finish false, cs)
    else lexTag .unquotedValue { d with attributeValue := [replaceNull c] } cs
  | .quotedValue q, d, c :: cs =>
    if c = q then lexTag .afterQuoted d cs
    else lexTag (.quotedValue q) { d with attributeValue := replaceNull c :: d.attributeValue } cs
  | .unquotedValue, d, c :: cs =>
    if isHtmlSpace c then lexTag .beforeName d cs
    else if c = '>' then some (d.finish false, cs)
    else lexTag .unquotedValue { d with attributeValue := replaceNull c :: d.attributeValue } cs
  | .afterQuoted, d, c :: cs =>
    if isHtmlSpace c then lexTag .beforeName d cs
    else if c = '/' then lexTag .slash d cs
    else if c = '>' then some (d.finish false, cs)
    else lexTag .attributeName (d.startAttribute c) cs
  | .slash, d, c :: cs =>
    if c = '>' then some (d.finish true, cs)
    else if isHtmlSpace c then lexTag .beforeName d cs
    else if c = '/' then lexTag .slash d cs
    else lexTag .attributeName (d.startAttribute c) cs

/-! Comments. -/

inductive CommentPart where
  | start
  | startDash
  | body
  | dash
  | twoDashes
  | bang
  deriving DecidableEq

/-- Reads a comment after its opening; the content grows at the front. -/
def lexComment : CommentPart → List Char → List Char → List Char × List Char
  | _, content, [] => (content, [])
  | .start, content, c :: cs =>
    if c = '-' then lexComment .startDash content cs
    else if c = '>' then (content, cs)
    else lexComment .body (replaceNull c :: content) cs
  | .startDash, content, c :: cs =>
    if c = '-' then lexComment .twoDashes content cs
    else if c = '>' then (content, cs)
    else lexComment .body (replaceNull c :: '-' :: content) cs
  | .body, content, c :: cs =>
    if c = '-' then lexComment .dash content cs
    else lexComment .body (replaceNull c :: content) cs
  | .dash, content, c :: cs =>
    if c = '-' then lexComment .twoDashes content cs
    else lexComment .body (replaceNull c :: '-' :: content) cs
  | .twoDashes, content, c :: cs =>
    if c = '>' then (content, cs)
    else if c = '!' then lexComment .bang content cs
    else if c = '-' then lexComment .twoDashes ('-' :: content) cs
    else lexComment .body (replaceNull c :: '-' :: '-' :: content) cs
  | .bang, content, c :: cs =>
    if c = '-' then lexComment .dash ('!' :: '-' :: '-' :: content) cs
    else if c = '>' then (content, cs)
    else lexComment .body (replaceNull c :: '!' :: '-' :: '-' :: content) cs

def lexBogusComment (cs : List Char) : Token × List Char :=
  (.comment (String.ofList ((cs.takeWhile (· != '>')).map replaceNull)),
   (cs.dropWhile (· != '>')).drop 1)

/-! Document type declarations. -/

def skipPastBracket (cs : List Char) : List Char :=
  (cs.dropWhile (· != '>')).drop 1

namespace Doctype

/-- Ends a declaration whose remaining text has no meaning. -/
def abandon (d : Doctype) (force : Bool) (cs : List Char) : Doctype × List Char :=
  ({ d with forceQuirks := d.forceQuirks || force }, skipPastBracket cs)

/-- Reads a quoted identifier; `none` where the declaration ends inside it. -/
def lexQuoted (quote : Char) (cs : List Char) : Option String × String × List Char :=
  let inside := cs.takeWhile fun c => c != quote && c != '>'
  let text := String.ofList (inside.map replaceNull)
  match cs.drop inside.length with
  | [] => (none, text, [])
  | c :: rest => if c = quote then (some text, text, rest) else (none, text, c :: rest)

def lexEnd (d : Doctype) (cs : List Char) : Doctype × List Char :=
  match skipHtmlSpace cs with
  | [] => d.abandon true []
  | c :: rest => d.abandon false (c :: rest)

def lexSystemId (d : Doctype) (quote : Char) (cs : List Char) : Doctype × List Char :=
  match lexQuoted quote cs with
  | (none, text, rest) => { d with systemId := some text }.abandon true rest
  | (some text, _, rest) => { d with systemId := some text }.lexEnd rest

/-- Before a system identifier; `needed` says that the declaration must have one. -/
def lexBeforeSystemId (d : Doctype) (needed : Bool) (cs : List Char) : Doctype × List Char :=
  match skipHtmlSpace cs with
  | [] => d.abandon true []
  | c :: rest =>
    if c = '"' || c = '\'' then d.lexSystemId c rest
    else if c = '>' then d.abandon needed (c :: rest)
    else d.abandon true (c :: rest)

def lexPublicId (d : Doctype) (quote : Char) (cs : List Char) : Doctype × List Char :=
  match lexQuoted quote cs with
  | (none, text, rest) => { d with publicId := some text }.abandon true rest
  | (some text, _, rest) => { d with publicId := some text }.lexBeforeSystemId false rest

def lexBeforePublicId (d : Doctype) (cs : List Char) : Doctype × List Char :=
  match skipHtmlSpace cs with
  | [] => d.abandon true []
  | c :: rest =>
    if c = '"' || c = '\'' then d.lexPublicId c rest else d.abandon true (c :: rest)

def lexAfterName (d : Doctype) (cs : List Char) : Doctype × List Char :=
  match skipHtmlSpace cs with
  | [] => d.abandon true []
  | '>' :: rest => (d, rest)
  | cs =>
    match afterWord? "public".toList cs, afterWord? "system".toList cs with
    | some rest, _ => d.lexBeforePublicId rest
    | none, some rest => d.lexBeforeSystemId true rest
    | none, none => d.abandon true cs

/-- Reads a declaration after its keyword. -/
def lex (cs : List Char) : Doctype × List Char :=
  let blank : Doctype := ⟨none, none, none, false⟩
  match skipHtmlSpace cs with
  | [] => blank.abandon true []
  | '>' :: rest => ({ blank with forceQuirks := true }, rest)
  | cs =>
    let name := cs.takeWhile fun c => !isHtmlSpace c && c != '>'
    { blank with name := some (String.ofList (name.map nameChar)) }.lexAfterName (cs.drop name.length)

end Doctype

/-! Text of elements whose content is not markup. -/

def endsTagName : List Char → Bool
  | [] => false
  | c :: _ => isHtmlSpace c || c == '/' || c == '>'

/-- Whether the end tag of an element follows an opening bracket. -/
def isEndTagOf (name : String) : List Char → Bool
  | '/' :: cs =>
    match afterWord? name.toList cs with
    | some rest => endsTagName rest
    | none => false
  | _ => false

/-- The text before the end tag of an element, and the rest from that tag on. -/
def splitAtEndTag (name : String) : List Char → List Char × List Char
  | [] => ([], [])
  | c :: cs =>
    if c = '<' && isEndTagOf name cs then ([], c :: cs)
    else
      let (text, rest) := splitAtEndTag name cs
      (c :: text, rest)

/-- Where in a script the reader is: an end tag inside a script inside a comment does not count. -/
inductive ScriptPart where
  | code
  | escaped (dashes : Nat)
  | doublyEscaped (dashes : Nat)
  | verbatim (count : Nat) (next : ScriptPart)

def isScriptWord (cs : List Char) : Bool :=
  match afterWord? "script".toList cs with
  | some rest => endsTagName rest
  | none => false

/-- The part of a script that follows a character, in view of the text after it. -/
def ScriptPart.after (c : Char) (cs : List Char) : ScriptPart → ScriptPart
  | .code =>
    if c = '<' && (afterText? "!--".toList cs).isSome then .verbatim 3 (.escaped 2) else .code
  | .escaped dashes =>
    if c = '-' then .escaped (min 2 (dashes + 1))
    else if c = '>' && dashes = 2 then .code
    else if c = '<' && isScriptWord cs then .verbatim 7 (.doublyEscaped 0)
    else .escaped 0
  | .doublyEscaped dashes =>
    if c = '-' then .doublyEscaped (min 2 (dashes + 1))
    else if c = '>' && dashes = 2 then .code
    else if c = '<' && cs.head? == some '/' && isScriptWord (cs.drop 1) then
      .verbatim 8 (.escaped 0)
    else .doublyEscaped 0
  | .verbatim count next => if count ≤ 1 then next else .verbatim (count - 1) next

def ScriptPart.canEnd : ScriptPart → Bool
  | .code => true
  | .escaped _ => true
  | _ => false

/-- The text of a script before its end tag, and the rest from that tag on. -/
def splitScript : ScriptPart → List Char → List Char × List Char
  | _, [] => ([], [])
  | part, c :: cs =>
    if c = '<' && part.canEnd && isEndTagOf "script" cs then ([], c :: cs)
    else
      let (text, rest) := splitScript (part.after c cs) cs
      (c :: text, rest)

def splitCdata : List Char → List Char × List Char
  | [] => ([], [])
  | c :: cs =>
    match afterText? "]]>".toList (c :: cs) with
    | some rest => ([], rest)
    | none =>
      let (text, rest) := splitCdata cs
      (c :: text, rest)

/-! Tokens. -/

def ofTag (wrap : Tag → Token) : Option (Tag × List Char) → List Token × List Char
  | some (tag, rest) => ([wrap tag], rest)
  | none => ([], [])

/-- What follows an opening bracket and an exclamation mark. -/
def lexDeclaration (cdata : Bool) (cs : List Char) : List Token × List Char :=
  match afterText? "--".toList cs with
  | some rest =>
    let (content, rest) := lexComment .start [] rest
    ([.comment (String.ofList content.reverse)], rest)
  | none =>
    match afterWord? "doctype".toList cs with
    | some rest =>
      let (d, rest) := Doctype.lex rest
      ([.doctype d], rest)
    | none =>
      match afterText? "[CDATA[".toList cs, cdata with
      | some rest, true =>
        let (text, rest) := splitCdata rest
        (characterTokens id text, rest)
      | _, _ =>
        let (token, rest) := lexBogusComment cs
        ([token], rest)

/-- What follows an opening bracket and a slash. -/
def lexEndTag : List Char → List Token × List Char
  | [] => ([.text "</"], [])
  | '>' :: cs => ([], cs)
  | c :: cs =>
    if isAsciiLetter c then ofTag .endTag (lexTag .name {} (c :: cs))
    else
      let (token, rest) := lexBogusComment (c :: cs)
      ([token], rest)

/-- What follows an opening bracket. -/
def lexBracket (cdata : Bool) : List Char → List Token × List Char
  | '!' :: cs => lexDeclaration cdata cs
  | '/' :: cs => lexEndTag cs
  | '?' :: cs =>
    let (token, rest) := lexBogusComment ('?' :: cs)
    ([token], rest)
  | c :: cs =>
    if isAsciiLetter c then ofTag .startTag (lexTag .name {} (c :: cs)) else ([.text "<"], c :: cs)
  | [] => ([.text "<"], [])

def lexMarkup (cdata : Bool) : List Char → List Token × List Char
  | '<' :: cs => lexBracket cdata cs
  | cs =>
    let text := cs.takeWhile (· != '<')
    (characterTokens (decodeReferences false) text, cs.drop text.length)

/-- The text before an end tag, or that tag where no text is left. -/
def textOrEndTag (decode : List Char → List Char) (split : List Char × List Char) :
    List Token × List Char :=
  match split with
  | ([], '<' :: '/' :: cs) => ofTag .endTag (lexTag .name {} cs)
  | (text, rest) => (spaceTokens (decode (text.map replaceNull)), rest)

/-- The next tokens of a page and the text after them. `element` is the last start tag; `cdata` says
that character data sections are known where the reader is. Some text is read whenever there is any. -/
def lexTokens (model : ContentModel) (element : String) (cdata : Bool) (cs : List Char) :
    List Token × List Char :=
  match model with
  | .markup => lexMarkup cdata cs
  | .escapable => textOrEndTag (decodeReferences false) (splitAtEndTag element cs)
  | .raw => textOrEndTag id (splitAtEndTag element cs)
  | .script => textOrEndTag id (splitScript .code cs)
  | .plain => (spaceTokens (cs.map replaceNull), [])

end LivePages
