import LivePages.Html.Lexer
import LivePages.Html.TableContent

namespace LivePages

namespace Builder

/-- The text of an element ends with its end tag or with the input. -/
def inText (b : Builder) : Token → Outcome
  | .space run => (b.insertText run).done
  | .text run => (b.insertText run).done
  | .endOfFile => { b.pop with content := .markup }.againIn b.returnMode
  | .endTag _ => ({ b.pop with content := .markup }.withMode b.returnMode).done
  | _ => b.done

/-- Reads a token in the mode that the content of a template turns out to need. -/
def templateAs (b : Builder) (mode : InsertionMode) : Outcome :=
  { b with templateModes := mode :: b.templateModes.tail }.againIn mode

def inTemplate (b : Builder) (token : Token) : Outcome :=
  match token with
  | .startTag tag =>
    if headContentTags.contains tag.name then (b.insertHeadContent tag).done
    else
      match tag.name with
      | "caption" => b.templateAs .inTable
      | "colgroup" => b.templateAs .inTable
      | "tbody" => b.templateAs .inTable
      | "tfoot" => b.templateAs .inTable
      | "thead" => b.templateAs .inTable
      | "col" => b.templateAs .inColumnGroup
      | "tr" => b.templateAs .inTableBody
      | "td" => b.templateAs .inRow
      | "th" => b.templateAs .inRow
      | _ => b.templateAs .inBody
  | .endTag tag => (if tag.name = "template" then b.endTemplate else b).done
  | .endOfFile => b.endOfTemplates
  | _ => b.inBody token

def afterBody (b : Builder) (token : Token) : Outcome :=
  match token with
  | .space _ => b.inBody token
  | .comment content => (b.appendComment ((b.rootElement?.map (·.node)).getD Tree.root) content).done
  | .doctype _ => b.done
  | .startTag tag => if tag.name = "html" then b.inBody token else b.againIn .inBody
  | .endTag tag => if tag.name = "html" then (b.withMode .afterAfterBody).done else b.againIn .inBody
  | .endOfFile => b.done
  | _ => b.againIn .inBody

def afterAfterBody (b : Builder) (token : Token) : Outcome :=
  match token with
  | .space _ => b.inBody token
  | .comment content => (b.appendComment Tree.root content).done
  | .doctype _ => b.done
  | .startTag tag => if tag.name = "html" then b.inBody token else b.againIn .inBody
  | .endOfFile => b.done
  | _ => b.againIn .inBody

def inFrameset (b : Builder) : Token → Outcome
  | .space run => (b.insertText run).done
  | .comment content => (b.insertComment content).done
  | .startTag tag =>
    match tag.name with
    | "html" => (b.mergeRoot tag).done
    | "frameset" => (b.insertElement tag).done
    | "frame" => (b.insertVoid tag).done
    | "noframes" => (b.insertHeadContent tag).done
    | _ => b.done
  | .endTag tag =>
    if tag.name = "frameset" && b.openElements.length != 1 then
      let b := b.pop
      (if b.currentIsHtml "frameset" then b else b.withMode .afterFrameset).done
    else b.done
  | _ => b.done

def afterFrameset (b : Builder) : Token → Outcome
  | .space run => (b.insertText run).done
  | .comment content => (b.insertComment content).done
  | .startTag tag =>
    match tag.name with
    | "html" => (b.mergeRoot tag).done
    | "noframes" => (b.insertHeadContent tag).done
    | _ => b.done
  | .endTag tag => (if tag.name = "html" then b.withMode .afterAfterFrameset else b).done
  | _ => b.done

def afterAfterFrameset (b : Builder) (token : Token) : Outcome :=
  match token with
  | .space _ => b.inBody token
  | .comment content => (b.appendComment Tree.root content).done
  | .startTag tag =>
    match tag.name with
    | "html" => (b.mergeRoot tag).done
    | "noframes" => (b.insertHeadContent tag).done
    | _ => b.done
  | _ => b.done

def inMode (b : Builder) (token : Token) : Outcome :=
  match b.mode with
  | .initial => b.initial token
  | .beforeHtml => b.beforeHtml token
  | .beforeHead => b.beforeHead token
  | .inHead => b.inHead token
  | .afterHead => b.afterHead token
  | .inBody => b.inBody token
  | .text => b.inText token
  | .inTable => b.inTable token
  | .inTableText => b.inTableText token
  | .inCaption => b.inCaption token
  | .inColumnGroup => b.inColumnGroup token
  | .inTableBody => b.inTableBody token
  | .inRow => b.inRow token
  | .inCell => b.inCell token
  | .inSelect => b.inSelect token
  | .inSelectInTable => b.inSelectInTable token
  | .inTemplate => b.inTemplate token
  | .afterBody => b.afterBody token
  | .inFrameset => b.inFrameset token
  | .afterFrameset => b.afterFrameset token
  | .afterAfterBody => b.afterAfterBody token
  | .afterAfterFrameset => b.afterAfterFrameset token

/-! Foreign elements. -/

def isForeign (b : Builder) (token : Token) : Bool :=
  match b.openElements with
  | [] => false
  | e :: _ =>
    if e.vocabulary == .html then false
    else
      match token with
      | .endOfFile => false
      | .space _ => !(e.isMathmlText || e.isSvgHtml || e.holdsHtml)
      | .text _ => !(e.isMathmlText || e.isSvgHtml || e.holdsHtml)
      | .null => !(e.isMathmlText || e.isSvgHtml || e.holdsHtml)
      | .startTag tag =>
        !((e.isMathmlText && tag.name != "mglyph" && tag.name != "malignmark") || e.isSvgHtml ||
          e.holdsHtml ||
          (e.vocabulary == .mathml && e.name == "annotation-xml" && tag.name == "svg"))
      | _ => true

/-- Ends all foreign elements up to one that may hold HTML, and reads the tag there. -/
def breakForeign (b : Builder) (token : Token) : Outcome :=
  (b.popWhile fun e => !(e.vocabulary == .html || e.isMathmlText || e.isSvgHtml)).inMode token

/-- Ends the innermost element of a name, in any case of letters, as far as elements are foreign. -/
def endForeign (b : Builder) (token : Token) (name : String) : List OpenElement → Bool → Outcome
  | [], _ => b.done
  | [_], _ => b.done
  | e :: rest, innermost =>
    if !innermost && e.vocabulary == .html then b.inMode token
    else if lowerCase e.name == name then { b with openElements := rest }.done
    else b.endForeign token name rest false

def inForeign (b : Builder) (token : Token) : Outcome :=
  match token with
  | .space run => (b.insertText run).done
  | .text run => (b.forbidFrameset.insertText run).done
  | .null => (b.insertText "\ufffd").done
  | .comment content => (b.insertComment content).done
  | .startTag tag =>
    let coloured := tag.name == "font" && tag.attributes.any fun (n, _) =>
      ["color", "face", "size"].contains n
    if foreignBreakerTags.contains tag.name || coloured then b.breakForeign token
    else
      match b.openElements with
      | [] => b.done
      | e :: _ => (b.startForeign e.vocabulary tag).done
  | .endTag tag =>
    if tag.name = "br" || tag.name = "p" then b.breakForeign token
    else b.endForeign token tag.name b.openElements true
  | _ => b.done

/-! Tokens. -/

/-- Reads a token until it needs no other mode, at most as often as the first argument allows. -/
def settleToken : Nat → Builder → Token → Builder
  | 0, b, _ => b
  | bound + 1, b, token =>
    match (if b.isForeign token then b.inForeign token else b.inMode token) with
    | (b, .done) => b
    | (b, .again) => settleToken bound b token

/-- The line feed right after the start tag of preformatted text is no part of it. -/
def dropLineFeed : Token → Option Token
  | .space run =>
    match run.toList with
    | ['\n'] => none
    | '\n' :: rest => some (.space (String.ofList rest))
    | _ => some (.space run)
  | token => some token

/-- Adds a token to the page. Each repetition closes an element or goes on to a later mode. -/
def read (b : Builder) (token : Token) : Builder :=
  let skip := b.skipLineFeed
  let b := { b with skipLineFeed := false }
  let b := match token with
    | .startTag tag => { b with lastStartTag := tag.name }
    | _ => b
  match (if skip then dropLineFeed token else some token) with
  | some token => settleToken (2 * b.openElements.length + 24) b token
  | none => b

def knowsCdata (b : Builder) : Bool :=
  b.currentIs fun e => e.vocabulary != .html

/-- Reads a text to its end; every step uses up some of it. -/
def readText : Nat → Builder → List Char → Builder
  | 0, b, _ => b.read .endOfFile
  | _ + 1, b, [] => b.read .endOfFile
  | bound + 1, b, c :: cs =>
    let (tokens, rest) := lexTokens b.content b.lastStartTag b.knowsCdata (c :: cs)
    readText bound (tokens.foldl read b) rest

end Builder

end LivePages
