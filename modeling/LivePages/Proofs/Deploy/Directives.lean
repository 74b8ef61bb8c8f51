import Mathlib.Data.List.Basic

namespace LivePages

/-! Configurations of a proxy as they are read: words between blanks, directives that end with a
semicolon, and blocks of directives. -/

def isProxyBlank (c : Char) : Bool :=
  c == ' ' || c == '\t' || c == '\r' || c == '\n'

def isProxyDelimiter (c : Char) : Bool :=
  c == ';' || c == '\x7b' || c == '\x7d'

/-- Characters that neither end a word nor stand between words. -/
def isProxyWordChar (c : Char) : Bool :=
  !isProxyBlank c && !isProxyDelimiter c

inductive ProxyToken where
  | word (text : String)
  | semicolon
  | opening
  | closing
  deriving DecidableEq

namespace ProxyToken

/-- What has been read of a word, which is nothing between words; or that a comment goes on. -/
inductive Reading where
  | word (cs : List Char)
  | comment

def ofWord (cs : List Char) : List ProxyToken :=
  if cs.isEmpty then [] else [word (String.ofList cs)]

def ofDelimiter (c : Char) : List ProxyToken :=
  if c == ';' then [semicolon]
  else if c == '\x7b' then [opening]
  else if c == '\x7d' then [closing]
  else []

/-- A hash starts a comment where a word could start; the comment ends with its line. -/
def read : Reading → List Char → List ProxyToken
  | .word w, [] => ofWord w
  | .comment, [] => []
  | .comment, c :: cs => if c = '\n' then read (.word []) cs else read .comment cs
  | .word w, c :: cs =>
    if isProxyWordChar c then
      if w.isEmpty && c == '#' then read .comment cs else read (.word (w ++ [c])) cs
    else ofWord w ++ ofDelimiter c ++ read (.word []) cs

def ofChars (cs : List Char) : List ProxyToken :=
  read (.word []) cs

/-- The end of a line ends a word, and a comment. -/
theorem read_line (state : Reading) (line rest : List Char) :
    read state (line ++ '\n' :: rest) = read state line ++ ofChars rest := by
  induction line generalizing state with
  | nil =>
    cases state with
    | comment => rfl
    | word w =>
      have blank : read (.word w) ('\n' :: rest) = ofWord w ++ [] ++ ofChars rest := rfl
      rw [List.nil_append, blank, List.append_nil, read]
  | cons c line ih =>
    cases state with
    | comment =>
      rw [List.cons_append, read, read]
      split <;> exact ih _
    | word w =>
      rw [List.cons_append, read, read]
      split
      next => split <;> exact ih _
      next => rw [ih, List.append_assoc (ofWord w ++ ofDelimiter c)]

theorem ofChars_lines (lines : List String) :
    ofChars (String.join (lines.map (· ++ "\n"))).toList =
      lines.flatMap fun line => ofChars line.toList := by
  rw [String.toList_join]
  induction lines with
  | nil => rfl
  | cons line lines ih =>
    have newline : (line ++ "\n").toList = line.toList ++ ['\n'] := String.toList_append
    rw [List.map_cons, List.flatMap_cons, List.flatMap_cons, newline, List.append_assoc,
      List.singleton_append, ofChars, read_line, ih, ofChars]

/-- A text that is one word wherever it stands. -/
def IsWord (text : String) : Prop :=
  text.toList.all isProxyWordChar ∧ ∃ c, text.toList.head? = some c ∧ c ≠ '#'

theorem read_word_append {w cs : List Char} (hw : w ≠ []) (h : cs.all isProxyWordChar)
    (rest : List Char) : read (.word w) (cs ++ rest) = read (.word (w ++ cs)) rest := by
  induction cs generalizing w with
  | nil => rw [List.nil_append, List.append_nil]
  | cons c cs ih =>
    rw [List.all_cons, Bool.and_eq_true] at h
    have inner : ¬ (w.isEmpty && c == '#') = true := by simp [hw]
    rw [List.cons_append, read, if_pos h.1, if_neg inner, ih (by simp) h.2, List.append_assoc,
      List.singleton_append]

/-- A word is read up to the delimiter or blank behind it. -/
theorem IsWord.read {text : String} (h : IsWord text) {c : Char} (hc : isProxyWordChar c = false)
    (rest : List Char) : ofChars (text.toList ++ c :: rest) =
      word text :: (ofDelimiter c ++ ofChars rest) := by
  obtain ⟨hall, first, hf, hne⟩ := h
  obtain ⟨cs, e⟩ : ∃ cs, text.toList = first :: cs := List.head?_eq_some_iff.mp hf
  rw [e, List.all_cons, Bool.and_eq_true] at hall
  have start : ¬ (([] : List Char).isEmpty && first == '#') = true := by simpa using hne
  have ends : ProxyToken.read (.word (first :: cs)) (c :: rest) =
      ofWord (first :: cs) ++ ofDelimiter c ++ ofChars rest := by
    rw [ProxyToken.read, if_neg (by rw [hc]; exact Bool.false_ne_true), ofChars]
  have whole : ofWord (first :: cs) = [word text] := by
    rw [← e, ofWord, String.ofList_toList, if_neg (by rw [e]; exact Bool.false_ne_true)]
  rw [e, ofChars, List.cons_append, ProxyToken.read, if_pos hall.1, if_neg start, List.nil_append,
    read_word_append (List.cons_ne_nil _ _) hall.2, List.singleton_append, ends, whole]
  rfl

theorem all_of_mem_ofWord {w : List Char} (hw : w.all isProxyWordChar) {text : String}
    (hm : word text ∈ ofWord w) : text.toList.all isProxyWordChar := by
  rw [ofWord] at hm
  split at hm
  next => cases hm
  next =>
    cases List.mem_singleton.mp hm
    rwa [String.toList_ofList]

theorem word_not_mem_ofDelimiter (text : String) (c : Char) : word text ∉ ofDelimiter c := by
  intro hm
  simp only [ofDelimiter] at hm
  split_ifs at hm <;> simp at hm

/-- A word has no blank and no delimiter in it. -/
theorem all_of_mem_read {state : Reading} {cs : List Char}
    (h : ∀ w, state = .word w → w.all isProxyWordChar) {text : String}
    (hm : word text ∈ read state cs) : text.toList.all isProxyWordChar := by
  induction cs generalizing state with
  | nil =>
    cases state with
    | comment => cases hm
    | word w => exact all_of_mem_ofWord (h w rfl) hm
  | cons c cs ih =>
    cases state with
    | comment =>
      rw [read] at hm
      split at hm
      next =>
        refine ih (fun w e => ?_) hm
        cases e
        rfl
      next => exact ih (fun w e => by cases e) hm
    | word w =>
      rw [read] at hm
      split at hm
      next hc =>
        split at hm
        next => exact ih (fun w e => by cases e) hm
        next =>
          refine ih (fun w' e => ?_) hm
          cases e
          rw [List.all_append, h w rfl, List.all_cons, hc]
          rfl
      next =>
        rcases List.mem_append.mp hm with hm | hm
        · rcases List.mem_append.mp hm with hm | hm
          · exact all_of_mem_ofWord (h w rfl) hm
          · exact absurd hm (word_not_mem_ofDelimiter text c)
        · refine ih (fun w e => ?_) hm
          cases e
          rfl

end ProxyToken

/-- A directive with its words, and with the directives in its braces if it has any. -/
inductive Directive where
  | simple (words : List String)
  | block (words : List String) (body : List Directive)

namespace Directive

def words : Directive → List String
  | simple words => words
  | block words _ => words

mutual

/-- How a directive is written, but for blanks and comments. -/
def tokens : Directive → List ProxyToken
  | simple words => words.map .word ++ [.semicolon]
  | block words body => words.map .word ++ .opening :: (allTokens body ++ [.closing])

def allTokens : List Directive → List ProxyToken
  | [] => []
  | d :: ds => d.tokens ++ allTokens ds

end

theorem allTokens_append (ds ds' : List Directive) :
    allTokens (ds ++ ds') = allTokens ds ++ allTokens ds' := by
  induction ds with
  | nil => rfl
  | cons d ds ih => rw [List.cons_append, allTokens, allTokens, ih, List.append_assoc]

/-- The words of a directive and those of all directives within it have a property. -/
inductive Each (p : List String → Prop) : Directive → Prop where
  | simple {words : List String} (h : p words) : Each p (simple words)
  | block {words : List String} {body : List Directive} (h : p words)
    (hb : ∀ d ∈ body, Each p d) : Each p (block words body)

/-- A block that is still open: the words in front of it, and what comes before it. -/
structure Frame where
  words : List String
  before : List Directive

/-- What has been read: words of the next directive, the directives before them in the same block,
and the blocks around them from the innermost on. -/
structure Reader where
  words : List String
  before : List Directive
  around : List Frame

namespace Reader

/-- A directive has words, and no block ends in the middle of one. -/
def step (r : Reader) : ProxyToken → Option Reader
  | .word w => some { r with words := r.words ++ [w] }
  | .semicolon =>
    if r.words.isEmpty then none else some ⟨[], r.before ++ [.simple r.words], r.around⟩
  | .opening => if r.words.isEmpty then none else some ⟨[], [], ⟨r.words, r.before⟩ :: r.around⟩
  | .closing =>
    match r.words, r.around with
    | [], frame :: around => some ⟨[], frame.before ++ [.block frame.words r.before], around⟩
    | _, _ => none

/-- All directives of a file, in which no block and no directive is left open. -/
def whole? (r : Reader) : Option (List Directive) :=
  if r.words.isEmpty && r.around.isEmpty then some r.before else none

end Reader

/-- The directives of a file, if its braces are balanced. -/
def ofTokens? (ts : List ProxyToken) : Option (List Directive) :=
  (ts.foldlM Reader.step ⟨[], [], []⟩).bind Reader.whole?

def ofText? (text : String) : Option (List Directive) :=
  ofTokens? (ProxyToken.ofChars text.toList)

theorem foldlM_words (ws words : List String) (before : List Directive) (around : List Frame) :
    (ws.map ProxyToken.word).foldlM Reader.step ⟨words, before, around⟩ =
      some ⟨words ++ ws, before, around⟩ := by
  induction ws generalizing words with
  | nil => rw [List.append_nil]; rfl
  | cons w ws ih =>
    rw [List.map_cons, List.foldlM_cons, Reader.step, Option.bind_eq_bind, Option.bind_some, ih,
      List.append_assoc, List.singleton_append]

/-- Directives are read one after the other, where each of them is read. -/
theorem foldlM_allTokens {ds : List Directive}
    (h : ∀ d ∈ ds, ∀ before around, d.tokens.foldlM Reader.step ⟨[], before, around⟩ =
      some ⟨[], before ++ [d], around⟩) (before : List Directive) (around : List Frame) :
    (allTokens ds).foldlM Reader.step ⟨[], before, around⟩ = some ⟨[], before ++ ds, around⟩ := by
  induction ds generalizing before with
  | nil => rw [List.append_nil]; rfl
  | cons d ds ih =>
    rw [List.forall_mem_cons] at h
    rw [allTokens, List.foldlM_append, h.1, Option.bind_eq_bind, Option.bind_some, ih h.2,
      List.append_assoc, List.singleton_append]

theorem Each.foldlM_tokens {d : Directive} (h : d.Each (· ≠ [])) (before : List Directive)
    (around : List Frame) : d.tokens.foldlM Reader.step ⟨[], before, around⟩ =
      some ⟨[], before ++ [d], around⟩ := by
  induction h generalizing before around with
  | @simple words h =>
    have written : ¬ words.isEmpty := mt List.isEmpty_iff.mp h
    rw [tokens, List.foldlM_append, foldlM_words, Option.bind_eq_bind, Option.bind_some,
      List.nil_append, List.foldlM_cons, Reader.step, if_neg written]
    rfl
  | @block words body h _ ih =>
    have written : ¬ words.isEmpty := mt List.isEmpty_iff.mp h
    rw [tokens, List.foldlM_append, foldlM_words, Option.bind_eq_bind, Option.bind_some,
      List.nil_append, List.foldlM_cons, Reader.step, if_neg written, Option.bind_eq_bind,
      Option.bind_some, List.foldlM_append, foldlM_allTokens ih, Option.bind_eq_bind,
      Option.bind_some]
    rfl

/-- Directives that all have words are read as they were written. -/
theorem ofTokens?_allTokens {ds : List Directive} (h : ∀ d ∈ ds, d.Each (· ≠ [])) :
    ofTokens? (allTokens ds) = some ds := by
  rw [ofTokens?, foldlM_allTokens fun d hd => (h d hd).foldlM_tokens, Option.bind_some]
  rfl

/-! What is read has the words that were given. -/

/-- All words that have been read have a property. -/
structure Reader.Holds (p : String → Prop) (r : Reader) : Prop where
  words : ∀ w ∈ r.words, p w
  before : ∀ d ∈ r.before, d.Each fun words => ∀ w ∈ words, p w
  around : ∀ frame ∈ r.around, (∀ w ∈ frame.words, p w) ∧
    ∀ d ∈ frame.before, d.Each fun words => ∀ w ∈ words, p w

theorem forall_mem_concat {α : Type} {p : α → Prop} {l : List α} {a : α} (h : ∀ b ∈ l, p b)
    (ha : p a) : ∀ b ∈ l ++ [a], p b :=
  List.forall_mem_append.mpr ⟨h, List.forall_mem_singleton.mpr ha⟩

theorem Reader.Holds.step {p : String → Prop} {r r' : Reader} (h : r.Holds p) {t : ProxyToken}
    (ht : ∀ w, t = .word w → p w) (hr : r.step t = some r') : r'.Holds p := by
  have none : ∀ w ∈ ([] : List String), p w := List.forall_mem_nil _
  cases t with
  | word w =>
    cases Option.some.inj hr
    exact ⟨forall_mem_concat h.words (ht w rfl), h.before, h.around⟩
  | semicolon =>
    rw [Reader.step] at hr
    split at hr
    next => cases hr
    next =>
      cases Option.some.inj hr
      exact ⟨none, forall_mem_concat h.before (.simple h.words), h.around⟩
  | opening =>
    rw [Reader.step] at hr
    split at hr
    next => cases hr
    next =>
      cases Option.some.inj hr
      exact ⟨none, List.forall_mem_nil _, List.forall_mem_cons.mpr ⟨⟨h.words, h.before⟩, h.around⟩⟩
  | closing =>
    -- The block joins what was before it in the one around.
    rw [Reader.step] at hr
    split at hr
    next frame around hw ha =>
      cases Option.some.inj hr
      have outer := h.around
      rw [ha, List.forall_mem_cons] at outer
      exact ⟨none, forall_mem_concat outer.1.2 (.block outer.1.1 h.before), outer.2⟩
    next => cases hr

theorem each_of_ofTokens? {p : String → Prop} {ts : List ProxyToken} {ds : List Directive}
    (h : ofTokens? ts = some ds) (ht : ∀ w, .word w ∈ ts → p w) :
    ∀ d ∈ ds, d.Each fun words => ∀ w ∈ words, p w := by
  have run (ts : List ProxyToken) (ht : ∀ w, .word w ∈ ts → p w) {r r' : Reader} (h : r.Holds p)
      (hr : ts.foldlM Reader.step r = some r') : r'.Holds p := by
    induction ts generalizing r with
    | nil => exact Option.some.inj hr ▸ h
    | cons t ts ih =>
      rw [List.foldlM_cons] at hr
      obtain ⟨r₁, h₁, hr⟩ := Option.bind_eq_some_iff.mp hr
      refine ih (fun w hw => ht w (List.mem_cons_of_mem t hw)) (h.step (fun w e => ?_) h₁) hr
      exact ht w (e ▸ List.mem_cons_self)
  obtain ⟨r, hr, hw⟩ := Option.bind_eq_some_iff.mp h
  have holds := run ts ht
    ⟨List.forall_mem_nil _, List.forall_mem_nil _, List.forall_mem_nil _⟩ hr
  rw [Reader.whole?] at hw
  split at hw
  next => exact Option.some.inj hw ▸ holds.before
  next => cases hw

/-- No word that is read has a blank or a delimiter in it. -/
theorem each_of_ofText? {text : String} {ds : List Directive} (h : ofText? text = some ds) :
    ∀ d ∈ ds, d.Each fun words => ∀ w ∈ words, w.toList.all isProxyWordChar := by
  refine each_of_ofTokens? h fun w hw => ProxyToken.all_of_mem_read (fun v e => ?_) hw
  cases e
  rfl

end Directive

end LivePages
