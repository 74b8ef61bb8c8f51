import LivePages.Proofs.Html.Escapes
import LivePages.Proofs.Widget.Descriptor
import LivePages.Proofs.Widget.Names

namespace LivePages

/-- The value of a digit in base 16, of those that numbers are written with. -/
def hexValue? (c : Char) : Option Nat :=
  if '0' ≤ c && c ≤ '9' then some (c.toNat - '0'.toNat)
  else if 'a' ≤ c && c ≤ 'f' then some (c.toNat - 'a'.toNat + 10)
  else none

/-- How much of an escape has been read. -/
inductive EscapeState where
  | outside
  | backslash
  | letter
  | digits (value : Option Nat)

/-- What the text between the quotes of a script's string means. It has to be made of plain
characters and of escapes that give the number of a character. -/
def readScript : EscapeState → List Char → Option (List Char)
  | .outside, [] => some []
  | .outside, c :: cs =>
    if c = '\\' then readScript .backslash cs
    else if isPlainScriptChar c then (readScript .outside cs).map (c :: ·)
    else none
  | .backslash, c :: cs => if c = 'u' then readScript .letter cs else none
  | .letter, c :: cs => if c = '{' then readScript (.digits none) cs else none
  | .digits value, c :: cs =>
    if c = '}' then
      match value with
      | some n => if n.isValidChar then (readScript .outside cs).map (Char.ofNat n :: ·) else none
      | none => none
    else
      match hexValue? c with
      | some d => readScript (.digits (some (16 * value.getD 0 + d))) cs
      | none => none
  | _, [] => none

def unescapeScript (text : String) : Option String :=
  (readScript .outside text.toList).map String.ofList

theorem hexValue?_digitChar : ∀ d : Fin 16, hexValue? d.val.digitChar = some d.val := by
  decide

theorem readScript_digit {d : Nat} (hd : d < 16) (value : Option Nat) (cs : List Char) :
    readScript (.digits value) (d.digitChar :: cs) =
      readScript (.digits (some (16 * value.getD 0 + d))) cs := by
  have digit : ∀ d : Fin 16, d.val.digitChar ≠ '}' := by decide
  simp only [readScript, if_neg (digit ⟨d, hd⟩), hexValue?_digitChar ⟨d, hd⟩]

theorem readScript_toDigits (n : Nat) (cs : List Char) :
    readScript (.digits none) (Nat.toDigits 16 n ++ cs) = readScript (.digits (some n)) cs := by
  -- All digits but the last are those of the number divided by 16.
  induction n using Nat.strongRecOn generalizing cs with
  | ind n ih =>
    by_cases hn : n < 16
    · rw [Nat.toDigits_of_lt_base hn, List.singleton_append, readScript_digit hn, Option.getD_none,
        Nat.mul_zero, Nat.zero_add]
    · rw [Nat.toDigits_of_base_le (by decide) (by omega), List.append_assoc, ih (n / 16) (by omega),
        List.singleton_append, readScript_digit (Nat.mod_lt _ (by decide)), Option.getD_some,
        Nat.div_add_mod]

theorem toList_escapeScriptChar (c : Char) : (escapeScriptChar c).toList =
    if isPlainScriptChar c then [c]
    else '\\' :: 'u' :: '{' :: (Nat.toDigits 16 c.toNat ++ ['}']) := by
  rw [escapeScriptChar]
  split
  next => simp
  next => simp [hexOfNat]

theorem toList_escapeScript (text : String) :
    (escapeScript text).toList = text.toList.flatMap fun c => (escapeScriptChar c).toList := by
  rw [escapeScript, String.toList_join, List.flatMap_map]

theorem readScript_escapeScriptChar (c : Char) (cs : List Char) :
    readScript .outside ((escapeScriptChar c).toList ++ cs) =
      (readScript .outside cs).map (c :: ·) := by
  rw [toList_escapeScriptChar]
  split
  next hc =>
    have hs : c ≠ '\\' := by
      rintro rfl
      exact absurd hc (by decide)
    rw [List.singleton_append, readScript, if_neg hs, if_pos hc]
  next =>
    have hv : c.toNat.isValidChar := c.valid
    simp only [List.cons_append, List.append_assoc, readScript, if_true, readScript_toDigits]
    rw [if_pos hv, Char.ofNat_toNat]
    rfl

/-- What is read is what was written. -/
theorem unescapeScript_escapeScript (text : String) : unescapeScript (escapeScript text) = some text := by
  have read (cs : List Char) :
      readScript .outside (cs.flatMap fun c => (escapeScriptChar c).toList) = some cs := by
    induction cs with
    | nil => rfl
    | cons c cs ih => rw [List.flatMap_cons, readScript_escapeScriptChar, ih, Option.map_some]
  rw [unescapeScript, toList_escapeScript, read, Option.map_some, String.ofList_toList]

theorem escapeScript_injective {a b : String} (h : escapeScript a = escapeScript b) : a = b := by
  have hu := congrArg unescapeScript h
  rw [unescapeScript_escapeScript, unescapeScript_escapeScript] at hu
  exact Option.some.inj hu

/-- Plain characters, and those that escapes are made of. -/
def isEscapedScriptChar (c : Char) : Bool :=
  isPlainScriptChar c || c == '\\' || c == '{' || c == '}'

theorem isPlainScriptChar_of_mem_toDigits {n : Nat} {c : Char} (h : c ∈ Nat.toDigits 16 n) :
    isPlainScriptChar c := by
  have digit : ∀ d : Fin 16, isPlainScriptChar d.val.digitChar := by decide
  induction n using Nat.strongRecOn with
  | ind n ih =>
    by_cases hn : n < 16
    · rw [Nat.toDigits_of_lt_base hn, List.mem_singleton] at h
      exact h ▸ digit ⟨n, hn⟩
    · rw [Nat.toDigits_of_base_le (by decide) (by omega), List.mem_append, List.mem_singleton] at h
      rcases h with h | rfl
      · exact ih (n / 16) (by omega) h
      · exact digit ⟨n % 16, Nat.mod_lt _ (by decide)⟩

theorem isEscapedScriptChar_of_mem {text : String} {c : Char} (h : c ∈ (escapeScript text).toList) :
    isEscapedScriptChar c := by
  rw [toList_escapeScript] at h
  obtain ⟨a, -, ha⟩ := List.mem_flatMap.mp h
  rw [toList_escapeScriptChar] at ha
  split at ha
  next hp =>
    cases List.mem_singleton.mp ha
    simp [isEscapedScriptChar, hp]
  next =>
    simp only [List.mem_cons, List.mem_append, List.not_mem_nil, or_false] at ha
    rcases ha with rfl | rfl | rfl | ha | rfl
    · decide
    · decide
    · decide
    · simp [isEscapedScriptChar, isPlainScriptChar_of_mem_toDigits ha]
    · decide

/-- Of the characters that no escape has, a value has the quote only. -/
theorem ScriptValue.not_mem_write {c : Char} (hc : isEscapedScriptChar c = false) (hq : c ≠ '"')
    (v : ScriptValue) : c ∉ v.write.toList := by
  have plain {word : String} (hw : word.toList.all isEscapedScriptChar) : c ∉ word.toList := by
    intro h
    rw [List.all_eq_true.mp hw c h] at hc
    cases hc
  cases v with
  | string value =>
    rw [write, String.toList_append, String.toList_append]
    simp only [List.mem_append, not_or]
    have quote : c ∉ "\"".toList := by simpa using hq
    exact ⟨⟨quote, fun h => by rw [isEscapedScriptChar_of_mem h] at hc; cases hc⟩, quote⟩
  | boolean value => cases value <;> exact plain (by decide)
  | null => exact plain (by decide)

/-- No text that looks like another value is taken for one. -/
theorem ScriptValue.write_injective {a b : ScriptValue} (h : a.write = b.write) : a = b := by
  have hl := congrArg String.toList h
  cases a with
  | string x =>
    cases b with
    | string y =>
      simp only [write, String.append_left_inj, String.append_right_inj] at h
      rw [escapeScript_injective h]
    | boolean y => cases y <;> simp [write] at hl
    | null => simp [write] at hl
  | boolean x => cases x <;> cases b with
    | string y => simp [write] at hl
    | boolean y => cases y <;> first | rfl | simp [write] at hl
    | null => simp [write] at hl
  | null =>
    cases b with
    | string y => simp [write] at hl
    | boolean y => cases y <;> simp [write] at hl
    | null => rfl

namespace Instantiation

variable {i j : Instantiation}

/-- The names in a script, which stand there as they are, have nothing in them to escape. -/
structure Named (i : Instantiation) : Prop where
  elementId : ∀ c ∈ i.elementId.toList, isNameChar c
  channel : ∀ c ∈ i.channel.toList, isNameChar c

theorem charsOf_arguments (values : List ScriptValue) :
    charsOf (values.map fun a => "        " ++ a.write ++ ",") =
      values.flatMap fun a => "        ".toList ++ (a.write.toList ++ [',', '\n']) := by
  rw [charsOf, List.flatMap_map]
  simp

/-- The arguments can be read off their lines, up to a line that stands further to the left. -/
theorem arguments_injective {as bs : List ScriptValue} {r s : List Char}
    (hr : ¬ "        ".toList <+: r) (hs : ¬ "        ".toList <+: s)
    (h : charsOf (as.map fun a => "        " ++ a.write ++ ",") ++ r =
      charsOf (bs.map fun b => "        " ++ b.write ++ ",") ++ s) : as = bs ∧ r = s := by
  rw [charsOf_arguments, charsOf_arguments] at h
  refine flatMap_injective_of_code (q := fun l => ¬ "        ".toList <+: l) (fun a b x y h => ?_)
    (fun a x hn => hn ?_) hr hs h
  · have comma (v : ScriptValue) : ∀ c ∈ v.write.toList, c != ',' := fun c hc =>
      bne_iff_ne.mpr fun e => v.not_mem_write (by decide) (by decide) (e ▸ hc)
    rw [List.append_assoc, List.append_assoc, List.append_assoc, List.append_assoc] at h
    obtain ⟨hw, -⟩ := eq_of_run (comma a) (comma b) rfl rfl (List.append_cancel_left h)
    exact ScriptValue.write_injective (String.toList_inj.mp hw)
  · rw [List.append_assoc]
    exact List.prefix_append _ _

/-- A script, split around the element id and around the arguments. -/
theorem charsOf_lines_eq (i : Instantiation) : charsOf i.lines =
    charsOf ["", "\x7b", "    roomConnection.addWidget();", "    const widget = new " ++ i.className ++ "("] ++
      ("        document.getElementById(\"".toList ++ (i.elementId.toList ++ (charsOf ["\"),"] ++
        (charsOf (i.arguments.map fun a => "        " ++ a.write ++ ",") ++ (charsOf ["    );"] ++
          charsOf (readyLines ++ i.sendLines ++ i.connectionLines ++ i.receiveLines ++ ["\x7d"])))))) := by
  simp [lines, constructorLines, charsOf]

theorem Named.quote_not_mem (h : i.Named) : '"' ∉ i.channel.toList := fun hq =>
  absurd (h.channel _ hq) (by decide)

/-- For one class and one way to be wired, a script is the script of one instantiation only. -/
theorem Named.write_injective (hi : i.Named) (hj : j.Named) (hclass : i.className = j.className)
    (hsends : i.sendsMessages = j.sendsMessages) (htracks : i.tracksConnection = j.tracksConnection)
    (h : i.write = j.write) : i = j := by
  have hchannel := channel_of_write hi.quote_not_mem hj.quote_not_mem h
  have hl := congrArg String.toList h
  rw [toList_write, toList_write, charsOf_lines_eq, charsOf_lines_eq, hclass] at hl
  obtain ⟨hid, hl⟩ := eq_of_run hi.elementId hj.elementId rfl rfl
    (List.append_cancel_left (List.append_cancel_left hl))
  have stop (l : List Char) : ¬ "        ".toList <+: charsOf ["    );"] ++ l := by
    simp [charsOf, List.cons_prefix_cons]
  obtain ⟨harguments, -⟩ := arguments_injective (stop _) (stop _) (List.append_cancel_left hl)
  cases i
  cases j
  exact (mk.injEq ..).mpr
    ⟨hclass, String.toList_inj.mp hid, harguments, hchannel, hsends, htracks⟩

/-- No tag can begin in a script: neither names nor values have what it begins with. -/
theorem Named.lt_not_mem_write (h : i.Named) (hclass : '<' ∉ i.className.toList) :
    '<' ∉ i.write.toList := by
  have hid : '<' ∉ i.elementId.toList := fun hc => absurd (h.elementId _ hc) (by decide)
  have hchannel : '<' ∉ i.channel.toList := fun hc => absurd (h.channel _ hc) (by decide)
  have hvalue (v : ScriptValue) : '<' ∉ v.write.toList := v.not_mem_write (by decide) (by decide)
  have constructor : ∀ line ∈ i.constructorLines, '<' ∉ line.toList := by
    simp only [constructorLines, List.forall_mem_append, List.forall_mem_cons, List.forall_mem_map]
    exact ⟨⟨⟨not_mem_ofList (by decide), not_mem_line (by decide) hclass (by decide),
      not_mem_line (by decide) hid (by decide), List.forall_mem_nil _⟩,
      fun v _ => not_mem_line (by decide) (hvalue v) (by decide)⟩,
      not_mem_ofList (by decide), List.forall_mem_nil _⟩
  have ready : ∀ line ∈ readyLines, '<' ∉ line.toList := by
    simp only [readyLines, List.forall_mem_cons]
    exact ⟨not_mem_ofList (by decide), not_mem_ofList (by decide), not_mem_ofList (by decide),
      not_mem_ofList (by decide), List.forall_mem_nil _⟩
  have send : ∀ line ∈ i.sendLines, '<' ∉ line.toList := by
    rw [sendLines]
    split
    next =>
      simp only [List.forall_mem_cons]
      exact ⟨not_mem_ofList (by decide), not_mem_line (by decide) hchannel (by decide),
        not_mem_ofList (by decide), List.forall_mem_nil _⟩
    next => exact List.forall_mem_nil _
  have connection : ∀ line ∈ i.connectionLines, '<' ∉ line.toList := by
    rw [connectionLines]
    split
    next =>
      simp only [List.forall_mem_cons]
      exact ⟨not_mem_ofList (by decide), not_mem_ofList (by decide), not_mem_ofList (by decide),
        not_mem_ofList (by decide), not_mem_ofList (by decide), not_mem_ofList (by decide),
        List.forall_mem_nil _⟩
    next => exact List.forall_mem_nil _
  have receive : ∀ line ∈ i.receiveLines, '<' ∉ line.toList := by
    simp only [receiveLines, List.forall_mem_cons]
    exact ⟨not_mem_line (by decide) hchannel (by decide), not_mem_ofList (by decide),
      not_mem_ofList (by decide), not_mem_ofList (by decide), List.forall_mem_nil _⟩
  have all : ∀ line ∈ i.lines, '<' ∉ line.toList := by
    simp only [lines, List.forall_mem_append]
    exact ⟨⟨⟨⟨⟨⟨by decide, constructor⟩, ready⟩, send⟩, connection⟩, receive⟩, by decide⟩
  rw [toList_write, charsOf, List.mem_flatMap]
  rintro ⟨line, hl, hc⟩
  rcases List.mem_append.mp hc with hc | hc
  · exact all line hl hc
  · exact absurd hc (by decide)

end Instantiation

theorem WidgetDescriptor.named_instantiation {m : WidgetMarkup} {w : WidgetDescriptor}
    (h : m.Describes w) : w.instantiation.Named where
  elementId := by
    obtain ⟨defining, hn⟩ := h.named
    have kind : w.kind.name.toList.all isNameChar := by cases w.kind <;> decide
    intro c hc
    simp only [instantiation, elementId, String.toList_append, List.mem_append] at hc
    rcases hc with ((hc | hc) | hc) | hc
    · exact List.all_eq_true.mp (by decide : "widget-".toList.all isNameChar) c hc
    · exact List.all_eq_true.mp kind c hc
    · exact List.all_eq_true.mp (by decide : "-".toList.all isNameChar) c hc
    · exact WidgetMarkup.isNameChar_assignName hn hc
  channel := by
    obtain ⟨defining, hn⟩ := h.named
    exact fun c => WidgetMarkup.isNameChar_assignName hn

theorem WidgetDescriptor.lt_not_mem_script {m : WidgetMarkup} {w : WidgetDescriptor}
    (h : m.Describes w) : '<' ∉ w.instantiation.write.toList := by
  refine (named_instantiation h).lt_not_mem_write ?_
  rw [instantiation]
  cases w.content <;> simp [WidgetContent.className]

/-- Whatever an author writes, it stays inside the script of the widget: no tag begins in the
script, its names have nothing to escape, its strings are plain characters and escapes that are read
back as what was written, and no two instantiations of a class have one script. -/
theorem WidgetMarkup.script_of_descriptor {m : WidgetMarkup} {s : Settings} {w : WidgetDescriptor}
    (h : m.descriptor s = .ok w) :
    '<' ∉ w.instantiation.write.toList ∧ w.instantiation.Named ∧
      (∀ text : String, (∀ c ∈ (escapeScript text).toList, isEscapedScriptChar c) ∧
        unescapeScript (escapeScript text) = some text) ∧
      ∀ i j : Instantiation, i.Named → j.Named → i.className = j.className →
        i.sendsMessages = j.sendsMessages → i.tracksConnection = j.tracksConnection →
        i.write = j.write → i = j := by
  have described := describes_descriptor h
  exact ⟨WidgetDescriptor.lt_not_mem_script described, WidgetDescriptor.named_instantiation described,
    fun text => ⟨fun _ => isEscapedScriptChar_of_mem, unescapeScript_escapeScript text⟩,
    fun _ _ hi hj hclass hsends htracks => hi.write_injective hj hclass hsends htracks⟩

/-- A button whose label would end the script. -/
def WidgetMarkup.endingButton : WidgetMarkup :=
  ⟨.button, .root, 0, .ofList [("command", "ls"), ("image", "alpine"), ("label", "\"</script>")], 0⟩

theorem WidgetMarkup.script_of_descriptor_button : ∃ w,
    endingButton.descriptor .default = .ok w ∧ '<' ∉ w.instantiation.write.toList ∧
      unescapeScript (escapeScript "\"</script>") = some "\"</script>" := by
  obtain ⟨w, h, -⟩ := exists_ok (x := endingButton.descriptor .default) (p := fun _ => true)
    (by decide +kernel)
  obtain ⟨closed, -, strings, -⟩ := script_of_descriptor h
  exact ⟨w, h, closed, (strings _).2⟩

end LivePages
