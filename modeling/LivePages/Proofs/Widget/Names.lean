import LivePages.Proofs.Outcome
import LivePages.Proofs.Text.Hex
import LivePages.Widget.Descriptor
import LivePages.Widget.Script
import Mathlib.Data.List.Basic

namespace LivePages

theorem isNameChar_hexDigit (n : Nat) : isNameChar (hexDigit n) :=
  hexDigit_of_all (by decide) n

theorem isNameChar_hexOfBytes (bytes : List UInt8) {c : Char} (h : c ∈ (hexOfBytes bytes).toList) :
    isNameChar c := by
  rw [hexOfBytes, String.toList_ofList] at h
  obtain ⟨b, -, hc⟩ := List.mem_flatMap.mp h
  rcases List.mem_cons.mp hc with rfl | hc
  · exact isNameChar_hexDigit _
  · cases List.mem_singleton.mp hc
    exact isNameChar_hexDigit _

/-- Names are made of lower-case letters, digits and dashes, whether an author has chosen them or not. -/
theorem WidgetMarkup.isNameChar_assignName {m : WidgetMarkup} {defining : List String} {name : String}
    (h : m.assignName defining = .ok name) {c : Char} (hc : c ∈ name.toList) : isNameChar c := by
  rw [assignName] at h
  split at h
  next token _ =>
    split at h
    next ht =>
      cases Except.ok.inj h
      rw [chosenName, String.toList_append, String.toList_append] at hc
      rcases List.mem_append.mp hc with hc | hc
      · rcases List.mem_append.mp hc with hc | hc
        · exact isNameChar_hexOfBytes _ hc
        · cases List.mem_singleton.mp hc
          decide
      · exact List.all_eq_true.mp (Bool.and_eq_true_iff.mp ht).2 c hc
    next => cases h
  next =>
    cases Except.ok.inj h
    exact isNameChar_hexOfBytes _ hc

/-- A kind and a name can be read off an element id. -/
theorem WidgetKind.eq_of_elementId {j k : WidgetKind} {a b : String}
    (h : "widget-" ++ j.name ++ "-" ++ a = "widget-" ++ k.name ++ "-" ++ b) : j = k ∧ a = b := by
  have hl := congrArg String.toList h
  simp only [String.toList_append] at hl
  cases j <;> cases k <;> simp [name] at hl ⊢ <;> exact String.toList_inj.mp hl

/-- What comes after the last occurrence of a character is determined. -/
theorem eq_of_append_cons {a : Char} {x y l r : List Char} (hl : a ∉ l) (hr : a ∉ r)
    (h : x ++ a :: l = y ++ a :: r) : l = r := by
  induction x generalizing y with
  | nil =>
    cases y with
    | nil => exact List.tail_eq_of_cons_eq h
    | cons b y =>
      have hl' : l = y ++ a :: r := List.tail_eq_of_cons_eq h
      exact absurd (hl' ▸ List.mem_append_right y List.mem_cons_self) hl
  | cons b x ih =>
    cases y with
    | nil =>
      have hr' : x ++ a :: l = r := List.tail_eq_of_cons_eq h
      exact absurd (hr' ▸ List.mem_append_right x List.mem_cons_self) hr
    | cons c y => exact ih (List.tail_eq_of_cons_eq h)

namespace Instantiation

def charsOf (lines : List String) : List Char :=
  lines.flatMap fun line => line.toList ++ ['\n']

theorem charsOf_append (a b : List String) : charsOf (a ++ b) = charsOf a ++ charsOf b :=
  List.flatMap_append

theorem charsOf_cons (a b c : String) (lines : List String) :
    charsOf ((a ++ b ++ c) :: lines) = a.toList ++ (b.toList ++ charsOf (c :: lines)) := by
  simp [charsOf, String.toList_append]

theorem toList_write (i : Instantiation) : i.write.toList = charsOf i.lines := by
  rw [write, String.toList_join, List.flatMap_map]
  refine List.flatMap_congr fun line _ => ?_
  rw [String.toList_append]
  rfl

/-- What a script ends with, after its last mention of the channel. -/
def ending : List String :=
  ["\", event => \x7b", "        widget.handleMessage(event.detail);", "    \x7d);",
    "    widget.start();", "\x7d"]

theorem charsOf_lines (i : Instantiation) :
    ∃ before, charsOf i.lines = before ++ '"' :: (i.channel.toList ++ charsOf ending) := by
  obtain ⟨before, hl⟩ : ∃ before, i.lines = before ++ (i.receiveLines ++ ["\x7d"]) :=
    ⟨_, by rw [lines, List.append_assoc]⟩
  obtain ⟨start, hs⟩ : ∃ start, "    roomConnection.addEventListener(\"".toList = start ++ ['"'] :=
    ⟨"    roomConnection.addEventListener(".toList, by simp⟩
  have hr : charsOf (i.receiveLines ++ ["\x7d"]) = start ++ ['"'] ++ (i.channel.toList ++ charsOf ending) :=
    hs ▸ charsOf_cons ..
  exact ⟨charsOf before ++ start, by rw [hl, charsOf_append, hr]; simp⟩

/-- The channel can be read off a script, as long as there are no quotes in it. -/
theorem channel_of_write {i j : Instantiation} (hi : '"' ∉ i.channel.toList)
    (hj : '"' ∉ j.channel.toList) (h : i.write = j.write) : i.channel = j.channel := by
  obtain ⟨a, ha⟩ := i.charsOf_lines
  obtain ⟨b, hb⟩ := j.charsOf_lines
  have hl : (a ++ '"' :: i.channel.toList) ++ charsOf ending =
      (b ++ '"' :: j.channel.toList) ++ charsOf ending := by
    rw [List.append_assoc, List.append_assoc, List.cons_append, List.cons_append, ← ha, ← hb,
      ← toList_write, ← toList_write, h]
  -- After the common ending is cut off, the channel is what follows the last quote.
  exact String.toList_inj.mp (eq_of_append_cons hi hj (List.append_cancel_right hl))

end Instantiation

end LivePages
