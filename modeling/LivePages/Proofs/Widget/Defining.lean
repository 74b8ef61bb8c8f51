import LivePages.Proofs.Widget.Descriptor
import LivePages.Proofs.Widget.Identity

namespace LivePages

namespace WidgetKind

/-- Whether the process of a widget is a command of the author; otherwise it watches a file. -/
def runsCommand : WidgetKind → Bool
  | button => true
  | terminal => true
  | prologue => true
  | epilogue => true
  | _ => false

/-- The image and the command line of a process, read off the values that a generated name depends
on. -/
def process? (s : Settings) : WidgetKind → List String → Option (String × List String)
  | button, [command, image, _] => (commandWords command).map fun words => (image, words)
  | terminal, [image, command, _] => (commandWords command).map fun words => (image, words)
  | prologue, [command, image, _] => (commandWords command).map fun words => (image, words)
  | epilogue, [command, image, _] => (commandWords command).map fun words => (image, words)
  | imageViewer, [file, _, success, failure] =>
    some (s.monitorImage, [s.monitorCommand, file, success, failure])
  | textEditor, [file, _, success, failure] =>
    some (s.monitorImage, [s.monitorCommand, file, success, failure])
  | textViewer, [file, success, failure] =>
    some (s.monitorImage, [s.monitorCommand, file, success, failure])
  | _, _ => none

end WidgetKind

namespace WidgetMarkup

variable {m m₁ m₂ : WidgetMarkup} {s : Settings} {w : WidgetDescriptor} {values : List String}
  {limits : ResourceLimits} {name : String} {content : WidgetContent}

/-- The values that a generated name depends on besides kind, page and position. -/
def defining (m : WidgetMarkup) (s : Settings) : Except WidgetError (List String) :=
  let directory := m.workingDirectory?.getD ""
  match m.kind with
  | .button => return [← m.require "command", ← m.require "image", ← m.require "label"]
  | .terminal => return [← m.require "image", ← m.require "command", directory]
  | .prologue => return [← m.require "command", ← m.require "image", directory]
  | .epilogue => return [← m.require "command", ← m.require "image", directory]
  | .imageViewer =>
    return [← m.require "file", ← m.require "mime", ← m.successTimeout s, ← m.failureTimeout s]
  | .textEditor =>
    return [← m.require "file", (m.attribute? "mode").getD "", ← m.successTimeout s,
      ← m.failureTimeout s]
  | .textViewer => return [← m.require "file", ← m.successTimeout s, ← m.failureTimeout s]

/-- A name is the one of a markup under its defining values. -/
def Names (m : WidgetMarkup) (s : Settings) (name : String) : Prop :=
  ∃ values, m.defining s = .ok values ∧ m.assignName values = .ok name

/-- A widget's name, image and command line come from the defining values of its markup. The
directory comes from the markup itself, whether or not it is among these values. -/
structure Starts (m : WidgetMarkup) (s : Settings) (values : List String) (w : WidgetDescriptor) :
    Prop where
  defining : m.defining s = .ok values
  name : m.assignName values = .ok w.name
  process : m.kind.process? s values = some (w.image, w.command)
  workingDirectory : w.workingDirectory = if m.kind.runsCommand then m.workingDirectory? else none

theorem starts_runCommand {image command : String} (hd : m.defining s = .ok values)
    (hn : m.assignName values = .ok name)
    (h : m.runCommand limits name image command content = .ok w) (hr : m.kind.runsCommand)
    (hp : m.kind.process? s values = (commandWords command).map fun words => (image, words)) :
    m.Starts s values w := by
  obtain ⟨words, hw, h⟩ := bind_eq_ok.mp h
  cases Except.ok.inj h
  have hc : commandWords command = some words := by
    rw [splitCommand] at hw
    split at hw
    next hc => exact Except.ok.inj hw ▸ hc
    next => cases hw
  exact ⟨hd, hn, by rw [hp, hc, Option.map_some], by rw [if_pos hr]⟩

theorem starts_monitorFile {file success failure : String} (hd : m.defining s = .ok values)
    (hn : m.assignName values = .ok name) (hr : ¬ m.kind.runsCommand)
    (hp : m.kind.process? s values =
      some (s.monitorImage, [s.monitorCommand, file, success, failure])) :
    m.Starts s values (m.monitorFile s limits name file success failure content) :=
  ⟨hd, hn, hp, by rw [if_neg hr]; rfl⟩

theorem starts_button (h : m.button s = .ok w) (hk : m.kind = .button) :
    ∃ values, m.Starts s values w := by
  obtain ⟨_, _, _, _, _, hc, hi, hl, -, hn, h⟩ := button_eq_ok h
  refine ⟨_, starts_runCommand ?_ hn h (by rw [hk]; rfl) (by rw [hk]; rfl)⟩
  simp only [defining, hk, hc, hi, hl, ok_bind]
  rfl

theorem starts_terminal (h : m.terminal s = .ok w) (hk : m.kind = .terminal) :
    ∃ values, m.Starts s values w := by
  obtain ⟨_, _, _, _, hi, hc, -, hn, h⟩ := terminal_eq_ok h
  refine ⟨_, starts_runCommand ?_ hn h (by rw [hk]; rfl) (by rw [hk]; rfl)⟩
  simp only [defining, hk, hc, hi, ok_bind]
  rfl

theorem starts_stage {stage : String → Bool → WidgetContent} (h : m.stage s stage = .ok w)
    (hk : m.kind = .prologue ∨ m.kind = .epilogue) : ∃ values, m.Starts s values w := by
  obtain ⟨_, _, _, _, hc, hi, -, hn, h⟩ := stage_eq_ok h
  rcases hk with hk | hk <;>
  · refine ⟨_, starts_runCommand ?_ hn h (by rw [hk]; rfl) (by rw [hk]; rfl)⟩
    simp only [defining, hk, hc, hi, ok_bind]
    rfl

theorem starts_imageViewer (h : m.imageViewer s = .ok w) (hk : m.kind = .imageViewer) :
    ∃ values, m.Starts s values w := by
  obtain ⟨_, _, _, _, _, _, hf, hm, hs, hx, -, hn, rfl⟩ := imageViewer_eq_ok h
  refine ⟨_, starts_monitorFile ?_ hn (by rw [hk]; decide) (by rw [hk]; rfl)⟩
  simp only [defining, hk, hf, hm, hs, hx, ok_bind]
  rfl

theorem starts_textEditor (h : m.textEditor s = .ok w) (hk : m.kind = .textEditor) :
    ∃ values, m.Starts s values w := by
  obtain ⟨_, _, _, _, _, hf, hs, hx, -, hn, rfl⟩ := textEditor_eq_ok h
  refine ⟨_, starts_monitorFile ?_ hn (by rw [hk]; decide) (by rw [hk]; rfl)⟩
  simp only [defining, hk, hf, hs, hx, ok_bind]
  rfl

theorem starts_textViewer (h : m.textViewer s = .ok w) (hk : m.kind = .textViewer) :
    ∃ values, m.Starts s values w := by
  obtain ⟨_, _, _, _, _, hf, hs, hx, -, hn, rfl⟩ := textViewer_eq_ok h
  refine ⟨_, starts_monitorFile ?_ hn (by rw [hk]; decide) (by rw [hk]; rfl)⟩
  simp only [defining, hk, hf, hs, hx, ok_bind]
  rfl

theorem starts_descriptor (h : m.descriptor s = .ok w) : ∃ values, m.Starts s values w := by
  rw [descriptor] at h
  split at h
  next hk => exact starts_button h hk
  next hk => exact starts_stage h (.inr hk)
  next hk => exact starts_imageViewer h hk
  next hk => exact starts_stage h (.inl hk)
  next hk => exact starts_terminal h hk
  next hk => exact starts_textEditor h hk
  next hk => exact starts_textViewer h hk

theorem names_descriptor (h : m.descriptor s = .ok w) : m.Names s w.name := by
  obtain ⟨values, h⟩ := starts_descriptor h
  exact ⟨values, h.defining, h.name⟩

/-- The text whose digest is the name of a markup, unless an author has chosen one. -/
def hashedText? (m : WidgetMarkup) (s : Settings) : Option String :=
  match m.explicitName?, m.defining s with
  | none, .ok values => some (digestText (m.definingTexts values))
  | _, _ => none

theorem hashedText?_eq_some {values : List String} (he : m.explicitName? = none)
    (hd : m.defining s = .ok values) :
    m.hashedText? s = some (digestText (m.definingTexts values)) := by
  rw [hashedText?, he, hd]

/-- Widgets in different places of a page share a name if an author has chosen it for both, and only
then as long as the digest tells their texts apart. -/
theorem name_eq_iff_chosen {n₁ n₂ : String} (h₁ : m₁.Names s n₁) (h₂ : m₂.Names s n₂)
    (proper : m₁.page.Proper) (page : m₁.page = m₂.page) (position : m₁.position ≠ m₂.position)
    (hash : ∀ a ∈ m₁.hashedText? s, ∀ b ∈ m₂.hashedText? s,
      digest (bytesOf a) = digest (bytesOf b) → a = b) :
    n₁ = n₂ ↔ ∃ token, m₁.explicitName? = some token ∧ m₂.explicitName? = some token := by
  obtain ⟨v₁, hv₁, h₁⟩ := h₁
  obtain ⟨v₂, hv₂, h₂⟩ := h₂
  constructor
  · intro h
    have same : m₁.SameIdentity m₂ v₁ v₂ := by
      refine same_of_name_eq proper (page ▸ proper) h₁ h₂ (fun e₁ e₂ h => ?_) h
      exact digestText_definingTexts_injective (hash _ (hashedText?_eq_some e₁ hv₁) _
        (hashedText?_eq_some e₂ hv₂) (hexOfBytes_injective h))
    cases same with
    | anonymous _ _ _ _ same => exact absurd same position
    | chosen token first second => exact ⟨token, first, second⟩
  · rintro ⟨token, first, second⟩
    exact name_eq_of_same h₁ h₂ (.chosen token first second page)

end WidgetMarkup

end LivePages
