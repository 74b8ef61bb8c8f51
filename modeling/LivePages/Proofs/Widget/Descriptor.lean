import LivePages.Proofs.Outcome
import LivePages.Widget.Descriptor

namespace LivePages

/-- A descriptor is about the element of a markup and of its kind. -/
structure WidgetMarkup.Describes (m : WidgetMarkup) (w : WidgetDescriptor) : Prop where
  kind : w.kind = m.kind
  page : w.page = m.page
  position : w.position = m.position
  node : w.node = m.node
  named : ∃ defining, m.assignName defining = .ok w.name

namespace WidgetMarkup

variable {m : WidgetMarkup} {s : Settings} {w : WidgetDescriptor}

/-- What a button is made from. Each value has passed its check; so for the other kinds. -/
theorem button_eq_ok (h : m.button s = .ok w) : ∃ command image label limits name,
    m.require "command" = .ok command ∧ m.require "image" = .ok image ∧
    m.require "label" = .ok label ∧ m.limits s = .ok limits ∧
    m.assignName [command, image, label] = .ok name ∧
    m.runCommand limits name image command (.button command label) = .ok w := by
  obtain ⟨command, hc, h⟩ := bind_eq_ok.mp h
  obtain ⟨image, hi, h⟩ := bind_eq_ok.mp h
  obtain ⟨label, hl, h⟩ := bind_eq_ok.mp h
  obtain ⟨limits, hr, h⟩ := bind_eq_ok.mp h
  obtain ⟨name, hn, h⟩ := bind_eq_ok.mp h
  exact ⟨command, image, label, limits, name, hc, hi, hl, hr, hn, h⟩

theorem terminal_eq_ok (h : m.terminal s = .ok w) : ∃ image command limits name,
    m.require "image" = .ok image ∧ m.require "command" = .ok command ∧
    m.limits s = .ok limits ∧
    m.assignName [image, command, m.workingDirectory?.getD ""] = .ok name ∧
    m.runCommand limits name image command (.terminal command m.workingDirectory?) = .ok w := by
  obtain ⟨image, hi, h⟩ := bind_eq_ok.mp h
  obtain ⟨command, hc, h⟩ := bind_eq_ok.mp h
  obtain ⟨limits, hr, h⟩ := bind_eq_ok.mp h
  obtain ⟨name, hn, h⟩ := bind_eq_ok.mp h
  exact ⟨image, command, limits, name, hi, hc, hr, hn, h⟩

theorem stage_eq_ok {content : String → Bool → WidgetContent} (h : m.stage s content = .ok w) :
    ∃ command image limits name,
      m.require "command" = .ok command ∧ m.require "image" = .ok image ∧
      m.limits s = .ok limits ∧
      m.assignName [command, image, m.workingDirectory?.getD ""] = .ok name ∧
      m.runCommand limits name image command (content command (m.hasAttribute "hidden")) =
        .ok w := by
  obtain ⟨command, hc, h⟩ := bind_eq_ok.mp h
  obtain ⟨image, hi, h⟩ := bind_eq_ok.mp h
  obtain ⟨limits, hr, h⟩ := bind_eq_ok.mp h
  obtain ⟨name, hn, h⟩ := bind_eq_ok.mp h
  exact ⟨command, image, limits, name, hc, hi, hr, hn, h⟩

theorem imageViewer_eq_ok (h : m.imageViewer s = .ok w) :
    ∃ file mime success failure limits name,
      m.require "file" = .ok file ∧ m.require "mime" = .ok mime ∧
      m.successTimeout s = .ok success ∧ m.failureTimeout s = .ok failure ∧
      m.limits s = .ok limits ∧ m.assignName [file, mime, success, failure] = .ok name ∧
      w = m.monitorFile s limits name file success failure (.imageViewer file mime) := by
  obtain ⟨file, hf, h⟩ := bind_eq_ok.mp h
  obtain ⟨mime, hm, h⟩ := bind_eq_ok.mp h
  obtain ⟨success, hs, h⟩ := bind_eq_ok.mp h
  obtain ⟨failure, hx, h⟩ := bind_eq_ok.mp h
  obtain ⟨limits, hr, h⟩ := bind_eq_ok.mp h
  obtain ⟨name, hn, h⟩ := bind_eq_ok.mp h
  exact ⟨file, mime, success, failure, limits, name, hf, hm, hs, hx, hr, hn, (Except.ok.inj h).symm⟩

theorem textEditor_eq_ok (h : m.textEditor s = .ok w) : ∃ file success failure limits name,
    m.require "file" = .ok file ∧ m.successTimeout s = .ok success ∧
    m.failureTimeout s = .ok failure ∧ m.limits s = .ok limits ∧
    m.assignName [file, (m.attribute? "mode").getD "", success, failure] = .ok name ∧
    w = m.monitorFile s limits name file success failure
      (.textEditor file (m.attribute? "mode")) := by
  obtain ⟨file, hf, h⟩ := bind_eq_ok.mp h
  obtain ⟨success, hs, h⟩ := bind_eq_ok.mp h
  obtain ⟨failure, hx, h⟩ := bind_eq_ok.mp h
  obtain ⟨limits, hr, h⟩ := bind_eq_ok.mp h
  obtain ⟨name, hn, h⟩ := bind_eq_ok.mp h
  exact ⟨file, success, failure, limits, name, hf, hs, hx, hr, hn, (Except.ok.inj h).symm⟩

theorem textViewer_eq_ok (h : m.textViewer s = .ok w) : ∃ file success failure limits name,
    m.require "file" = .ok file ∧ m.successTimeout s = .ok success ∧
    m.failureTimeout s = .ok failure ∧ m.limits s = .ok limits ∧
    m.assignName [file, success, failure] = .ok name ∧
    w = m.monitorFile s limits name file success failure
      (.textViewer file (m.attribute? "mode")) := by
  obtain ⟨file, hf, h⟩ := bind_eq_ok.mp h
  obtain ⟨success, hs, h⟩ := bind_eq_ok.mp h
  obtain ⟨failure, hx, h⟩ := bind_eq_ok.mp h
  obtain ⟨limits, hr, h⟩ := bind_eq_ok.mp h
  obtain ⟨name, hn, h⟩ := bind_eq_ok.mp h
  exact ⟨file, success, failure, limits, name, hf, hs, hx, hr, hn, (Except.ok.inj h).symm⟩

theorem describes_runCommand {limits : ResourceLimits} {name image command : String}
    {content : WidgetContent} {defining : List String} (hn : m.assignName defining = .ok name)
    (h : m.runCommand limits name image command content = .ok w) (hk : content.kind = m.kind) :
    m.Describes w := by
  obtain ⟨words, -, h⟩ := bind_eq_ok.mp h
  cases Except.ok.inj h
  exact ⟨hk, rfl, rfl, rfl, defining, hn⟩

theorem describes_monitorFile {limits : ResourceLimits} {name file success failure : String}
    {content : WidgetContent} {defining : List String} (hn : m.assignName defining = .ok name)
    (hk : content.kind = m.kind) :
    m.Describes (m.monitorFile s limits name file success failure content) :=
  ⟨hk, rfl, rfl, rfl, defining, hn⟩

theorem describes_stage {content : String → Bool → WidgetContent} (h : m.stage s content = .ok w)
    (hk : ∀ command hidden, (content command hidden).kind = m.kind) : m.Describes w := by
  obtain ⟨_, _, _, _, -, -, -, hn, h⟩ := stage_eq_ok h
  exact describes_runCommand hn h (hk _ _)

theorem describes_button (h : m.button s = .ok w) (hk : m.kind = .button) : m.Describes w := by
  obtain ⟨_, _, _, _, _, -, -, -, -, hn, h⟩ := button_eq_ok h
  exact describes_runCommand hn h hk.symm

theorem describes_terminal (h : m.terminal s = .ok w) (hk : m.kind = .terminal) : m.Describes w := by
  obtain ⟨_, _, _, _, -, -, -, hn, h⟩ := terminal_eq_ok h
  exact describes_runCommand hn h hk.symm

theorem describes_imageViewer (h : m.imageViewer s = .ok w) (hk : m.kind = .imageViewer) :
    m.Describes w := by
  obtain ⟨_, _, _, _, _, _, -, -, -, -, -, hn, rfl⟩ := imageViewer_eq_ok h
  exact describes_monitorFile hn hk.symm

theorem describes_textEditor (h : m.textEditor s = .ok w) (hk : m.kind = .textEditor) :
    m.Describes w := by
  obtain ⟨_, _, _, _, _, -, -, -, -, hn, rfl⟩ := textEditor_eq_ok h
  exact describes_monitorFile hn hk.symm

theorem describes_textViewer (h : m.textViewer s = .ok w) (hk : m.kind = .textViewer) :
    m.Describes w := by
  obtain ⟨_, _, _, _, _, -, -, -, -, hn, rfl⟩ := textViewer_eq_ok h
  exact describes_monitorFile hn hk.symm

theorem describes_descriptor (h : m.descriptor s = .ok w) : m.Describes w := by
  rw [descriptor] at h
  split at h
  next hk => exact describes_button h hk
  next hk => exact describes_stage h fun _ _ => hk.symm
  next hk => exact describes_imageViewer h hk
  next hk => exact describes_stage h fun _ _ => hk.symm
  next hk => exact describes_terminal h hk
  next hk => exact describes_textEditor h hk
  next hk => exact describes_textViewer h hk

end WidgetMarkup

end LivePages
