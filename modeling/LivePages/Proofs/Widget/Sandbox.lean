import LivePages.Proofs.Widget.Defining

namespace LivePages

/-- Two executors start the same process; the directory that it starts in is left open. -/
structure Executor.SameProcess (e₁ e₂ : Executor) : Prop where
  image : e₁.image = e₂.image
  command : e₁.command = e₂.command
  lifecycle : e₁.lifecycle = e₂.lifecycle
  enableTty : e₁.enableTty = e₂.enableTty

namespace WidgetContent

variable {c c' : WidgetContent}

theorem lifecycle_congr (h : c.kind = c'.kind) : c.lifecycle = c'.lifecycle := by
  revert h
  cases c <;> cases c' <;> simp [kind, lifecycle]

theorem enableTty_congr (h : c.kind = c'.kind) : c.enableTty = c'.enableTty := by
  revert h
  cases c <;> cases c' <;> simp [kind, enableTty]

end WidgetContent

namespace WidgetMarkup

variable {m m₁ m₂ : WidgetMarkup} {s : Settings} {w₁ w₂ : WidgetDescriptor}
  {values v₁ v₂ : List String}

/-- A directory that is not given is among the defining values as the empty text. -/
theorem getLast?_defining (h : m.defining s = .ok values) (hr : m.kind.runsCommand)
    (hb : m.kind ≠ .button) : values.getLast? = some (m.workingDirectory?.getD "") := by
  have last {first second : String}
      (h : (do return [← m.require first, ← m.require second, m.workingDirectory?.getD ""]) =
        (Except.ok values : Except WidgetError (List String))) :
      values.getLast? = some (m.workingDirectory?.getD "") := by
    obtain ⟨_, -, h⟩ := bind_eq_ok.mp h
    obtain ⟨_, -, h⟩ := bind_eq_ok.mp h
    cases Except.ok.inj h
    rfl
  unfold defining at h
  cases hk : m.kind with
  | button => exact absurd hk hb
  | terminal => rw [hk] at h; exact last h
  | prologue => rw [hk] at h; exact last h
  | epilogue => rw [hk] at h; exact last h
  | imageViewer => rw [hk] at hr; cases hr
  | textEditor => rw [hk] at hr; cases hr
  | textViewer => rw [hk] at hr; cases hr

/-- What stands under the digest of two equal names is the same, if the digest tells texts apart. -/
theorem definingTexts_eq_of_name_eq (s₁ : m₁.Starts s v₁ w₁) (s₂ : m₂.Starts s v₂ w₂)
    (e₁ : m₁.explicitName? = none) (e₂ : m₂.explicitName? = none)
    (hash : ∀ a ∈ m₁.hashedText? s, ∀ b ∈ m₂.hashedText? s,
      digest (bytesOf a) = digest (bytesOf b) → a = b)
    (h : w₁.name = w₂.name) : m₁.definingTexts v₁ = m₂.definingTexts v₂ := by
  rw [name_of_anonymous e₁ s₁.name, name_of_anonymous e₂ s₂.name] at h
  exact digestText_definingTexts_injective (hash _ (hashedText?_eq_some e₁ s₁.defining) _
    (hashedText?_eq_some e₂ s₂.defining) (hexOfBytes_injective h))

/-- Widgets with equal generated names start the same process. It starts in the same directory
exactly if their markups name the same one or it watches a file: the name of a button says nothing
of the directory, and other names do not tell an empty one from one that is not given. -/
theorem sandbox_of_name_eq (h₁ : m₁.descriptor s = .ok w₁) (h₂ : m₂.descriptor s = .ok w₂)
    (e₁ : m₁.explicitName? = none) (e₂ : m₂.explicitName? = none)
    (hash : ∀ a ∈ m₁.hashedText? s, ∀ b ∈ m₂.hashedText? s,
      digest (bytesOf a) = digest (bytesOf b) → a = b)
    (h : w₁.name = w₂.name) :
    (w₁.executor s).SameProcess (w₂.executor s) ∧
      ((w₁.executor s).workingDirectory = (w₂.executor s).workingDirectory ↔
        (m₁.kind.runsCommand → m₁.workingDirectory? = m₂.workingDirectory?)) ∧
      (m₁.kind ≠ .button → (w₁.executor s).workingDirectory.getD "" =
        (w₂.executor s).workingDirectory.getD "") := by
  obtain ⟨v₁, s₁⟩ := starts_descriptor h₁
  obtain ⟨v₂, s₂⟩ := starts_descriptor h₂
  have texts := definingTexts_eq_of_name_eq s₁ s₂ e₁ e₂ hash h
  simp only [definingTexts, List.cons.injEq] at texts
  obtain ⟨hk, -, -, rfl⟩ := texts
  have kind : m₁.kind = m₂.kind := WidgetKind.name_injective hk
  have process : some (w₁.image, w₁.command) = some (w₂.image, w₂.command) := by
    rw [← s₁.process, ← s₂.process, kind]
  obtain ⟨image, command⟩ := Prod.mk.inj (Option.some.inj process)
  have content : w₁.content.kind = w₂.content.kind :=
    (describes_descriptor h₁).kind.trans (kind.trans (describes_descriptor h₂).kind.symm)
  have d₁ : (w₁.executor s).workingDirectory = _ := s₁.workingDirectory
  have d₂ : (w₂.executor s).workingDirectory = _ := s₂.workingDirectory
  rw [← kind] at d₂
  refine ⟨⟨image, command, WidgetContent.lifecycle_congr content,
    WidgetContent.enableTty_congr content⟩, ?_, fun hb => ?_⟩
  · rw [d₁, d₂]
    by_cases hr : m₁.kind.runsCommand
    · rw [if_pos hr, if_pos hr, forall_prop_of_true hr]
    · rw [if_neg hr, if_neg hr]
      exact iff_of_true rfl fun h => absurd h hr
  · rw [d₁, d₂]
    by_cases hr : m₁.kind.runsCommand
    · rw [if_pos hr, if_pos hr]
      have l₁ := getLast?_defining s₁.defining hr hb
      have l₂ := getLast?_defining s₂.defining (kind ▸ hr) (kind ▸ hb)
      exact Option.some.inj (l₁.symm.trans l₂)
    · rw [if_neg hr, if_neg hr]

/-- A button whose command runs in a directory. -/
def buttonIn (directory : String) : WidgetMarkup :=
  ⟨.button, .root, 0, .ofList [("command", "pwd"), ("image", "alpine"), ("label", "Go"),
    ("working-directory", directory)], 0⟩

theorem sandbox_buttonIn : ∃ w₁ w₂, (buttonIn "/a").descriptor .default = .ok w₁ ∧
    (buttonIn "/b").descriptor .default = .ok w₂ ∧ w₁.name = w₂.name ∧
    (w₁.executor .default).SameProcess (w₂.executor .default) ∧
    (w₁.executor .default).workingDirectory ≠ (w₂.executor .default).workingDirectory := by
  obtain ⟨w₁, h₁, -⟩ : ∃ w, (buttonIn "/a").descriptor .default = .ok w ∧
      w.workingDirectory == some "/a" :=
    exists_ok (by decide +kernel)
  obtain ⟨w₂, h₂, -⟩ : ∃ w, (buttonIn "/b").descriptor .default = .ok w ∧
      w.workingDirectory == some "/b" :=
    exists_ok (by decide +kernel)
  have same : (buttonIn "/a").hashedText? .default = (buttonIn "/b").hashedText? .default := by
    decide +kernel
  have name : w₁.name = w₂.name := by
    obtain ⟨v₁, d₁, n₁⟩ := names_descriptor h₁
    obtain ⟨v₂, d₂, n₂⟩ := names_descriptor h₂
    have e₁ : v₁ = ["pwd", "alpine", "Go"] := (Except.ok.inj d₁).symm
    have e₂ : v₂ = ["pwd", "alpine", "Go"] := (Except.ok.inj d₂).symm
    rw [name_of_anonymous rfl n₁, name_of_anonymous rfl n₂, e₁, e₂]
    rfl
  have hash : ∀ a ∈ (buttonIn "/a").hashedText? .default, ∀ b ∈ (buttonIn "/b").hashedText? .default,
      digest (bytesOf a) = digest (bytesOf b) → a = b := by
    intro a ha b hb _
    rw [same] at ha
    exact Option.some.inj (ha.symm.trans hb)
  obtain ⟨process, directory, -⟩ := sandbox_of_name_eq h₁ h₂ rfl rfl hash name
  refine ⟨w₁, w₂, h₁, h₂, name, process, directory.not.mpr fun h => ?_⟩
  exact absurd (h rfl) (by decide)

end WidgetMarkup

end LivePages
