import LivePages.Proofs.Widget.Descriptor

namespace LivePages

/-- A limit has a property that the attributes and the default have, or it is the one that the
settings give. -/
theorem holds_or_set {α : Type} (p : α → Prop) {own set : Option α} {default : α}
    (ho : ∀ a, own = some a → p a) (hd : p default) :
    p ((own <|> set).getD default) ∨ set = some ((own <|> set).getD default) := by
  cases own with
  | some a => exact .inl (ho a rfl)
  | none =>
    cases set with
    | some a => exact .inr rfl
    | none => exact .inl hd

/-- Limits that have passed the check of an attribute, or else are those of the settings. -/
structure ResourceLimits.Checked (s : Settings) (l : ResourceLimits) : Prop where
  memory : l.memory ≤ greatestCount ∨ s.memoryLimit = some l.memory
  cpu : l.cpu.isAmount ∨ s.cpuLimit = some l.cpu
  pids : l.pids ≤ greatestCount ∨ s.pidsLimit = some l.pids

theorem le_of_readCount {text : String} {n : Nat} (h : readCount text = some n) :
    n ≤ greatestCount := by
  rw [readCount] at h
  split at h
  next => cases h
  next hn =>
    rw [← Option.some.inj h]
    simp only [Bool.or_eq_true, decide_eq_true_eq, not_or, gt_iff_lt, Nat.not_lt] at hn
    exact hn.2

namespace WidgetMarkup

variable {m : WidgetMarkup} {s : Settings} {w : WidgetDescriptor} {l : ResourceLimits}

theorem le_of_count? {name : String} {n : Nat} (h : m.count? name = .ok (some n)) :
    n ≤ greatestCount := by
  rw [count?] at h
  split at h
  next => cases h
  next =>
    split at h
    next hn =>
      cases h
      exact le_of_readCount hn
    next => cases h

theorem isAmount_of_amount? {name raw : String} {x : Binary64}
    (h : m.amount? name = .ok (some (x, raw))) : x.isAmount := by
  rw [amount?] at h
  split at h
  next => cases h
  next =>
    split at h
    next =>
      split at h
      next hx =>
        cases h
        exact hx
      next => cases h
    next => cases h

theorem limits_eq_ok (h : m.limits s = .ok l) : m.memoryLimit s = .ok l.memory ∧
    m.cpuLimit s = .ok l.cpu ∧ m.pidsLimit s = .ok l.pids := by
  obtain ⟨memory, hm, h⟩ := bind_eq_ok.mp h
  obtain ⟨cpu, hc, h⟩ := bind_eq_ok.mp h
  obtain ⟨pids, hp, h⟩ := bind_eq_ok.mp h
  cases Except.ok.inj h
  exact ⟨hm, hc, hp⟩

theorem checked_limits (h : m.limits s = .ok l) : l.Checked s := by
  obtain ⟨hm, hc, hp⟩ := limits_eq_ok h
  constructor
  case memory =>
    obtain ⟨own, ho, e⟩ := bind_eq_ok.mp hm
    rw [← Except.ok.inj e]
    exact holds_or_set (· ≤ greatestCount) (fun n hn => le_of_count? (hn ▸ ho)) (by decide)
  case cpu =>
    obtain ⟨own, ho, e⟩ := bind_eq_ok.mp hc
    rw [← Except.ok.inj e]
    refine holds_or_set (fun x : Binary64 => x.isAmount) (fun x hx => ?_) (by decide)
    obtain ⟨⟨x, raw⟩, rfl, rfl⟩ := Option.map_eq_some_iff.mp hx
    exact isAmount_of_amount? ho
  case pids =>
    obtain ⟨own, ho, e⟩ := bind_eq_ok.mp hp
    rw [← Except.ok.inj e]
    exact holds_or_set (· ≤ greatestCount) (fun n hn => le_of_count? (hn ▸ ho)) (by decide)

/-! Every kind of widget resolves its limits, and puts them in the descriptor as they are. -/

theorem limits_runCommand {limits : ResourceLimits} {name image command : String}
    {content : WidgetContent} (h : m.runCommand limits name image command content = .ok w) :
    w.limits = limits := by
  obtain ⟨words, -, h⟩ := bind_eq_ok.mp h
  cases Except.ok.inj h
  rfl

theorem limits_descriptor (h : m.descriptor s = .ok w) : m.limits s = .ok w.limits := by
  have stage {content : String → Bool → WidgetContent} (h : m.stage s content = .ok w) :
      m.limits s = .ok w.limits := by
    obtain ⟨_, _, limits, _, -, -, hl, -, h⟩ := stage_eq_ok h
    rwa [limits_runCommand h]
  rw [descriptor] at h
  split at h
  case h_1 =>
    obtain ⟨_, _, _, limits, _, -, -, -, hl, -, h⟩ := button_eq_ok h
    rwa [limits_runCommand h]
  case h_2 => exact stage h
  case h_3 =>
    obtain ⟨_, _, _, _, limits, _, -, -, -, -, hl, -, rfl⟩ := imageViewer_eq_ok h
    exact hl
  case h_4 => exact stage h
  case h_5 =>
    obtain ⟨_, _, limits, _, -, -, hl, -, h⟩ := terminal_eq_ok h
    rwa [limits_runCommand h]
  case h_6 =>
    obtain ⟨_, _, _, limits, _, -, -, -, hl, -, rfl⟩ := textEditor_eq_ok h
    exact hl
  case h_7 =>
    obtain ⟨_, _, _, limits, _, -, -, -, hl, -, rfl⟩ := textViewer_eq_ok h
    exact hl

theorem checked_descriptor (h : m.descriptor s = .ok w) : w.limits.Checked s :=
  checked_limits (limits_descriptor h)

end WidgetMarkup

end LivePages
