import LivePages.Settings.OfText

namespace LivePages

namespace SettingValue

variable {v : SettingValue}

theorem le_of_count? {greatest n : Nat} (h : v.count? greatest = some n) : n ≤ greatest := by
  cases v with
  | integer i =>
    rw [count?] at h
    split at h
    next hi =>
      rw [← Option.some.inj h, Int.toNat_le]
      exact hi.2
    next => cases h
  | _ => cases h

end SettingValue

namespace Settings

variable {s s' : Settings}

/-- Ports have 16 bits and counts 64, as the fields of the plan that they go to. -/
structure Fits (s : Settings) : Prop where
  transportPort : s.transportPort ≤ 65535
  httpPort : s.httpPort ≤ 65535
  httpsPort : s.httpsPort ≤ 65535
  memoryLimit : ∀ n, s.memoryLimit = some n → n ≤ greatestCount
  pidsLimit : ∀ n, s.pidsLimit = some n → n ≤ greatestCount

theorem fits_default : default.Fits := by
  constructor
  case memoryLimit => exact fun n h => absurd h (Option.some_ne_none n).symm
  case pidsLimit => exact fun n h => absurd h (Option.some_ne_none n).symm
  all_goals decide

/-- An entry is refused if its number does not have the width of its setting. -/
theorem Fits.set (h : s.Fits) {key : String} {v : SettingValue} (hs : s.set key v = some s') :
    s'.Fits := by
  have limit {n : Nat} (hn : v.count? greatestCount = some n) (k : Nat) (hk : some n = some k) :
      k ≤ greatestCount :=
    Option.some.inj hk ▸ SettingValue.le_of_count? hn
  unfold Settings.set at hs
  split at hs
  case h_2 =>
    obtain ⟨n, hn, rfl⟩ := Option.map_eq_some_iff.mp hs
    exact { h with transportPort := SettingValue.le_of_count? hn }
  case h_9 =>
    obtain ⟨n, hn, rfl⟩ := Option.map_eq_some_iff.mp hs
    exact { h with memoryLimit := limit hn }
  case h_11 =>
    obtain ⟨n, hn, rfl⟩ := Option.map_eq_some_iff.mp hs
    exact { h with pidsLimit := limit hn }
  case h_13 =>
    obtain ⟨n, hn, rfl⟩ := Option.map_eq_some_iff.mp hs
    exact { h with httpPort := SettingValue.le_of_count? hn }
  case h_14 =>
    obtain ⟨n, hn, rfl⟩ := Option.map_eq_some_iff.mp hs
    exact { h with httpsPort := SettingValue.le_of_count? hn }
  case h_17 => cases hs
  all_goals
    obtain ⟨a, -, rfl⟩ := Option.map_eq_some_iff.mp hs
    exact { h with }

theorem fits_ofText? {text : String} (h : ofText? text = some s) : s.Fits := by
  obtain ⟨entries, -, h⟩ := Option.bind_eq_some_iff.mp h
  have fold (entries : List (String × SettingValue)) {s₀ : Settings} (h₀ : s₀.Fits)
      (h : entries.foldlM (fun s entry => s.set entry.1 entry.2) s₀ = some s) : s.Fits := by
    induction entries generalizing s₀ with
    | nil => exact Option.some.inj h ▸ h₀
    | cons entry entries ih =>
      rw [List.foldlM_cons] at h
      obtain ⟨s₁, hs, h⟩ := Option.bind_eq_some_iff.mp h
      exact ih (h₀.set hs) h
  exact fold entries fits_default h

end Settings

end LivePages
