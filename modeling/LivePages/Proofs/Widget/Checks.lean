import LivePages.Proofs.Number.Reading
import LivePages.Proofs.Outcome
import LivePages.Widget.Descriptor

namespace LivePages

/-- What an author can get wrong in the markup of a widget. -/
inductive WidgetCheck where
  | required (name : String)
  | count (name : String)
  | amount (name : String)
  | token
  | command
  deriving DecidableEq

namespace WidgetCheck

/-- An attribute that is not there needs no check, unless the widget cannot do without it. -/
def Passes (m : WidgetMarkup) : WidgetCheck → Prop
  | required name => ∃ value, m.attribute? name = some value
  | count name => ∀ raw, m.attribute? name = some raw →
    ∃ n, IsCountText (trimBlank raw).toList n ∧ n < UInt64.size
  | amount name => ∀ raw, m.attribute? name = some raw →
    ∃ x, IsDecimalText (trimBlank raw).toList x ∧ x.isAmount
  | token => ∀ name, m.attribute? "name" = some name →
    name ≠ "" ∧ ∀ c ∈ name.toList, c.isDigit ∨ c.isLower ∨ c = '-'
  | command => ∀ raw, m.attribute? "command" = some raw →
    ∃ words, commandWords raw = some words ∧ words ≠ []

/-- What is said about a markup that does not pass. -/
def fault (m : WidgetMarkup) : WidgetCheck → Fault
  | required name => .missingAttribute name
  | count name => .invalidAttribute name ((m.attribute? name).getD "")
  | amount name => .invalidAttribute name ((m.attribute? name).getD "")
  | token => .invalidName ((m.attribute? "name").getD "")
  | command => .invalidAttribute "command" ((m.attribute? "command").getD "")

def limits : List WidgetCheck :=
  [count "memory-limit-bytes", amount "cpu-limit", count "pids-limit"]

def timeouts : List WidgetCheck :=
  [amount "success-timeout", amount "failure-timeout"]

end WidgetCheck

open WidgetCheck in
/-- The checks of a kind, in the order in which they are made. -/
def WidgetKind.checks : WidgetKind → List WidgetCheck
  | button => [required "command", required "image", required "label"] ++ limits ++ [token, command]
  | terminal => [required "image", required "command"] ++ limits ++ [token, command]
  | prologue => [required "command", required "image"] ++ limits ++ [token, command]
  | epilogue => [required "command", required "image"] ++ limits ++ [token, command]
  | imageViewer => [required "file", required "mime"] ++ timeouts ++ limits ++ [token]
  | textEditor => [required "file"] ++ timeouts ++ limits ++ [token]
  | textViewer => [required "file"] ++ timeouts ++ limits ++ [token]

namespace WidgetMarkup

variable {m : WidgetMarkup} {α β : Type} {x : Except WidgetError α}

/-- Checks decide an outcome: there is a value if all of them pass, and otherwise the fault of the
first one that does not. -/
inductive Decides (m : WidgetMarkup) : List WidgetCheck → Except WidgetError α → Prop where
  | pass {cs : List WidgetCheck} {a : α} (h : ∀ c ∈ cs, c.Passes m) : m.Decides cs (.ok a)
  | fail {before after : List WidgetCheck} {c : WidgetCheck} (h : ∀ b ∈ before, b.Passes m)
    (hc : ¬ c.Passes m) : m.Decides (before ++ c :: after) (.error (m.error (c.fault m)))

namespace Decides

theorem single {c : WidgetCheck} (hok : c.Passes m → ∃ a, x = .ok a)
    (herr : ¬ c.Passes m → x = .error (m.error (c.fault m))) : m.Decides [c] x := by
  by_cases hc : c.Passes m
  · obtain ⟨a, rfl⟩ := hok hc
    exact .pass (by simpa using hc)
  · rw [herr hc]
    show m.Decides ([] ++ [c]) _
    exact .fail (by simp) hc

/-- Checks made one after another decide together. -/
theorem bind {cs cs' : List WidgetCheck} {f : α → Except WidgetError β} (hx : m.Decides cs x)
    (hf : ∀ a, x = .ok a → m.Decides cs' (f a)) : m.Decides (cs ++ cs') (x >>= f) := by
  cases hx with
  | pass h =>
    rename_i a
    have hf := hf a rfl
    rw [ok_bind]
    generalize f a = y at hf
    cases hf with
    | pass h' =>
      apply Decides.pass
      intro c hc
      exact (List.mem_append.mp hc).elim (h c) (h' c)
    | fail h' hc =>
      rw [← List.append_assoc]
      apply Decides.fail _ hc
      intro b hb
      exact (List.mem_append.mp hb).elim (h b) (h' b)
  | fail h hc =>
    rw [List.append_assoc, List.cons_append]
    exact .fail h hc

theorem map {cs : List WidgetCheck} {f : α → β} (hx : m.Decides cs x) :
    m.Decides cs (x >>= fun a => .ok (f a)) := by
  cases hx with
  | pass h => exact .pass h
  | fail h hc => exact .fail h hc

variable {cs : List WidgetCheck}

theorem ok_iff (h : m.Decides cs x) : (∃ a, x = .ok a) ↔ ∀ c ∈ cs, c.Passes m := by
  cases h with
  | pass h => exact ⟨fun _ => h, fun _ => ⟨_, rfl⟩⟩
  | fail _ hc =>
    constructor
    · rintro ⟨a, h⟩
      cases h
    · intro h
      exact absurd (h _ (by simp)) hc

theorem error_iff (h : m.Decides cs x) {e : WidgetError} : x = .error e ↔
    ∃ before c after, cs = before ++ c :: after ∧ (∀ b ∈ before, b.Passes m) ∧ ¬ c.Passes m ∧
      e = m.error (c.fault m) := by
  constructor
  · rintro rfl
    cases h with
    | fail h hc => exact ⟨_, _, _, rfl, h, hc, rfl⟩
  · rintro ⟨before, c, after, rfl, hb, hc, rfl⟩
    generalize hcs : before ++ c :: after = cs at h
    cases h with
    | pass h => exact absurd (h c (by simp [← hcs])) hc
    | @fail before' after' c' hb' hc' =>
      -- Two splits of the same list at the first check that does not pass are one.
      rcases List.append_eq_append_iff.mp hcs with ⟨l, hl, hl'⟩ | ⟨l, hl, hl'⟩
      · cases l with
        | nil =>
          cases hl'
          rfl
        | cons d l =>
          cases hl'
          exact absurd (hb' c (by simp [hl])) hc
      · cases l with
        | nil =>
          cases hl'
          rfl
        | cons d l =>
          cases hl'
          exact absurd (hb c' (by simp [hl])) hc'

end Decides

/-! What each part of a widget is made from has its own check. -/

theorem decides_require (m : WidgetMarkup) (name : String) :
    m.Decides [.required name] (m.require name) := by
  unfold require
  cases h : m.attribute? name with
  | some value => exact .single (fun _ => ⟨value, rfl⟩) fun hc => absurd ⟨value, h⟩ hc
  | none =>
    apply Decides.single
    · rintro ⟨value, hv⟩
      cases h.symm.trans hv
    · intro _
      rfl

theorem require_eq_ok {name value : String} :
    m.require name = .ok value ↔ m.attribute? name = some value := by
  unfold require
  cases m.attribute? name with
  | some value' => simp
  | none => simp

theorem decides_count? (m : WidgetMarkup) (name : String) :
    m.Decides [.count name] (m.count? name) := by
  unfold count?
  cases h : m.attribute? name with
  | none => exact .pass (by simp [WidgetCheck.Passes, h])
  | some raw =>
    have passes : (WidgetCheck.count name).Passes m ↔ ∃ n, readCount (trimBlank raw) = some n := by
      simp only [WidgetCheck.Passes, h, Option.some.injEq, forall_eq', readCount_eq_some_iff,
        greatestCount, UInt64.size]
      exact exists_congr fun n => and_congr_right fun _ => by omega
    dsimp only
    split
    next n hn => exact .single (fun _ => ⟨some n, rfl⟩) fun hc => absurd (passes.mpr ⟨n, hn⟩) hc
    next hn =>
      apply Decides.single
      · intro hc
        obtain ⟨n, hn'⟩ := passes.mp hc
        cases hn.symm.trans hn'
      · intro _
        simp only [WidgetCheck.fault, h, invalid, Option.getD_some]

theorem decides_amount? (m : WidgetMarkup) (name : String) :
    m.Decides [.amount name] (m.amount? name) := by
  unfold amount?
  cases h : m.attribute? name with
  | none => exact .pass (by simp [WidgetCheck.Passes, h])
  | some raw =>
    have passes : (WidgetCheck.amount name).Passes m ↔
        ∃ x, readDecimal (trimBlank raw) = some x ∧ x.isAmount := by
      simp only [WidgetCheck.Passes, h, Option.some.injEq, forall_eq', readDecimal_eq_some_iff]
    dsimp only
    split
    next x hx =>
      split
      next ha => exact .single (fun _ => ⟨_, rfl⟩) fun hc => absurd (passes.mpr ⟨x, hx, ha⟩) hc
      next ha =>
        apply Decides.single
        · intro hc
          obtain ⟨y, hy, ha'⟩ := passes.mp hc
          cases hx.symm.trans hy
          exact absurd ha' ha
        · intro _
          simp only [WidgetCheck.fault, h, invalid, Option.getD_some]
    next hx =>
      apply Decides.single
      · intro hc
        obtain ⟨y, hy, -⟩ := passes.mp hc
        cases hx.symm.trans hy
      · intro _
        simp only [WidgetCheck.fault, h, invalid, Option.getD_some]

theorem decides_limits (m : WidgetMarkup) (s : Settings) :
    m.Decides WidgetCheck.limits (m.limits s) := by
  have memory : m.Decides [.count "memory-limit-bytes"] (m.memoryLimit s) :=
    (m.decides_count? _).map
  have cpu : m.Decides [.amount "cpu-limit"] (m.cpuLimit s) := (m.decides_amount? _).map
  have pids : m.Decides [.count "pids-limit"] (m.pidsLimit s) := (m.decides_count? _).map
  exact memory.bind fun _ _ => cpu.bind fun _ _ => pids.map

theorem decides_successTimeout (m : WidgetMarkup) (s : Settings) :
    m.Decides [.amount "success-timeout"] (m.successTimeout s) :=
  (m.decides_amount? _).map

theorem decides_failureTimeout (m : WidgetMarkup) (s : Settings) :
    m.Decides [.amount "failure-timeout"] (m.failureTimeout s) :=
  (m.decides_amount? _).map

theorem isNameToken_iff {token : String} : isNameToken token ↔
    token ≠ "" ∧ ∀ c ∈ token.toList, c.isDigit ∨ c.isLower ∨ c = '-' := by
  have char (c : Char) : isNameChar c ↔ c.isDigit ∨ c.isLower ∨ c = '-' := by
    have lower : c.isLower = (decide (c.val ≥ 'a'.val) && decide (c.val ≤ 'z'.val)) := rfl
    simp only [isNameChar, Char.isDigit, lower, Bool.or_eq_true, Bool.and_eq_true,
      decide_eq_true_eq, beq_iff_eq, Char.le_def, or_assoc, ge_iff_le]
  unfold isNameToken
  rw [Bool.and_eq_true, List.all_eq_true, Bool.not_eq_true', String.isEmpty_eq_false_iff]
  simp only [char]

theorem decides_assignName (m : WidgetMarkup) (defining : List String) :
    m.Decides [.token] (m.assignName defining) := by
  unfold assignName explicitName?
  cases h : m.attribute? "name" with
  | none => exact .pass (by simp [WidgetCheck.Passes, h])
  | some token =>
    have passes : WidgetCheck.token.Passes m ↔ isNameToken token := by
      simp only [WidgetCheck.Passes, h, Option.some.injEq, forall_eq', isNameToken_iff]
    apply Decides.single
    · intro hc
      exact ⟨_, if_pos (passes.mp hc)⟩
    · intro hc
      dsimp only
      rw [if_neg (mt passes.mpr hc), WidgetCheck.fault, h, Option.getD_some]

theorem decides_splitCommand {command : String} (h : m.attribute? "command" = some command) :
    m.Decides [.command] (m.splitCommand command) := by
  have passes : WidgetCheck.command.Passes m ↔
      ∃ words, commandWords command = some words ∧ words ≠ [] := by
    simp only [WidgetCheck.Passes, h, Option.some.injEq, forall_eq']
  unfold splitCommand
  split
  next word words hw =>
    exact .single (fun _ => ⟨_, rfl⟩) fun hc => absurd (passes.mpr ⟨_, hw, by simp⟩) hc
  next hw =>
    apply Decides.single
    · intro hc
      obtain ⟨words, hwords, hne⟩ := passes.mp hc
      obtain ⟨word, words, rfl⟩ := List.exists_cons_of_ne_nil hne
      exact absurd hwords (hw word words)
    · intro _
      rw [WidgetCheck.fault, h, Option.getD_some, invalid]

theorem decides_runCommand {command : String} (h : m.require "command" = .ok command)
    (limits : ResourceLimits) (name image : String) (content : WidgetContent) :
    m.Decides [.command] (m.runCommand limits name image command content) :=
  (decides_splitCommand (require_eq_ok.mp h)).map

/-! Every kind makes its checks in its own order. -/

variable (m : WidgetMarkup) (s : Settings)

theorem decides_button : m.Decides WidgetKind.button.checks (m.button s) :=
  (m.decides_require "command").bind fun _ hc => (m.decides_require "image").bind fun _ _ =>
    (m.decides_require "label").bind fun _ _ => (m.decides_limits s).bind fun _ _ =>
      (m.decides_assignName _).bind fun _ _ => decides_runCommand hc ..

theorem decides_terminal : m.Decides WidgetKind.terminal.checks (m.terminal s) :=
  (m.decides_require "image").bind fun _ _ => (m.decides_require "command").bind fun _ hc =>
    (m.decides_limits s).bind fun _ _ => (m.decides_assignName _).bind fun _ _ =>
      decides_runCommand hc ..

theorem decides_stage (content : String → Bool → WidgetContent) :
    m.Decides WidgetKind.prologue.checks (m.stage s content) :=
  (m.decides_require "command").bind fun _ hc => (m.decides_require "image").bind fun _ _ =>
    (m.decides_limits s).bind fun _ _ => (m.decides_assignName _).bind fun _ _ =>
      decides_runCommand hc ..

theorem decides_imageViewer : m.Decides WidgetKind.imageViewer.checks (m.imageViewer s) :=
  (m.decides_require "file").bind fun _ _ => (m.decides_require "mime").bind fun _ _ =>
    (m.decides_successTimeout s).bind fun _ _ => (m.decides_failureTimeout s).bind fun _ _ =>
      (m.decides_limits s).bind fun _ _ => (m.decides_assignName _).map

theorem decides_textEditor : m.Decides WidgetKind.textEditor.checks (m.textEditor s) :=
  (m.decides_require "file").bind fun _ _ => (m.decides_successTimeout s).bind fun _ _ =>
    (m.decides_failureTimeout s).bind fun _ _ => (m.decides_limits s).bind fun _ _ =>
      (m.decides_assignName _).map

theorem decides_textViewer : m.Decides WidgetKind.textViewer.checks (m.textViewer s) :=
  (m.decides_require "file").bind fun _ _ => (m.decides_successTimeout s).bind fun _ _ =>
    (m.decides_failureTimeout s).bind fun _ _ => (m.decides_limits s).bind fun _ _ =>
      (m.decides_assignName _).map

theorem decides_descriptor : m.Decides m.kind.checks (m.descriptor s) := by
  unfold descriptor
  cases m.kind with
  | button => exact m.decides_button s
  | epilogue => exact m.decides_stage s .epilogue
  | imageViewer => exact m.decides_imageViewer s
  | prologue => exact m.decides_stage s .prologue
  | terminal => exact m.decides_terminal s
  | textEditor => exact m.decides_textEditor s
  | textViewer => exact m.decides_textViewer s

end WidgetMarkup

end LivePages
