import LivePages.Number.Notation
import LivePages.Number.Reading
import LivePages.Settings.Basic
import LivePages.Text.Blank
import LivePages.Widget.Markup

namespace LivePages

structure ResourceLimits where
  memory : Nat
  cpu : Binary64
  pids : Nat
  deriving DecidableEq

/-- Limits where neither the author of a page nor the settings give any. -/
def ResourceLimits.default : ResourceLimits :=
  ⟨134217728, .ofNat 1, 128⟩

def defaultSuccessTimeout : Binary64 :=
  .ofDecimal false 1 (-1)

def defaultFailureTimeout : Binary64 :=
  .ofNat 5

namespace WidgetMarkup

/-- A count in an attribute, if it is there. -/
def count? (m : WidgetMarkup) (name : String) : Except WidgetError (Option Nat) :=
  match m.attribute? name with
  | none => .ok none
  | some raw =>
    match readCount (trimBlank raw) with
    | some n => .ok (some n)
    | none => .error (m.invalid name raw)

/-- An amount in an attribute, if it is there; also as the author wrote it. -/
def amount? (m : WidgetMarkup) (name : String) :
    Except WidgetError (Option (Binary64 × String)) :=
  match m.attribute? name with
  | none => .ok none
  | some raw =>
    match readDecimal (trimBlank raw) with
    | some x =>
      if x.isAmount then .ok (some (x, trimBlank raw)) else .error (m.invalid name raw)
    | none => .error (m.invalid name raw)

def memoryLimit (m : WidgetMarkup) (s : Settings) : Except WidgetError Nat := do
  let own ← m.count? "memory-limit-bytes"
  return (own <|> s.memoryLimit).getD ResourceLimits.default.memory

def cpuLimit (m : WidgetMarkup) (s : Settings) : Except WidgetError Binary64 := do
  let own ← m.amount? "cpu-limit"
  return (own.map Prod.fst <|> s.cpuLimit).getD ResourceLimits.default.cpu

def pidsLimit (m : WidgetMarkup) (s : Settings) : Except WidgetError Nat := do
  let own ← m.count? "pids-limit"
  return (own <|> s.pidsLimit).getD ResourceLimits.default.pids

/-- Each limit comes from the widget, from the settings, or is the default. -/
def limits (m : WidgetMarkup) (s : Settings) : Except WidgetError ResourceLimits := do
  let memory ← m.memoryLimit s
  let cpu ← m.cpuLimit s
  let pids ← m.pidsLimit s
  return ⟨memory, cpu, pids⟩

/-- A timeout for the monitor's command line, which keeps the author's way to write it. -/
def timeout (m : WidgetMarkup) (name : String) (set : Option Binary64) (default : Binary64) :
    Except WidgetError String := do
  let own ← m.amount? name
  return (own.map Prod.snd).getD (set.getD default).text

/-- For how long a file has to stay unchanged before the monitor reports it. -/
def successTimeout (m : WidgetMarkup) (s : Settings) : Except WidgetError String :=
  m.timeout "success-timeout" s.successTimeout defaultSuccessTimeout

def failureTimeout (m : WidgetMarkup) (s : Settings) : Except WidgetError String :=
  m.timeout "failure-timeout" s.failureTimeout defaultFailureTimeout

def workingDirectory? (m : WidgetMarkup) : Option String :=
  m.attribute? "working-directory"

end WidgetMarkup

end LivePages
