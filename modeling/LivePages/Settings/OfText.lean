import LivePages.Settings.Basic
import LivePages.Settings.Source

namespace LivePages

namespace SettingValue

def text? : SettingValue → Option String
  | text value => some value
  | _ => none

/-- A whole number that does not exceed a bound. -/
def count? (greatest : Nat) : SettingValue → Option Nat
  | integer n => if 0 ≤ n ∧ n ≤ greatest then some n.toNat else none
  | _ => none

def port? : SettingValue → Option Nat :=
  count? 65535

/-- A number; a whole one may lose digits. -/
def number? : SettingValue → Option Binary64
  | number x => some x
  | integer n => some (.ofInt n)
  | _ => none

/-- A list or table without content. -/
def isBare : SettingValue → Bool
  | list items => items.isEmpty
  | tables items => items.isEmpty
  | table _ entries => entries.isEmpty
  | _ => false

/-- A level is given by its name, or by a table with the name as its only key. -/
def logLevel? : SettingValue → Option LogLevel
  | text name => LogLevel.ofName? name
  | table _ [(name, value)] => if value.isBare then LogLevel.ofName? name else none
  | _ => none

end SettingValue

namespace Settings

/-- Settings with the value of one entry; its key names a setting and the value suits it. -/
def set (s : Settings) (key : String) (v : SettingValue) : Option Settings :=
  match key with
  | "transport_host" => v.text?.map fun a => { s with transportHost := a }
  | "transport_port" => v.port?.map fun a => { s with transportPort := a }
  | "sandbox_context_type" => v.text?.map fun a => { s with sandboxContextType := a }
  | "logging_level" => v.logLevel?.map fun a => { s with loggingLevel := a }
  | "monitor_image" => v.text?.map fun a => { s with monitorImage := a }
  | "monitor_command" => v.text?.map fun a => { s with monitorCommand := a }
  | "default_success_timeout" => v.number?.map fun a => { s with successTimeout := some a }
  | "default_failure_timeout" => v.number?.map fun a => { s with failureTimeout := some a }
  | "default_memory_limit_bytes" =>
    (v.count? greatestCount).map fun a => { s with memoryLimit := some a }
  | "default_cpu_limit" => v.number?.map fun a => { s with cpuLimit := some a }
  | "default_pids_limit" => (v.count? greatestCount).map fun a => { s with pidsLimit := some a }
  | "proxy_server_name" => v.text?.map fun a => { s with serverName := a }
  | "http_port" => v.port?.map fun a => { s with httpPort := a }
  | "https_port" => v.port?.map fun a => { s with httpsPort := a }
  | "https_certificate_path" => v.text?.map fun a => { s with certificatePath := some a }
  | "https_certificate_key_path" => v.text?.map fun a => { s with certificateKeyPath := some a }
  | _ => none

/-- The settings of a file; what it does not mention is as in `default`. -/
def ofText? (text : String) : Option Settings := do
  let entries ← readSettingEntries text
  entries.foldlM (fun s (key, value) => s.set key value) default

end Settings

end LivePages
