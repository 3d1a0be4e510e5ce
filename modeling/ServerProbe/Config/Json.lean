/-
Options from JSON. An object sets the options it names and leaves the others at
their defaults; names that are no options are passed over, a name given twice is
refused. An array sets the options in their order, and may end early. Values have
to be of the very kind of the option: no number for a truth value, no fraction, no
null.
-/
import ServerProbe.Config
import ServerProbe.Json.Reader
import ServerProbe.Text.Numeral

set_option autoImplicit false

namespace ServerProbe.Config

open Json (Source)

/-! ## Values of options -/

/-- A truth value. -/
def bool? : Source → Option Bool
  | .bool b => some b
  | _ => none

/-- A natural number below `bound`, written with digits only. -/
def nat? (bound : Nat) : Source → Option Nat
  | .number digits => (Text.digits? digits.toList).filter (· < bound)
  | _ => none

/-- A text. -/
def text? : Source → Option String
  | .text t => t
  | _ => none

/-- The name of a policy. -/
def policyOfName? : String → Option DuplicatePolicy
  | "append" => some .append
  | "reject_duplicate" => some .reject
  | "overwrite_duplicate" => some .overwrite
  | "keep_first" => some .keepFirst
  | _ => none

/-- A policy: its name, or an object with that name alone and null under it. -/
def policy? : Source → Option DuplicatePolicy
  | .text (some name) => policyOfName? name
  | .object [(some name, .null)] => policyOfName? name
  | _ => none

/-- Further options: texts by name. -/
def setParams? (c : Config) : Source → Option Config
  | .object fields =>
    fields.foldlM (fun c (key, value) => do some (c.setParam (← key) (← text? value)))
      { c with params := [] }
  | _ => none

/-! ## Options by name -/

/-- The names of the options, in their order. -/
def optionNames : List String :=
  ["want_rules", "want_players", "retries", "retry_interval_ms", "show_errors", "rule_policy",
    "params"]

/-- Sets the option of a name. -/
def setOption? (c : Config) (name : String) (v : Source) : Option Config :=
  match name with
  | "want_rules" => (bool? v).map fun b => { c with wantRules := b }
  | "want_players" => (bool? v).map fun b => { c with wantPlayers := b }
  | "retries" => (nat? UInt32.size v).map fun n => { c with retries := UInt32.ofNat n }
  | "retry_interval_ms" =>
    (nat? UInt64.size v).map fun n => { c with interval := .ofMillis (UInt64.ofNat n) }
  | "show_errors" => (bool? v).map fun b => { c with showErrors := b }
  | "rule_policy" => (policy? v).map fun p => { c with rulePolicy := p }
  | "params" => c.setParams? v
  | _ => none

/-- Options that are being read, and the names met so far. -/
structure Progress where
  config : Config := {}
  met : List String := []

/-- Reads one field of an object. -/
def readField? (p : Progress) (field : Option String × Source) : Option Progress := do
  let name ← field.1
  if !optionNames.contains name then some p
  else if p.met.contains name then none
  else some ⟨← p.config.setOption? name field.2, name :: p.met⟩

/-- The options that a JSON value gives. -/
def ofJson? : Source → Option Config
  | .object fields => (fields.foldlM readField? {}).map Progress.config
  | .array items =>
    if optionNames.length < items.length then none
    else (optionNames.zip items).foldlM (fun c (name, v) => c.setOption? name v) {}
  | _ => none

/-- The options that a JSON text gives. -/
def ofText? (text : String) : Option Config := Json.ofText? text >>= ofJson?

end ServerProbe.Config
