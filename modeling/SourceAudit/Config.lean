import SourceAudit.Finding
import SourceAudit.Toml.Decode

namespace SourceAudit

open Toml (Value Entries)

namespace Severity

def ofName? : String → Option Severity
  | "info" => some info
  | "warning" => some warning
  | "error" => some error
  | _ => none

end Severity

/-- The settings of one rule. Keys other than `enabled` and `severity` are options of the rule. -/
structure RuleOptions where
  enabled : Option Bool := none
  severity : Option Severity := none
  options : Entries := []
deriving DecidableEq, Inhabited

namespace RuleOptions

def ofEntries? (entries : Entries) : Option RuleOptions := do
  let enabled ← entries.optional? "enabled" Value.boolean?
  let severity ← entries.optional? "severity" (Value.choice? Severity.ofName?)
  let options := entries.filter fun entry => entry.1 != "enabled" && entry.1 != "severity"
  return ⟨enabled, severity, ← Value.entriesWithDates? options⟩

def parse? (text : String) : Option RuleOptions := (Toml.parse? text).bind ofEntries?

variable (settings : RuleOptions)

def get? (key : String) : Option Value := settings.options.lookup key

def bool (key : String) (fallback : Bool) : Bool :=
  ((settings.get? key).bind Value.boolean?).getD fallback

def int (key : String) (fallback : Int) : Int :=
  ((settings.get? key).bind Value.integer?).getD fallback

/-- A number; an integer is taken for the nearest one. -/
def float (key : String) (fallback : Binary64) : Binary64 :=
  match settings.get? key with
  | some (.float value) => value
  | some (.integer value) => .ofInt value
  | _ => fallback

def string (key fallback : String) : String :=
  ((settings.get? key).bind Value.string?).getD fallback

/-- The strings of an array; its other members are left out. -/
def strings (key : String) : List String :=
  (((settings.get? key).bind Value.array?).getD []).filterMap Value.string?

/-- The integers of an array, if there is an array; its other members are left out. -/
def ints? (key : String) : Option (List Int) :=
  ((settings.get? key).bind Value.array?).map (·.filterMap Value.integer?)

/-- A text; a date counts as the text that writes it. -/
def text? (key : String) : Option String :=
  match settings.get? key with
  | some (.string text) | some (.datetime text) => some text
  | _ => none

def int? (key : String) : Option Int := (settings.get? key).bind Value.integer?

def texts? (key : String) : Option (List String) :=
  (settings.get? key).bind fun
    | .array items => items.mapM fun
      | .string text | .datetime text => some text
      | _ => none
    | _ => none

end RuleOptions

structure AnalyzerConfig where
  rules : List String := []
  analyzePartial : Bool := true
  respectSuppressions : Bool := true
deriving DecidableEq, Inhabited

namespace AnalyzerConfig

def decode? (value : Value) : Option AnalyzerConfig := do
  let entries ← Entries.ofRecord? ["rules", "analyze_partial", "respect_suppressions"] value
  let rules ← entries.field? "rules" Value.strings? []
  let analyzePartial ← entries.field? "analyze_partial" Value.boolean? true
  let respectSuppressions ← entries.field? "respect_suppressions" Value.boolean? true
  return ⟨rules, analyzePartial, respectSuppressions⟩

end AnalyzerConfig

structure Config where
  preset : Option String := none
  failOn : Option Severity := none
  analyzer : AnalyzerConfig := {}
  rules : List (String × RuleOptions) := []
deriving DecidableEq, Inhabited

namespace Config

def decodeRules? (value : Value) : Option (List (String × RuleOptions)) := do
  let entries ← value.fields?
  entries.mapM fun (name, table) => do
    return (name, ← (← table.fields?) |> RuleOptions.ofEntries?)

def ofEntries? (entries : Entries) : Option Config := do
  let preset ← entries.optional? "preset" Value.string?
  let failOn ← entries.optional? "fail_on" (Value.choice? Severity.ofName?)
  let analyzer ← entries.field? "analyzer" AnalyzerConfig.decode? {}
  let rules ← entries.field? "rules" decodeRules? []
  return ⟨preset, failOn, analyzer, rules⟩

def parse? (text : String) (read : String → Option Entries := Toml.parse?) : Option Config :=
  (read text).bind ofEntries?

variable (config : Config)

def rule? (name : String) : Option RuleOptions := config.rules.lookup name

def isEnabled (name : String) : Bool :=
  ((config.rule? name).bind (·.enabled)).getD true

def severity? (name : String) : Option Severity := (config.rule? name).bind (·.severity)

def failThreshold : Severity := config.failOn.getD .error

end Config
end SourceAudit
