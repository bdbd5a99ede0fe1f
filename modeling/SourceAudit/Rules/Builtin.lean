import SourceAudit.Registry
import SourceAudit.Rules.Csrf
import SourceAudit.Rules.DangerousIo
import SourceAudit.Rules.FileInclusion
import SourceAudit.Rules.SensitiveInfo
import SourceAudit.Rules.SqlInjection
import SourceAudit.Rules.Ssrf
import SourceAudit.Rules.Xss

namespace SourceAudit

inductive Builtin where
  | sqlInjection
  | xss
  | csrf
  | ssrf
  | fileInclusion
  | sensitiveInfo
  | dangerousIo
deriving DecidableEq, Repr

namespace Builtin

/-- What the rules ask about texts. -/
structure Tests where
  isStatement : String → Bool
  markup : Xss.Tests
  urls : Ssrf.Readers
  secrets : SensitiveInfo.Tests Binary64

def Tests.standard : Tests :=
  ⟨SqlInjection.statementWord.isMatch, .standard, .standard, .standard⟩

def all : List Builtin :=
  [sqlInjection, xss, csrf, ssrf, fileInclusion, sensitiveInfo, dangerousIo]

def id : Builtin → RuleId
  | sqlInjection => SqlInjection.id
  | xss => Xss.id
  | csrf => Csrf.id
  | ssrf => Ssrf.id
  | fileInclusion => FileInclusion.id
  | sensitiveInfo => SensitiveInfo.id
  | dangerousIo => DangerousIo.id

def name (builtin : Builtin) : String := builtin.id.name

def code (builtin : Builtin) : String := builtin.id.code

/-- Looks a rule up by its name, or by its code in any letter case. -/
def find? (text : String) : Option Builtin :=
  all.find? fun builtin => builtin.name == text || Text.sameIgnoringCase builtin.code text

def unknownMessage (text : String) : String := "unknown rule `" ++ text ++ "`"

/-- The rule with its options. Only the search for secrets has a strict form. -/
def rule (builtin : Builtin) (options : RuleOptions) (strict : Bool) (tests : Tests := .standard) :
    Rule :=
  match builtin with
  | sqlInjection => (SqlInjection.ofOptions options).toRule tests.isStatement
  | xss => (Xss.ofOptions options).toRule tests.markup
  | csrf => (Csrf.ofOptions options).toRule
  | ssrf => (Ssrf.ofOptions options).toRule tests.urls
  | fileInclusion => FileInclusion.default.toRule
  | sensitiveInfo =>
    let base := if strict then SensitiveInfo.strict else SensitiveInfo.default
    (base.withOptions options).toRule tests.secrets
  | dangerousIo => DangerousIo.default.toRule

def ruleWith (builtin : Builtin) (options : RuleOptions) (strict : Bool) (severity : Severity)
    (tests : Tests := .standard) : Rule :=
  match builtin with
  | sqlInjection => { SqlInjection.ofOptions options with severity }.toRule tests.isStatement
  | xss => { Xss.ofOptions options with severity }.toRule tests.markup
  | csrf => { Csrf.ofOptions options with severity }.toRule
  | ssrf => { Ssrf.ofOptions options with severity }.toRule tests.urls
  | fileInclusion => { FileInclusion.default with severity }.toRule
  | sensitiveInfo =>
    let base := if strict then SensitiveInfo.strict else SensitiveInfo.default
    { base.withOptions options with severity }.toRule tests.secrets
  | dangerousIo => { DangerousIo.default with severity }.toRule

def defaultRule (builtin : Builtin) : Rule := builtin.rule {} false

def registry : Registry := .ofRules (all.map defaultRule)

def analyze (program : Program) (builtins : List Builtin) : List Finding :=
  (registry.run program (builtins.map name)).findings

end Builtin

inductive Preset where
  | recommended
  | strict
  | minimal
deriving DecidableEq, Repr

namespace Preset

def ofName? (text : String) : Option Preset :=
  match Text.lowerAscii text with
  | "recommended" => some recommended
  | "strict" => some strict
  | "minimal" => some minimal
  | _ => none

def builtins : Preset → List Builtin
  | recommended | strict => Builtin.all
  | minimal => [.sqlInjection, .xss]

def rules (preset : Preset) : List Rule :=
  preset.builtins.map fun builtin => builtin.rule {} (preset == strict)

end Preset

namespace Config

variable (config : Config)

/-- The preset by name; an unknown one counts as the recommended one. -/
def rulePreset : Preset := (config.preset.bind Preset.ofName?).getD .recommended

/-- The rules that are named, or those of the preset if none are. Unknown names are left out. -/
def builtins : List Builtin :=
  if config.analyzer.rules = [] then config.rulePreset.builtins
  else config.analyzer.rules.filterMap Builtin.find?

def selectedRules (tests : Builtin.Tests := .standard) : List Rule :=
  config.builtins.map fun builtin =>
    builtin.rule ((config.rule? builtin.name).getD {}) (config.rulePreset == .strict) tests

end Config
end SourceAudit
