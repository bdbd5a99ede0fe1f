import SourceAudit.Collector
import SourceAudit.Config
import SourceAudit.Grammar.Statement
import SourceAudit.PatternRule
import SourceAudit.Registry
import SourceAudit.Report
import SourceAudit.Rules.Builtin
import SourceAudit.Suppression

namespace SourceAudit

/-- A configured audit: shared rules, of which some are selected, and rules of its own. -/
structure Audit where
  root : Option String := none
  shared : Registry := {}
  own : Registry := {}
  selection : List String := []
  ownSelection : List String := []
  config : Config := {}
  analyzePartial : Bool := true

namespace Audit

/-- What an audit takes for granted: how TOML is read, which files a pattern covers, and the tests of
    texts that the rules make. -/
structure Tools where
  read : String → Option Toml.Entries
  covers : FilePattern → String → Bool
  tests : Builtin.Tests

def Tools.standard : Tools := ⟨Toml.parse?, FilePattern.isMatch, .standard⟩

structure Setup where
  root : Option String := none
  shared : Registry := {}
  rules : List Rule := []
  selection : Option (List String) := none
  config : Config := {}
  patterns : List String := []
  analyzePartial : Option Bool := none

/-- The names of shared rules to run: those that are given, those of the configuration, or all. -/
def Setup.chosen (setup : Setup) : List String :=
  match setup.selection with
  | some names => names
  | none =>
    if setup.config.analyzer.rules = [] then setup.shared.names else setup.config.analyzer.rules

/-- Makes an audit. The pattern rules of each text take the place of those of the text before. -/
def ofSetup (setup : Setup) (tools : Tools := .standard) : Except PatternRule.LoadError Audit := do
  let patterns ← setup.patterns.mapM (PatternRule.load · tools.read)
  let own := Registry.ofRules (setup.rules ++ patterns.flatMap (·.rules tools.covers))
  return {
    root := setup.root
    shared := setup.shared
    own
    selection := setup.chosen.filter setup.config.isEnabled
    ownSelection := own.names.filter setup.config.isEnabled
    config := setup.config
    analyzePartial := setup.analyzePartial.getD setup.config.analyzer.analyzePartial }

variable (audit : Audit)

def activeRules : List String :=
  (audit.selection ++ audit.ownSelection).filter fun name =>
    audit.shared.contains name || audit.own.contains name

def overridden (finding : Finding) : Finding :=
  match audit.config.severity? finding.rule with
  | some severity => { finding with severity }
  | none => finding

/-- Drops what is disabled or suppressed, sets severities and puts the rest in order. -/
def apply (source : String) (findings : List Finding) : List Finding :=
  let suppressions :=
    if audit.config.analyzer.respectSuppressions then Suppressions.ofSource source else ⟨[]⟩
  let kept := findings.filter fun finding =>
    audit.config.isEnabled finding.rule && !suppressions.isAllowed finding.line finding.rule
  Finding.sortByPlace (kept.map audit.overridden)

/-- The report that the batches of both groups of rules make, in the order in which they arrive. -/
def reportOf (source file : String) (errors : List SyntaxError) (shared own : List Batch) :
    FileReport where
  file := file
  syntaxErrors := errors
  findings := audit.apply source ((shared ++ own).flatMap Batch.findings)
  ruleErrors := (Run.collect [] shared).errors ++ (Run.collect [] own).errors

def analyze (source file : String) : FileReport :=
  let (program, errors) := Program.ofSource file source
  if errors ≠ [] ∧ !audit.analyzePartial then { file, syntaxErrors := errors }
  else
    audit.reportOf source file errors (audit.shared.batches program audit.selection)
      (audit.own.batches program audit.ownSelection)

end Audit
end SourceAudit
