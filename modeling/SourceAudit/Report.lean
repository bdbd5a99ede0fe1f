import SourceAudit.Finding
import SourceAudit.Grammar.Error
import SourceAudit.Rule

namespace SourceAudit

structure FileReport where
  file : String
  syntaxErrors : List SyntaxError := []
  findings : List Finding := []
  ruleErrors : List RuleError := []

def FileReport.isClean (report : FileReport) : Bool :=
  report.syntaxErrors.isEmpty && report.findings.isEmpty && report.ruleErrors.isEmpty

structure Failure where
  path : String
  message : String
deriving DecidableEq, Repr

structure Report where
  files : List FileReport := []
  failures : List Failure := []

namespace Report

variable (report : Report)

def addFile (file : FileReport) : Report := { report with files := report.files ++ [file] }

def addFailure (failure : Failure) : Report :=
  { report with failures := report.failures ++ [failure] }

def filesChecked : Nat := report.files.length + report.failures.length

def findings : List Finding := report.files.flatMap (·.findings)

def ruleErrors : List RuleError := report.files.flatMap (·.ruleErrors)

def syntaxErrors : List String :=
  report.files.flatMap fun file => file.syntaxErrors.map (·.display file.file)

def hasFrom (severity : Severity) : Bool := report.findings.any (severity ≤ ·.severity)

def ofSeverity (severity : Severity) : List Finding :=
  report.findings.filter (·.severity = severity)

def count (severity : Severity) : Nat := (report.ofSeverity severity).length

end Report
end SourceAudit
