import SourceAudit.Collector
import SourceAudit.Report

namespace SourceAudit

namespace Finding

def display (finding : Finding) : String :=
  finding.file ++ ":" ++ toString finding.line ++ ": " ++ finding.message

def format (finding : Finding) : String :=
  let head := finding.code ++ " " ++ finding.rule ++ " at " ++ finding.file ++ ":" ++
    toString finding.line ++ "\n  " ++ finding.severity.name ++ ": " ++ finding.message ++ "\n"
  match finding.suggestion with
  | some suggestion => head ++ "  = help: " ++ suggestion ++ "\n"
  | none => head

end Finding

def Collector.toText (collector : Collector) : String :=
  String.join (collector.findings.map fun finding => finding.display ++ "\n")

/-- The findings from a severity on and all that went wrong, for a terminal. -/
def Report.format (report : Report) (threshold : Severity) : String :=
  let failing := report.findings.filter (threshold ≤ ·.severity)
  "\n=== pysast: " ++ toString failing.length ++ " finding(s) ===\n\n" ++
    String.join (failing.map fun finding => finding.format ++ "\n") ++
    String.join (report.syntaxErrors.map fun error => "parse error: " ++ error ++ "\n") ++
    String.join (report.ruleErrors.map fun error => "rule error: " ++ error.display ++ "\n") ++
    String.join (report.failures.map fun failure =>
      "unreadable: " ++ failure.path ++ ": " ++ failure.message ++ "\n") ++
    "Total: " ++ toString (report.count .error) ++ " error(s), " ++
    toString (report.count .warning) ++ " warning(s), " ++ toString (report.count .info) ++
    " info(s) in " ++ toString report.filesChecked ++ " file(s)\n"

end SourceAudit
