import SourceAudit.Collector
import SourceAudit.Export.Quoted

namespace SourceAudit

open Export

namespace Finding

def plainJson (finding : Finding) : String :=
  Json.object 1 [("File", Quoted.encode finding.file), ("Line", toString finding.line),
    ("Message", Quoted.encode finding.message)]

def detailedJson (finding : Finding) : String :=
  let location := Json.object 2 [("File", Quoted.encode finding.file),
    ("Line", toString finding.line)]
  let suggestion := finding.suggestion.toList.map fun text => ("Suggestion", Quoted.encode text)
  Json.object 1 ([("RuleID", Quoted.encode finding.rule), ("Code", Quoted.encode finding.code),
    ("Description", Quoted.encode finding.message),
    ("Severity", Quoted.encode finding.severity.name), ("Location", location)] ++ suggestion)

end Finding

namespace Collector

def toJson (collector : Collector) : String :=
  Json.array 0 (collector.findings.map Finding.plainJson)

def toDetailedJson (collector : Collector) : String :=
  Json.array 0 (collector.findings.map Finding.detailedJson)

end Collector
end SourceAudit
