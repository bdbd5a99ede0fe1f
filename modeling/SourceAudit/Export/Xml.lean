import SourceAudit.Collector

namespace SourceAudit

namespace Export.Xml

def escape : Char → List Char
  | '&' => "&amp;".toList
  | '<' => "&lt;".toList
  | '>' => "&gt;".toList
  | '\x22' => "&quot;".toList
  | '\x27' => "&apos;".toList
  | c => [c]

def encode (text : String) : String := String.ofList (text.toList.flatMap escape)

end Export.Xml

open Export

def Finding.toXml (finding : Finding) : String :=
  "  <Issue>\n    <File>" ++ Xml.encode finding.file ++ "</File>\n    <Line>" ++
    toString finding.line ++ "</Line>\n    <Message>" ++ Xml.encode finding.message ++
    "</Message>\n  </Issue>\n"

def Collector.toXml (collector : Collector) : String :=
  "<?xml version=\"1.0\" encoding=\"UTF-8\"?>\n<Issues>\n" ++
    String.join (collector.findings.map Finding.toXml) ++ "</Issues>\n"

end SourceAudit
