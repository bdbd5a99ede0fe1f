import SourceAudit.Finding
import SourceAudit.Path

namespace SourceAudit

structure Collector where
  findings : List Finding := []
deriving DecidableEq, Repr

namespace Collector

variable (collector : Collector)

def add (finding : Finding) : Collector := ⟨collector.findings ++ [finding]⟩

def extend (batch : List Finding) : Collector := ⟨collector.findings ++ batch⟩

def adhoc (file : String) (line : Nat) (message : String) : Finding :=
  ⟨"adhoc", "", message, .warning, ⟨file, line⟩, none⟩

def addIssue (file : String) (line : Nat) (message : String) : Collector :=
  collector.add (adhoc file line message)

/-- All findings, and the collector without them. -/
def take : List Finding × Collector := (collector.findings, {})

def clear : Collector := collector.take.2

def size : Nat := collector.findings.length

def isEmpty : Bool := collector.findings.isEmpty

def inFile (file : String) : List Finding := collector.findings.filter (Path.same ·.file file)

def onLine (line : Nat) : List Finding := collector.findings.filter (·.line == line)

def mentioning (needle : String) : List Finding :=
  collector.findings.filter (Text.contains ·.message needle)

def ofRule (rule : String) : List Finding := collector.findings.filter (·.rule == rule)

def filter (test : Finding → Bool) : Collector := ⟨collector.findings.filter test⟩

def atLeast (severity : Severity) : Collector :=
  collector.filter fun finding => decide (severity ≤ finding.severity)

end Collector

namespace Finding

/-- The findings that are the same but for the way their file is written rank equally. -/
def compare (first second : Finding) : Ordering :=
  (Ord.compare first.rule second.rule)
    |>.then (Ord.compare first.code second.code)
    |>.then (Ord.compare first.message second.message)
    |>.then (Ord.compare first.severity.rank second.severity.rank)
    |>.then (Ord.compare (Path.components first.file) (Path.components second.file))
    |>.then (Ord.compare first.line second.line)
    |>.then (Ord.compare first.suggestion second.suggestion)

def sort (findings : List Finding) : List Finding :=
  findings.mergeSort fun first second => (first.compare second).isLE

def sortByRule (findings : List Finding) : List Finding :=
  findings.mergeSort fun first second => decide (first.rule ≤ second.rule)

/-- Findings by line, those of a line by rule, and those of a rule in their order. -/
def sortByPlace (findings : List Finding) : List Finding :=
  findings.mergeSort fun first second =>
    decide (first.line < second.line ∨ (first.line = second.line ∧ first.rule ≤ second.rule))

end Finding
end SourceAudit
