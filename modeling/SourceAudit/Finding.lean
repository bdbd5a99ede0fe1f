import SourceAudit.Text.Search

namespace SourceAudit

inductive Severity where
  | info
  | warning
  | error
deriving DecidableEq, Repr, Inhabited

namespace Severity

def rank : Severity → Nat
  | info => 0
  | warning => 1
  | error => 2

instance : LE Severity := ⟨fun a b => a.rank ≤ b.rank⟩

instance (a b : Severity) : Decidable (a ≤ b) := inferInstanceAs (Decidable (a.rank ≤ b.rank))

def name : Severity → String
  | info => "info"
  | warning => "warning"
  | error => "error"

def parse? (text : String) : Option Severity :=
  match Text.lowerAscii text with
  | "error" => some error
  | "warning" | "warn" => some warning
  | "info" => some info
  | _ => none

end Severity

structure Location where
  file : String
  line : Nat
deriving DecidableEq, Repr, Inhabited

structure Finding where
  rule : String
  code : String
  message : String
  severity : Severity
  location : Location
  suggestion : Option String
deriving DecidableEq, Repr, Inhabited

namespace Finding

def file (finding : Finding) : String := finding.location.file

def line (finding : Finding) : Nat := finding.location.line

def sortByLine (findings : List Finding) : List Finding :=
  findings.mergeSort fun a b => decide (a.line ≤ b.line)

end Finding
end SourceAudit
