import SourceAudit.Finding
import SourceAudit.Syntax.Stmt

namespace SourceAudit

/-- A security check over a program. A check that cannot finish says why. -/
structure Rule where
  name : String
  code : String
  description : String
  severity : Severity
  check : Program → Except String (List Finding)

/-- The name and code under which a check reports. -/
structure RuleId where
  name : String
  code : String
deriving DecidableEq, Repr

def RuleId.finding (id : RuleId) (program : Program) (line : Nat) (severity : Severity)
    (message : String) : Finding :=
  ⟨id.name, id.code, message, severity, ⟨program.file, line⟩, none⟩

structure RuleError where
  rule : String
  message : String
deriving DecidableEq, Repr

def RuleError.display (error : RuleError) : String :=
  "rule `" ++ error.rule ++ "` failed: " ++ error.message

end SourceAudit
