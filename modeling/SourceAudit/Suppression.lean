import SourceAudit.Text.Search

namespace SourceAudit

structure Directive where
  rules : List String
  reason : Option String
deriving DecidableEq, Repr

namespace Directive

def reason? (text : List Char) : Option String := do
  let value ← Text.dropPrefix? "reason=" (Text.trim text)
  let quoted ← Text.dropPrefix? "\x22" (Text.trim value)
  let parts ← Text.splitOnce ['\x22'] quoted
  return String.ofList parts.1

def ruleNames (text : List Char) : List String :=
  ((Text.split (· == ',') text).map fun part => String.ofList (Text.trim part)).filter (· ≠ "")

def marked? (line : List Char) : Option (List Char) :=
  ((Text.splitOnce "# pysast:".toList line).or (Text.splitOnce "#pysast:".toList line)).map (·.2)

def ofLine? (line : List Char) : Option Directive := do
  let marked ← marked? line
  let content ← Text.dropPrefix? "allow(" (Text.trim marked)
  let parts ← Text.splitOnce [')'] (Text.trim content)
  let rules := ruleNames parts.1
  if rules = [] then none
  else some ⟨rules, reason? parts.2⟩

def allows (directive : Directive) (rule : String) : Bool :=
  directive.rules.contains rule || directive.rules.contains "all"

end Directive

structure Suppressions where
  directives : List (Nat × Directive)
deriving DecidableEq

namespace Suppressions

def ofSource (source : String) : Suppressions :=
  ⟨((Text.lines source.toList).zipIdx 1).filterMap fun (line, number) =>
    (Directive.ofLine? line).map (number, ·)⟩

def isEmpty (suppressions : Suppressions) : Bool := suppressions.directives.isEmpty

/-- The directive that allows a rule on a line. It stands on that line or on the one above. -/
def find? (suppressions : Suppressions) (line : Nat) (rule : String) : Option Directive :=
  [line, line - 1].findSome? fun candidate =>
    (suppressions.directives.lookup candidate).filter (·.allows rule)

def isAllowed (suppressions : Suppressions) (line : Nat) (rule : String) : Bool :=
  (suppressions.find? line rule).isSome

end Suppressions
end SourceAudit
