import SourceAudit.Rule

namespace SourceAudit

/-- What a rule that has finished hands over: all its findings at once, or why it failed. -/
structure Batch where
  rule : String
  outcome : Except String (List Finding)

namespace Batch

def findings (batch : Batch) : List Finding :=
  match batch.outcome with
  | .ok findings => findings
  | .error _ => []

def error? (batch : Batch) : Option RuleError :=
  match batch.outcome with
  | .ok _ => none
  | .error message => some ⟨batch.rule, message⟩

def ofRule (program : Program) (rule : Rule) : Batch := ⟨rule.name, rule.check program⟩

end Batch

structure Run where
  rules : List String
  findings : List Finding
  errors : List RuleError

/-- Collects batches in the order in which they arrive; the errors are put in the order of names. -/
def Run.collect (rules : List String) (batches : List Batch) : Run where
  rules := rules
  findings := batches.flatMap Batch.findings
  errors := (batches.filterMap Batch.error?).mergeSort fun a b => decide (a.rule ≤ b.rule)

structure Registry where
  rules : List Rule := []

namespace Registry

/-- Puts a rule in its place; it takes the place of a rule with the same name. -/
def place (rule : Rule) : List Rule → List Rule
  | [] => [rule]
  | other :: rest =>
    if rule.name = other.name then rule :: rest
    else if rule.name < other.name then rule :: other :: rest
    else other :: place rule rest

def insert (registry : Registry) (rule : Rule) : Registry := ⟨place rule registry.rules⟩

def ofRules (rules : List Rule) : Registry := rules.foldl insert {}

variable (registry : Registry)

def names : List String := registry.rules.map (·.name)

def size : Nat := registry.rules.length

def isEmpty : Bool := registry.rules.isEmpty

def find? (name : String) : Option Rule := registry.rules.find? (·.name == name)

def contains (name : String) : Bool := (registry.find? name).isSome

def unknown (names : List String) : List String := names.filter (!registry.contains ·)

/-- The registered rules among the names, each where its name occurs first. -/
def select (names : List String) : List Rule := names.eraseDups.filterMap registry.find?

def batches (program : Program) (names : List String) : List Batch :=
  (registry.select names).map (Batch.ofRule program)

def run (program : Program) (names : List String) : Run :=
  .collect ((registry.select names).map (·.name)) (registry.batches program names)

def runAll (program : Program) : Run :=
  .collect registry.names (registry.rules.map (Batch.ofRule program))

end Registry
end SourceAudit
