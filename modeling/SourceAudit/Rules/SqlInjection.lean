import SourceAudit.Config
import SourceAudit.Regex
import SourceAudit.Rule
import SourceAudit.Rules.Callee
import SourceAudit.Rules.Literal

namespace SourceAudit

/-- Finds SQL queries that are built from runtime values. -/
structure SqlInjection where
  sinks : List String
  markers : List String
  severity : Severity

namespace SqlInjection

def id : RuleId := ⟨"sql-injection", "PS001"⟩

def defaultSinks : List String :=
  ["execute", "cursor.execute", "executemany", "executescript", "raw", "extra", "read_sql"]

def defaultMarkers : List String := ["prepare", "prepared_statement"]

def default : SqlInjection := ⟨defaultSinks, defaultMarkers, .error⟩

def ofOptions (options : RuleOptions) : SqlInjection where
  sinks := Text.extendUnique defaultSinks (options.strings "sinks")
  markers := Text.extendUnique defaultMarkers (options.strings "markers")
  severity := .error

def statementWord : Regex :=
  .all [.wordEdge, .oneOf (["select", "insert", "update", "delete", "drop"].map .anyCase), .wordEdge]

def isParameterized (call : Call) : Bool :=
  2 ≤ call.positionals.length || (call.keyword? "params").isSome ||
    (call.keyword? "parameters").isSome

def query? (call : Call) : Option Expr := (call.positional? 0).or (call.keyword? "sql")

def hasMarker (rule : SqlInjection) (scope : Scope) : Bool :=
  scope.nodes.any fun node => node.call?.any (·.isAny rule.markers)

variable (rule : SqlInjection) (isStatement : String → Bool)

def complaint? (prepared : Bool) (sink : String) (query : Expr) : Option String :=
  if query.isConstant then none
  else if query.buildsString && isStatement query.literalText then
    some ("SQL query passed to `" ++ sink ++
      "` is built from runtime values; use a parameterized query")
  else if prepared then none
  else some ("`" ++ sink ++
    "` runs a non-literal query and no prepared statement is used in this scope")

def message? (prepared : Bool) (bindings : Bindings) (call : Call) : Option String := do
  let sink ← call.matched? rule.sinks
  if isParameterized call then none
  let query ← query? call
  complaint? isStatement prepared sink (bindings.resolve query)

def checkScope (program : Program) (scope : Scope) : List Finding :=
  let prepared := rule.hasMarker scope
  (Bindings.scan scope).filterMap fun (node, bindings) => do
    let message ← rule.message? isStatement prepared bindings (← node.call?)
    return id.finding program node.line rule.severity message

def check (program : Program) : List Finding :=
  Finding.sortByLine (program.scopes.flatMap (rule.checkScope isStatement program))

def toRule : Rule where
  name := id.name
  code := id.code
  description := "Detects SQL queries built from runtime values"
  severity := rule.severity
  check := fun program => .ok (rule.check isStatement program)

end SqlInjection
end SourceAudit
