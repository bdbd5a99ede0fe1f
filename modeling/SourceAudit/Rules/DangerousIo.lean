import SourceAudit.Rule
import SourceAudit.Rules.Callee
import SourceAudit.Rules.Literal

namespace SourceAudit

/-- Finds commands that are started, files that are deleted and files that are written. -/
structure DangerousIo where
  severity : Severity

namespace DangerousIo

def id : RuleId := ⟨"dangerous-io", "PS007"⟩

def shellCalls : List String :=
  ["os.system", "os.popen", "subprocess.call", "subprocess.run", "subprocess.Popen",
   "subprocess.check_output", "subprocess.check_call", "subprocess.getoutput"]

def deleteCalls : List String :=
  ["shutil.rmtree", "os.remove", "os.unlink", "os.rmdir", "os.removedirs"]

def openCalls : List String := ["open", "io.open"]

def default : DangerousIo := ⟨.warning⟩

def usesShell (call : Call) : Bool :=
  (call.keyword? "shell").any fun value =>
    match value.shape with
    | .bool true => true
    | _ => false

def optionArgument? (call : Call) : Option String :=
  (call.positionals.tail.filterMap Expr.string?).find? fun text =>
    (Text.trimStart text.toList).head? == some '-'

variable (rule : DangerousIo)

def shellMessage? (bindings : Bindings) (call : Call) (name : String) :
    Option (Severity × String) := do
  if usesShell call then
    return (.error, "`" ++ name ++ "` runs its command through a shell (`shell=True`)")
  let command ← (call.positional? 0).or (call.keyword? "args")
  if (bindings.resolve command).isConstant then
    let option ← optionArgument? call
    return (rule.severity, "`" ++ name ++ "` receives option-like argument `" ++ option ++
      "`; separate options from operands with `--`")
  else return (.error, "`" ++ name ++ "` runs a command built at runtime")

def callMessage? (bindings : Bindings) (call : Call) : Option (Severity × String) :=
  match call.matched? shellCalls with
  | some name => rule.shellMessage? bindings call name
  | none => (call.matched? deleteCalls).map fun name =>
    (.info, "`" ++ name ++ "` deletes files; make sure the path cannot be chosen by a caller")

def checkScope (program : Program) (scope : Scope) : List Finding :=
  (Bindings.scan scope).filterMap fun (node, bindings) => do
    let (severity, message) ← rule.callMessage? bindings (← node.call?)
    return id.finding program node.line severity message

def isWriteMode (mode : String) : Bool :=
  mode.toList.any fun c => c == 'w' || c == 'a' || c == 'x' || c == '+'

def writeMessage? (owner : String) (call : Call) : Option String := do
  let name ← call.matched? openCalls
  let mode ← (call.positional? 1).or (call.keyword? "mode")
  if isWriteMode (← mode.string?) then
    return "`" ++ name ++ "` writes to a file inside `" ++ owner ++ "`"
  else none

def opened? : Node → Option String
  | .stmt ⟨_, .functionDef definition⟩ => some definition.name
  | .stmt ⟨_, .classDef definition⟩ => some definition.name
  | _ => none

/-- The nodes of a forest, each with the innermost function or class around it or that it is. -/
def ownedNodes : List (Node × Option String) → List (Node × Option String)
  | [] => []
  | (node, outer) :: rest =>
    let owner := (opened? node).or outer
    (node, owner) :: ownedNodes (node.children.map (·, owner) ++ rest)
termination_by nodes => Node.weights (nodes.map (·.1))
decreasing_by
  have := Node.weights_parts true node
  simp only [List.map_append, List.map_map, List.map_cons, Node.weights_append, Node.weights_cons,
    Function.comp_def, List.map_id', Node.children]
  omega

def writes (program : Program) : List Finding :=
  (ownedNodes [(.program program, none)]).filterMap fun (node, owner?) => do
    let message ← writeMessage? (← owner?) (← node.call?)
    return id.finding program node.line .info message

def check (program : Program) : List Finding :=
  Finding.sortByLine (program.scopes.flatMap (rule.checkScope program) ++ writes program)

def toRule : Rule where
  name := id.name
  code := id.code
  description := "Detects shell execution, file deletion and file writes"
  severity := rule.severity
  check := fun program => .ok (rule.check program)

end DangerousIo
end SourceAudit
