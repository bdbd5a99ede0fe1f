import SourceAudit.Rule
import SourceAudit.Rules.Callee
import SourceAudit.Rules.Literal
import SourceAudit.Taint

namespace SourceAudit

/-- Finds files that are loaded from relative, remote or outside paths. -/
structure FileInclusion where
  taint : TaintPolicy
  severity : Severity

namespace FileInclusion

def id : RuleId := ⟨"file-inclusion", "PS005"⟩

inductive Target where
  | load
  | read
  | fetch
deriving DecidableEq, Repr

def includeCalls : List String :=
  ["include", "include_once", "require", "require_once", "execfile", "importlib.import_module",
   "__import__", "runpy.run_path", "imp.load_source", "render_template"]

def openCalls : List String := ["open", "io.open", "codecs.open", "send_file", "FileResponse"]

def fetchCalls : List String := ["file_get_contents", "fopen", "readfile", "urlretrieve"]

def default : FileInclusion := ⟨⟨userInput, ["basename", "secure_filename", "safe_join"]⟩, .error⟩

def target? (call : Call) : Option (Target × String) :=
  [(Target.load, includeCalls), (.read, openCalls), (.fetch, fetchCalls)].findSome?
    fun (target, names) => (call.matched? names).map (target, ·)

def isRemote (start : String) : Bool :=
  Text.startsWith start "http://" || Text.startsWith start "https://"

def pathMessage? (name start : String) : Target → Option String
  | .load =>
    if isRemote start then some (remoteMessage name)
    else if Text.startsWith start "./" || Text.startsWith start "../" then
      some ("`" ++ name ++
        "` includes a relative path; resolve it against a fixed base directory")
    else none
  | .read =>
    if Text.startsWith start "../" then
      some ("`" ++ name ++ "` opens a path that traverses to a parent directory")
    else none
  | .fetch => if isRemote start then some (remoteMessage name) else none
where
  remoteMessage (name : String) : String :=
    "`" ++ name ++ "` loads a remote file; fetch and validate remote content explicitly"

variable (rule : FileInclusion)

def message? (bindings : Bindings) (tainted : List String) (call : Call) : Option String := do
  let (target, name) ← target? call
  let path ← (call.positional? 0).or (call.keyword? "file")
  match pathMessage? name (bindings.resolve path).leadingText target with
  | some message => return message
  | none =>
    if target ≠ .fetch ∧ rule.taint.isTainted tainted path then
      return "`" ++ name ++ "` loads a path derived from user input"
    else none

def checkScope (program : Program) (scope : Scope) : List Finding :=
  ((Bindings.scan scope).zip (rule.taint.scan scope)).filterMap
    fun ((node, bindings), (_, tainted)) => do
      let message ← rule.message? bindings tainted (← node.call?)
      return id.finding program node.line rule.severity message

def check (program : Program) : List Finding :=
  Finding.sortByLine (program.scopes.flatMap (rule.checkScope program))

def toRule : Rule where
  name := id.name
  code := id.code
  description := "Detects file inclusion through relative, remote or user-controlled paths"
  severity := rule.severity
  check := fun program => .ok (rule.check program)

end FileInclusion
end SourceAudit
