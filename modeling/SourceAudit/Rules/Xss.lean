import SourceAudit.Config
import SourceAudit.Regex
import SourceAudit.Rule
import SourceAudit.Rules.Callee
import SourceAudit.Taint
import SourceAudit.Token.Basic

namespace SourceAudit

/-- Finds outside data that reaches HTML output without escaping. -/
structure Xss where
  taint : TaintPolicy
  sinks : List String
  severity : Severity

namespace Xss

def id : RuleId := ⟨"xss", "PS002"⟩

def defaultSinks : List String :=
  ["print", "render_template_string", "mark_safe", "Markup", "HttpResponse", "make_response",
   "document.write", "response.write"]

def defaultSanitizers : List String :=
  ["html", "htmlspecialchars", "escape", "bleach.clean", "conditional_escape", "strip_tags"]

def htmlProperties : List String := ["innerHTML", "outerHTML"]

def default : Xss := ⟨⟨userInput, defaultSanitizers⟩, defaultSinks, .error⟩

def ofOptions (options : RuleOptions) : Xss where
  taint := (default.taint.withSources (options.strings "sources")).withSanitizers
    (options.strings "sanitizers")
  sinks := Text.extendUnique defaultSinks (options.strings "sinks")
  severity := .error

def eventHandler : Regex :=
  .all [.char '<', .one Regex.isLetter, .many (.noneOf ['>']), .blank, .anyCase "on",
    .many1 (.one Regex.isLetter), .many .blank, .char '=', .many .blank,
    .optional (.one Token.isQuote), .one fun c => !(Text.isBlank c || c == '>')]

def scriptTag : Regex := .all [.char '<', .anyCase "script", .wordEdge]

def scriptCall : Regex :=
  .oneOf [
    .all [.anyCase "eval", .many .blank, .char '('],
    .all [.anyCase "settimeout", .many .blank, .char '('],
    .anyCase "document.write",
    .anyCase "window.location"]

/-- The first dangerous call in a script. What follows the first tag holds all that follows later
    ones. -/
def dangerousCall? (text : String) : Option (List Char) := do
  let (_, attributes) ← scriptTag.find? text.toList
  match attributes.dropWhile (· ≠ '>') with
  | [] => none
  | _ :: script => (scriptCall.find? script).map (·.1)

/-- The tests of literals that hold markup. -/
structure Tests where
  hasHandler : String → Bool
  dangerousCall? : String → Option (List Char)

def Tests.standard : Tests := ⟨eventHandler.isMatch, Xss.dangerousCall?⟩

variable (rule : Xss) (tests : Tests)

def assignedProperties (assignment : Assignment) : List String :=
  assignment.targets.filterMap fun target =>
    match target.shape with
    | .attribute _ name => if htmlProperties.contains name then some name else none
    | _ => none

def flowMessages (node : Node) (tainted : List String) : List String :=
  match node with
  | .stmt ⟨_, .assign assignment⟩ =>
    if assignment.value.any (rule.taint.isTainted tainted) then
      (assignedProperties assignment).map fun name =>
        "User input assigned to `." ++ name ++ "` without HTML escaping"
    else []
  | _ =>
    match node.call? with
    | none => []
    | some call =>
      match call.matched? rule.sinks with
      | none => []
      | some sink =>
        if call.values.any (rule.taint.isTainted tainted) then
          ["User input reaches `" ++ sink ++ "` without HTML escaping"]
        else []

def flows (program : Program) : List (Nat × String) :=
  program.scopes.flatMap fun scope =>
    (rule.taint.scan scope).flatMap fun (node, tainted) =>
      (rule.flowMessages node tainted).map (node.line, ·)

def callName (call : List Char) : String :=
  String.ofList ((call.reverse.dropWhile fun c => c == '(' || c == ' ').reverse)

def literalMessages (text : String) : List String :=
  let handler :=
    if tests.hasHandler text then ["HTML literal carries an inline event handler attribute"]
    else []
  let script :=
    match tests.dangerousCall? text with
    | some call =>
      ["Inline script uses `" ++ callName call ++
        "`, which executes or redirects to dynamic content"]
    | none => []
  handler ++ script

def literalText? (expr : Expr) : Option String :=
  match expr.shape with
  | .string text => some text
  | .formatted parts => some (String.join (parts.map FormattedPart.literalText))
  | _ => none

def literals (program : Program) : List (Nat × String) :=
  let root := Node.program program
  (root.findAll .string ++ root.findAll .formatted).flatMap fun node =>
    match node.expr?.bind literalText? with
    | some text => (literalMessages tests text).map (node.line, ·)
    | none => []

def check (program : Program) : List Finding :=
  Finding.sortByLine ((rule.flows program ++ literals tests program).map fun (line, message) =>
    id.finding program line rule.severity message)

def toRule : Rule where
  name := id.name
  code := id.code
  description := "Detects user input written to HTML output without escaping"
  severity := rule.severity
  check := fun program => .ok (rule.check tests program)

end Xss
end SourceAudit
