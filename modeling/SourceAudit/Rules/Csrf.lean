import SourceAudit.Config
import SourceAudit.Rule
import SourceAudit.Rules.Callee
import SourceAudit.Syntax.Node
import SourceAudit.Text.Search

namespace SourceAudit

/-- Finds HTTP handlers that change state without protection against forged requests. -/
structure Csrf where
  markers : List String
  severity : Severity
  escalated : Severity

namespace Csrf

def id : RuleId := ⟨"csrf", "PS003"⟩

def unsafeMethods : List String := ["POST", "PUT", "PATCH", "DELETE"]

def methodDecorators : List String := ["post", "put", "patch", "delete"]

def routeDecorators : List String := ["route", "api_route", "add_url_rule"]

/-- Decorators whose first argument lists the methods. -/
def methodListDecorators : List String := ["api_view", "require_http_methods"]

def defaultMarkers : List String :=
  ["csrf_protect", "validate_csrf", "verify_csrf", "check_csrf", "csrf.protect",
   "validate_on_submit"]

def writingMethods : List String := ["delete", "update", "remove", "destroy", "drop", "insert"]

def default : Csrf := ⟨defaultMarkers, .warning, .error⟩

def ofOptions (options : RuleOptions) : Csrf :=
  { default with markers := Text.extendUnique defaultMarkers (options.strings "markers") }

def bodyNodes (definition : FunctionDef Stmt) : List Node :=
  (Scope.mk (some definition) definition.body.statements).nodes

def stringOf? (node : Node) : Option String := node.expr?.bind Expr.string?

def isNamed (word : String) (expr : Expr) : Bool :=
  expr.dottedName.any fun name => Dotted.lastSegment name == word

/-- Whether a decorator is `csrf_exempt`, called or not, or has it as an argument. -/
def isExempt (decorator : Expr) : Bool :=
  match decorator.call? with
  | some call => (call.function :: call.values).any (isNamed "csrf_exempt")
  | none => isNamed "csrf_exempt" decorator

def firstUnsafe? (list : Expr) : Option String :=
  match list.shape with
  | .list items | .tuple items | .set items =>
    (items.filterMap fun item => item.string?.map Text.upper).find? unsafeMethods.contains
  | _ => none

def calledMethod? (name : String) (call : Call) : Option String :=
  if routeDecorators.contains name then (call.keyword? "methods").bind firstUnsafe?
  else if methodListDecorators.contains name then
    ((call.positional? 0).or (call.keyword? "http_method_names")).bind firstUnsafe?
  else none

def decoratorMethod? (decorator : Expr) : Option String := do
  let call? := decorator.call?
  let name := Dotted.lastSegment (← ((call?.map (·.function)).getD decorator).dottedName)
  if methodDecorators.contains name then return Text.upper name
  if name = "require_POST" then return "POST"
  calledMethod? name (← call?)

def isRequestMethod (expr : Expr) : Bool :=
  expr.dottedName.any fun name => Text.endsWith name "request.method"

def comparedMethod? (expr : Expr) : Option String :=
  match expr.shape with
  | .binary .equal left right =>
    let literal :=
      if isRequestMethod left then right.string?
      else if isRequestMethod right then left.string?
      else none
    (literal.map Text.upper).filter unsafeMethods.contains
  | _ => none

def unsafeMethod? (definition : FunctionDef Stmt) : Option String :=
  (definition.decorators.findSome? decoratorMethod?).or
    ((bodyNodes definition).findSome? fun node => node.expr?.bind comparedMethod?)

def changesState (definition : FunctionDef Stmt) : Bool :=
  (bodyNodes definition).any fun node =>
    (node.call?.bind (·.methodName)).any writingMethods.contains

/-- Whether a call installs protection for a whole application. -/
def installsProtection (callee : String) : Bool :=
  Dotted.lastSegment callee == "CSRFProtect" ||
    (Text.endsWith callee ".init_app" && Text.contains (Text.lowerAscii callee) "csrf")

def isModuleProtected (program : Program) : Bool :=
  (Scope.mk none program.statements).nodes.any fun node =>
    (node.call?.bind (·.callee)).any installsProtection ||
      (stringOf? node).any fun text => Text.contains text "CsrfViewMiddleware"

variable (rule : Csrf)

def isMarker (expr : Expr) : Bool :=
  match expr.call? with
  | some call => call.isAny rule.markers
  | none => expr.dottedName.any fun name => rule.markers.any (Dotted.endsWith name)

def isProtected (definition : FunctionDef Stmt) : Bool :=
  definition.decorators.any rule.isMarker ||
    (bodyNodes definition).any fun node =>
      node.call?.any (·.isAny rule.markers) ||
        (stringOf? node).any fun text => text == "csrf_token" || text == "csrfmiddlewaretoken"

def handlerMessage? (moduleProtected : Bool) (definition : FunctionDef Stmt) : Option String := do
  let ending := if changesState definition then " and modifies stored data" else ""
  if definition.decorators.any isExempt then
    return "Handler `" ++ definition.name ++ "` is exempt from CSRF protection" ++ ending
  let method ← unsafeMethod? definition
  if moduleProtected || rule.isProtected definition then none
  else
    return "Handler `" ++ definition.name ++ "` accepts " ++ method ++
      " requests without CSRF protection" ++ ending

def handlerFinding? (program : Program) (moduleProtected : Bool) (node : Node) : Option Finding :=
  match node with
  | .stmt ⟨line, .functionDef definition⟩ =>
    (rule.handlerMessage? moduleProtected definition).map fun message =>
      id.finding program line
        (if changesState definition then rule.escalated else rule.severity) message
  | _ => none

def registrationFinding? (program : Program) (node : Node) : Option Finding :=
  match node with
  | .stmt ⟨line, .expr value⟩ => do
    let call ← value.call?
    if call.methodName = some "add_url_rule" then
      let method ← (call.keyword? "methods").bind firstUnsafe?
      return id.finding program line rule.severity
        ("URL rule accepts " ++ method ++ " requests without CSRF protection")
    else none
  | _ => none

def check (program : Program) : List Finding :=
  let moduleProtected := isModuleProtected program
  let handlers := program.nodes.filterMap (rule.handlerFinding? program moduleProtected)
  let registrations :=
    if moduleProtected then [] else program.nodes.filterMap (rule.registrationFinding? program)
  Finding.sortByLine (handlers ++ registrations)

def toRule : Rule where
  name := id.name
  code := id.code
  description := "Detects state-changing HTTP handlers without CSRF protection"
  severity := rule.severity
  check := fun program => .ok (rule.check program)

end Csrf
end SourceAudit
