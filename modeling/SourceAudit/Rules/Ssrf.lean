import SourceAudit.Config
import SourceAudit.Rule
import SourceAudit.Rules.Callee
import SourceAudit.Rules.Literal
import SourceAudit.Taint
import SourceAudit.Url

namespace SourceAudit

/-- Finds requests that may reach services behind the firewall. -/
structure Ssrf where
  allowedPorts : List Nat
  taint : TaintPolicy
  severity : Severity

namespace Ssrf

def id : RuleId := ⟨"ssrf", "PS004"⟩

def sinks : List String :=
  ["requests.get", "requests.post", "requests.put", "requests.patch", "requests.delete",
   "requests.head", "requests.options", "requests.request", "httpx.get", "httpx.post", "httpx.put",
   "httpx.patch", "httpx.delete", "httpx.request", "urlopen", "urllib.request.Request",
   "urllib.urlopen"]

def default : Ssrf := ⟨[80, 443, 8000, 8080, 8443], ⟨userInput, ["quote", "urlencode"]⟩, .error⟩

/-- The option `allowed_ports` replaces the ports; numbers that are no ports are left out. -/
def ofOptions (options : RuleOptions) : Ssrf :=
  match options.ints? "allowed_ports" with
  | some ports =>
    let valid := ports.filter fun port => 0 ≤ port && port < 0x10000
    { default with allowedPorts := valid.map Int.toNat }
  | none => default

/-- A generic `request` takes the method first. -/
def url? (call : Call) (sink : String) : Option Expr :=
  (call.keyword? "url").or
    (call.positional? (if Dotted.lastSegment sink = "request" then 1 else 0))

/-- How a whole URL is read, and how one of which only the start is known. -/
structure Readers where
  whole? : String → Option Url
  start? : String → Option Url

def Readers.standard : Readers := ⟨Url.parse?, Url.parseStart?⟩

def known? (readers : Readers) (url : Expr) : Option Url :=
  if url.isConstant then readers.whole? url.literalText else readers.start? url.leadingText

variable (rule : Ssrf) (readers : Readers)

def complaint? (sink : String) (url : Url) : Option String :=
  if url.scheme ≠ "http" ∧ url.scheme ≠ "https" then
    some ("`" ++ sink ++ "` fetches a `" ++ url.scheme ++
      "://` URL; only http and https are expected")
  else do
    let host ← url.host
    let port ← url.port
    if rule.allowedPorts.contains port then none
    else if host.isInternal then
      some ("`" ++ sink ++ "` targets internal host `" ++ host.display ++ "` on port " ++
        toString port)
    else
      some ("`" ++ sink ++ "` targets port " ++ toString port ++ ", outside the allowed ports")

/-- A known host is judged by itself; an unknown one by where it comes from. -/
def message? (bindings : Bindings) (tainted : List String) (call : Call) : Option String := do
  let sink ← call.matched? sinks
  let argument ← url? call sink
  let known := known? readers (bindings.resolve argument)
  if known.any (·.host.isSome) then known.bind (rule.complaint? sink)
  else if rule.taint.isTainted tainted argument then
    some ("`" ++ sink ++ "` fetches a URL whose host comes from user input")
  else known.bind (rule.complaint? sink)

def checkScope (program : Program) (scope : Scope) : List Finding :=
  ((Bindings.scan scope).zip (rule.taint.scan scope)).filterMap
    fun ((node, bindings), (_, tainted)) => do
      let message ← rule.message? readers bindings tainted (← node.call?)
      return id.finding program node.line rule.severity message

def check (program : Program) : List Finding :=
  Finding.sortByLine (program.scopes.flatMap (rule.checkScope readers program))

def toRule : Rule where
  name := id.name
  code := id.code
  description := "Detects outbound requests to unexpected schemes, ports or user-chosen hosts"
  severity := rule.severity
  check := fun program => .ok (rule.check readers program)

end Ssrf
end SourceAudit
