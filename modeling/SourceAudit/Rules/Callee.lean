import SourceAudit.Syntax.Expr
import SourceAudit.Text.Search

namespace SourceAudit

/-- Where outside data enters a program: web requests and the standard library. -/
def userInput : List String :=
  ["input", "raw_input", "sys.argv", "request.GET", "request.POST", "request.args", "request.form",
   "request.values", "request.files", "request.json", "request.data", "request.cookies",
   "request.headers", "request.query_params", "request.get_json"]

namespace Dotted

def lastSegment (name : String) : String :=
  String.ofList (((Text.split (· == '.') name.toList).getLast?).getD [])

def isSimple (name : String) : Bool := !name.toList.contains '.'

end Dotted

namespace Call

/-- The name shown for a call that is one of the given ones. A call on a computed object has no
    dotted name and goes by the name of its method. -/
def matched? (call : Call) (names : List String) : Option String :=
  match call.callee with
  | some callee => if names.any (Dotted.endsWith callee) then some callee else none
  | none => names.find? fun name => Dotted.isSimple name && call.methodName == some name

def isAny (call : Call) (names : List String) : Bool := (call.matched? names).isSome

end Call
end SourceAudit
