import SourceAudit.Syntax.Node
import SourceAudit.Text.Search

namespace SourceAudit

/-- Where outside data comes from and which calls make it harmless. -/
structure TaintPolicy where
  sources : List String
  sanitizers : List String
deriving DecidableEq, Repr, Inhabited

namespace TaintPolicy

variable (policy : TaintPolicy)

def withSources (extra : List String) : TaintPolicy :=
  { policy with sources := policy.sources ++ extra }

def withSanitizers (extra : List String) : TaintPolicy :=
  { policy with sanitizers := policy.sanitizers ++ extra }

def isSource (name : String) : Bool := policy.sources.any (Dotted.isWithin name)

def isSanitizer (name : String) : Bool := policy.sanitizers.any (Dotted.endsWith name)

def isTaintedName (tainted : List String) (name : String) : Bool :=
  tainted.contains name || policy.isSource name

/-- Whether the value of an expression may derive from a source when the names `tainted` do. -/
def isTainted (tainted : List String) (expr : Expr) : Bool :=
  match _shape : expr.shape with
  | .identifier name => policy.isTaintedName tainted name
  | .attribute value _ =>
    expr.dottedName.any (policy.isTaintedName tainted) || isTainted tainted value
  | .subscript value _ => isTainted tainted value
  | .call function args =>
    if function.dottedName.any policy.isSanitizer then false
    else if function.dottedName.any policy.isSource then true
    else
      (match _method : function.shape with
        | .attribute value _ => isTainted tainted value
        | _ => false) ||
      args.attach.any fun ⟨arg, _⟩ => isTainted tainted arg.value
  | .lambda _ _ | .yield _ _ => false
  | _ => expr.children.attach.any fun ⟨child, _⟩ => isTainted tainted child
termination_by sizeOf expr
decreasing_by
  · exact Expr.sizeOf_child (by simp [Expr.children, _shape, Expr.Shape.children])
  · exact Expr.sizeOf_child (by simp [Expr.children, _shape, Expr.Shape.children])
  · have inner : sizeOf value < sizeOf function :=
      Expr.sizeOf_child (by simp [Expr.children, _method, Expr.Shape.children])
    have outer : sizeOf function < sizeOf expr :=
      Expr.sizeOf_child (by simp [Expr.children, _shape, Expr.Shape.children])
    omega
  · rename_i member
    refine Expr.sizeOf_child ?_
    simp only [Expr.children, _shape, Expr.Shape.children]
    exact List.mem_cons_of_mem _ (List.mem_map_of_mem member)
  · exact Expr.sizeOf_child ‹_›

def mark (isTainted : Bool) (name : String) (tainted : List String) : List String :=
  if isTainted then tainted.insert name else tainted.filter (· != name)

/-- The tainted names after a value is assigned to a target. Writing into a container taints it but
    never cleans it. -/
def bind (isTainted : Bool) (target : Expr) (tainted : List String) : List String :=
  match _shape : target.shape with
  | .identifier _ | .attribute _ _ =>
    match target.dottedName with
    | some name => mark isTainted name tainted
    | none => tainted
  | .tuple items | .list items =>
    items.attach.foldl (fun names ⟨item, _⟩ => bind isTainted item names) tainted
  | .starred inner => bind isTainted inner tainted
  | .subscript value _ => if isTainted then bind true value tainted else tainted
  | _ => tainted
termination_by sizeOf target
decreasing_by
  all_goals exact Expr.sizeOf_child (by simp_all [Expr.children, Expr.Shape.children])

def bindAll (isTainted : Bool) (targets : List Expr) (tainted : List String) : List String :=
  targets.foldl (fun names target => bind isTainted target names) tainted

def enter (tainted : List String) (item : WithItem) : List String :=
  match item.target with
  | some target => bind (policy.isTainted tainted item.context) target tainted
  | none => tainted

def observe (tainted : List String) (stmt : Stmt) : List String :=
  match stmt.shape with
  | .assign assignment =>
    match assignment.value with
    | none => tainted
    | some value =>
      let state := policy.isTainted tainted value
      if assignment.augmented.isSome && !state then tainted
      else bindAll state assignment.targets tainted
  | .forLoop _ target iterated _ _ => bind (policy.isTainted tainted iterated) target tainted
  | .withItems _ items _ => items.foldl policy.enter tainted
  | _ => tainted

def observeNode (tainted : List String) : Node → List String
  | .stmt stmt => policy.observe tainted stmt
  | _ => tainted

/-- Each node with the names that are tainted when it is reached. -/
def scanFrom (tainted : List String) : List Node → List (Node × List String)
  | [] => []
  | node :: rest => (node, tainted) :: scanFrom (policy.observeNode tainted node) rest

def scan (scope : Scope) : List (Node × List String) := policy.scanFrom [] scope.nodes

end TaintPolicy
end SourceAudit
