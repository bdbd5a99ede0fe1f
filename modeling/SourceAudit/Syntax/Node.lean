import SourceAudit.Syntax.Stmt

namespace SourceAudit

inductive Node.Kind where
  | program
  | assign
  | exprStmt
  | ifElse
  | whileLoop
  | forLoop
  | functionDef
  | classDef
  | importNames
  | importFrom
  | pass
  | returnValue
  | breakLoop
  | continueLoop
  | tryExcept
  | block
  | withItems
  | raise
  | assert
  | delete
  | global
  | identifier
  | int
  | float
  | string
  | bool
  | none
  | unary
  | binary
  | call
  | attribute
  | subscript
  | slice
  | list
  | tuple
  | dict
  | set
  | lambda
  | listComp
  | dictComp
  | setComp
  | generatorExp
  | await
  | formatted
  | conditional
  | yield
  | starred
deriving DecidableEq, Repr

inductive Node where
  | program (program : Program)
  | stmt (stmt : Stmt)
  | block (block : Block Stmt)
  | expr (expr : Expr)

variable {σ ε : Type}

def Stmt.Shape.kind : Stmt.Shape σ → Node.Kind
  | .assign .. => .assign
  | .expr .. => .exprStmt
  | .ifElse .. => .ifElse
  | .whileLoop .. => .whileLoop
  | .forLoop .. => .forLoop
  | .functionDef .. => .functionDef
  | .classDef .. => .classDef
  | .importNames .. => .importNames
  | .importFrom .. => .importFrom
  | .pass => .pass
  | .returnValue .. => .returnValue
  | .breakLoop => .breakLoop
  | .continueLoop => .continueLoop
  | .tryExcept .. => .tryExcept
  | .block .. => .block
  | .withItems .. => .withItems
  | .raise .. => .raise
  | .assert .. => .assert
  | .delete .. => .delete
  | .global .. => .global

def Expr.Shape.kind : Expr.Shape ε → Node.Kind
  | .identifier .. => .identifier
  | .int .. => .int
  | .float .. => .float
  | .string .. => .string
  | .bool .. => .bool
  | .none => .none
  | .unary .. => .unary
  | .binary .. => .binary
  | .call .. => .call
  | .attribute .. => .attribute
  | .subscript .. => .subscript
  | .slice .. => .slice
  | .list .. => .list
  | .tuple .. => .tuple
  | .dict .. => .dict
  | .set .. => .set
  | .lambda .. => .lambda
  | .listComp .. => .listComp
  | .dictComp .. => .dictComp
  | .setComp .. => .setComp
  | .generatorExp .. => .generatorExp
  | .await .. => .await
  | .formatted .. => .formatted
  | .conditional .. => .conditional
  | .yield .. => .yield
  | .starred .. => .starred

def Assignment.children (assignment : Assignment) : List Expr :=
  assignment.targets ++ assignment.hint.toList ++ assignment.value.toList

def WithItem.children (item : WithItem) : List Expr := item.context :: item.target.toList

def FunctionDef.header (definition : FunctionDef σ) : List Expr :=
  definition.decorators ++ definition.params.flatMap (·.children) ++ definition.returns.toList

namespace Node

def exprs (values : List Expr) : List Node := values.map expr

def expr? : Node → Option Expr
  | expr value => some value
  | _ => none

def stmt? : Node → Option Stmt
  | stmt value => some value
  | _ => none

def call? (node : Node) : Option Call := node.expr?.bind Expr.call?

def ofHandler (handler : Handler Stmt) : List Node :=
  exprs handler.caught.toList ++ [block handler.body]

/-- The parts of a statement in source order. The body of a function is one of them only if
    `entering` holds. -/
def ofStmt (entering : Bool) : Stmt.Shape Stmt → List Node
  | .assign assignment => exprs assignment.children
  | .expr value => [expr value]
  | .ifElse test body alternate => expr test :: block body :: alternate.toList.map stmt
  | .whileLoop test body orelse => expr test :: block body :: orelse.toList.map block
  | .forLoop _ target iterated body orelse =>
    expr target :: expr iterated :: block body :: orelse.toList.map block
  | .functionDef definition =>
    exprs definition.header ++ if entering then [block definition.body] else []
  | .classDef definition =>
    exprs (definition.decorators ++ definition.bases.map (·.value)) ++ [block definition.body]
  | .returnValue value => exprs value.toList
  | .tryExcept body handlers orelse last =>
    block body :: handlers.flatMap ofHandler ++ orelse.toList.map block ++ last.toList.map block
  | .block body => body.statements.map stmt
  | .withItems _ items body => exprs (items.flatMap (·.children)) ++ [block body]
  | .raise exception cause => exprs (exception.toList ++ cause.toList)
  | .assert test message => exprs (test :: message.toList)
  | .delete targets => exprs targets
  | .importNames _ | .importFrom .. | .pass | .breakLoop | .continueLoop | .global .. => []

def kind : Node → Kind
  | program _ => .program
  | stmt value => value.shape.kind
  | block _ => .block
  | expr value => value.shape.kind

def line : Node → Nat
  | program _ => 1
  | stmt value => value.line
  | block value => value.line
  | expr value => value.line

def parts (entering : Bool) : Node → List Node
  | program value => value.statements.map stmt
  | stmt value => ofStmt entering value.shape
  | block value => value.statements.map stmt
  | expr value => exprs value.children

def children : Node → List Node := parts true

/-- The direct sub-nodes that belong to the same scope: not the body of a function. -/
def scopeChildren : Node → List Node := parts false

/-- A size that exceeds the sizes of all children together. -/
noncomputable def weight : Node → Nat
  | program value => 1 + sizeOf value.statements
  | stmt value => sizeOf value
  | block value => sizeOf value
  | expr value => sizeOf value

noncomputable def weights (nodes : List Node) : Nat := nodes.foldr (fun node total => node.weight + total) 0

@[simp] theorem weights_nil : weights [] = 0 := rfl

@[simp] theorem weights_cons (node : Node) (nodes : List Node) :
    weights (node :: nodes) = node.weight + weights nodes := by simp [weights]

@[simp] theorem weights_append (first second : List Node) :
    weights (first ++ second) = weights first + weights second := by
  induction first with
  | nil => simp
  | cons node nodes ih =>
    rw [List.cons_append, weights_cons, weights_cons, ih]
    omega

@[simp] theorem weights_exprs_nil : weights (exprs []) = 0 := rfl

@[simp] theorem weights_exprs_cons (value : Expr) (values : List Expr) :
    weights (exprs (value :: values)) = sizeOf value + weights (exprs values) := rfl

@[simp] theorem weights_exprs_append (first second : List Expr) :
    weights (exprs (first ++ second)) = weights (exprs first) + weights (exprs second) := by
  simp [exprs]

@[grind! .] theorem weights_exprs (values : List Expr) : weights (exprs values) ≤ sizeOf values := by
  induction values <;> simp <;> omega

@[grind! .] theorem weights_stmts (values : List Stmt) : weights (values.map stmt) ≤ sizeOf values := by
  induction values <;> simp [weight] <;> omega

@[grind! .] theorem weights_expr_option (value : Option Expr) : weights (exprs value.toList) ≤ sizeOf value := by
  cases value <;> simp

@[grind! .] theorem weights_block_option (value : Option (Block Stmt)) :
    weights (value.toList.map block) ≤ sizeOf value := by
  cases value <;> simp [weight]

@[grind! .] theorem weights_stmt_option (value : Option Stmt) : weights (value.toList.map stmt) ≤ sizeOf value := by
  cases value <;> simp [weight]

theorem weights_flatMap {α : Type} [SizeOf α] {f : α → List Expr} (each : ∀ value, weights (exprs (f value)) ≤ sizeOf value)
    (values : List α) : weights (exprs (values.flatMap f)) ≤ sizeOf values := by
  induction values with
  | nil => simp
  | cons value rest ih =>
    have := each value
    simp
    omega

@[grind! .] theorem weights_params (params : List (Param Expr)) :
    weights (exprs (params.flatMap (·.children))) ≤ sizeOf params := by
  refine weights_flatMap (fun stored => ?_) params
  cases stored
  simp [Param.children]
  grind

@[grind! .] theorem weights_args (args : List (Argument Expr)) :
    weights (exprs (args.map (·.value))) ≤ sizeOf args := by
  induction args with
  | nil => simp
  | cons arg rest ih =>
    cases arg
    simp
    omega

@[grind! .] theorem weights_entries (entries : List (DictEntry Expr)) :
    weights (exprs (entries.flatMap (·.children))) ≤ sizeOf entries := by
  refine weights_flatMap (fun stored => ?_) entries
  cases stored
  simp [DictEntry.children]
  grind

@[grind! .] theorem weights_generators (generators : List (Generator Expr)) :
    weights (exprs (generators.flatMap (·.children))) ≤ sizeOf generators := by
  refine weights_flatMap (fun stored => ?_) generators
  cases stored
  simp [Generator.children]
  grind

@[grind! .] theorem weights_formatted (parts : List (FormattedPart Expr)) :
    weights (exprs (parts.flatMap (·.children))) ≤ sizeOf parts := by
  refine weights_flatMap (fun part => ?_) parts
  cases part <;> simp [FormattedPart.children]

@[grind! .] theorem weights_items (items : List WithItem) :
    weights (exprs (items.flatMap (·.children))) ≤ sizeOf items := by
  refine weights_flatMap (fun stored => ?_) items
  cases stored
  simp [WithItem.children]
  grind

@[grind! .] theorem weights_handlers (handlers : List (Handler Stmt)) :
    weights (handlers.flatMap ofHandler) ≤ sizeOf handlers := by
  induction handlers with
  | nil => simp
  | cons handler rest ih =>
    cases handler
    simp [ofHandler, weight]
    grind

theorem weights_shape (shape : Expr.Shape Expr) : weights (exprs shape.children) < sizeOf shape := by
  cases shape <;> simp [Expr.Shape.children] <;> grind

theorem weight_le_weights {node : Node} {nodes : List Node} (member : node ∈ nodes) :
    node.weight ≤ weights nodes := by
  induction nodes with
  | nil => cases member
  | cons first rest ih =>
    simp only [weights_cons]
    rcases List.mem_cons.mp member with rfl | inside
    · omega
    · have := ih inside
      omega

theorem weights_ofStmt (entering : Bool) (shape : Stmt.Shape Stmt) : weights (ofStmt entering shape) < sizeOf shape := by
  cases shape with
  | assign assignment =>
    cases assignment
    simp [ofStmt, Assignment.children]
    grind
  | functionDef definition =>
    cases definition
    cases entering <;> simp [ofStmt, FunctionDef.header, weight] <;> grind
  | classDef definition =>
    cases definition
    simp [ofStmt, weight]
    grind
  | block body =>
    cases body
    simp [ofStmt]
    grind
  | _ => simp [ofStmt, weight] <;> grind

theorem weights_parts (entering : Bool) (node : Node) : weights (node.parts entering) < node.weight := by
  cases node with
  | program value => simp only [parts, weight]; grind
  | stmt value =>
    obtain ⟨line, shape⟩ := value
    have := weights_ofStmt entering shape
    simp [parts, weight]
    omega
  | block value =>
    cases value
    simp [parts, weight]
    grind
  | expr value =>
    obtain ⟨line, shape⟩ := value
    have := weights_shape shape
    simp [parts, weight, Expr.children]
    omega

def visit (entering : Bool) : List Node → List Node
  | [] => []
  | node :: rest => node :: visit entering (node.parts entering ++ rest)
termination_by nodes => weights nodes
decreasing_by
  have := weights_parts entering node
  simp only [weights_append, weights_cons]
  omega

def walk (root : Node) : List Node := visit true [root]

def findAll (root : Node) (kind : Kind) : List Node := root.walk.filter (·.kind = kind)

def firstIn (kind : Kind) : List Node → Option Node
  | [] => none
  | node :: rest => if node.kind = kind then some node else firstIn kind (node.children ++ rest)
termination_by nodes => weights nodes
decreasing_by
  have := weights_parts true node
  simp only [children, weights_append, weights_cons]
  omega

def findFirst (root : Node) (kind : Kind) : Option Node := firstIn kind [root]

end Node

theorem Expr.sizeOf_child {child expr : Expr} (member : child ∈ expr.children) :
    sizeOf child < sizeOf expr := by
  have inside : Node.expr child ∈ Node.exprs expr.children := List.mem_map_of_mem member
  have small := Node.weight_le_weights inside
  have whole := Node.weights_parts true (.expr expr)
  simp only [Node.weight, Node.parts] at small whole
  omega

/-- The code of a module or of one function, without the bodies of the functions in it. -/
structure Scope where
  function : Option (FunctionDef Stmt)
  statements : List Stmt

namespace Scope

def nodes (scope : Scope) : List Node := Node.visit false (scope.statements.map .stmt)

def ofFunction? : Node → Option Scope
  | .stmt ⟨_, .functionDef definition⟩ => some ⟨some definition, definition.body.statements⟩
  | _ => none

end Scope

namespace Program

def scopes (program : Program) : List Scope :=
  ⟨none, program.statements⟩ :: (Node.program program).walk.filterMap Scope.ofFunction?

def nodes (program : Program) : List Node := (Node.program program).walk

def calls (program : Program) : List (Nat × Call) :=
  program.nodes.filterMap fun node => node.call?.map (node.line, ·)

end Program
end SourceAudit
