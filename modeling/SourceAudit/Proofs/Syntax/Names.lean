import SourceAudit.Syntax.Node
import SourceAudit.Text.Search

open List

namespace SourceAudit

def Dotted.segments (path : String) : List String :=
  if path = "" then [] else (Text.split (· == '.') path.toList).map String.ofList

inductive Node.Entry where
  | name (text : String)
  | part (node : Node)

namespace Node.Entry

def node? : Entry → Option Node
  | name _ => none
  | part node => some node

def names (texts : List String) : List Entry := texts.map name

def parts (nodes : List Node) : List Entry := nodes.map part

def exprs (values : List Expr) : List Entry := parts (Node.exprs values)

@[simp] theorem nodes_append (first second : List Entry) :
    (first ++ second).filterMap node? = first.filterMap node? ++ second.filterMap node? :=
  filterMap_append

@[simp] theorem nodes_name (text : String) (rest : List Entry) :
    (name text :: rest).filterMap node? = rest.filterMap node? := rfl

@[simp] theorem nodes_part (node : Node) (rest : List Entry) :
    (part node :: rest).filterMap node? = node :: rest.filterMap node? := rfl

@[simp] theorem nodes_names (texts : List String) : (names texts).filterMap node? = [] := by
  induction texts with
  | nil => rfl
  | cons text texts ih => exact ih

@[simp] theorem nodes_parts (nodes : List Node) : (parts nodes).filterMap node? = nodes := by
  induction nodes with
  | nil => rfl
  | cons node nodes ih => exact congrArg (List.cons node) ih

@[simp] theorem nodes_exprs (values : List Expr) : (exprs values).filterMap node? = Node.exprs values :=
  nodes_parts _

end Node.Entry

open Node (Entry)

def ArgumentKind.names : ArgumentKind → List String
  | .keyword name => [name]
  | _ => []

def Argument.entries (arg : Argument Expr) : List Entry :=
  Entry.names arg.kind.names ++ Entry.exprs [arg.value]

def Param.entries (param : Param Expr) : List Entry := .name param.name :: Entry.exprs param.children

def Expr.Shape.entries : Expr.Shape Expr → List Entry
  | .identifier name => [.name name]
  | .attribute value name => Entry.exprs [value] ++ [.name name]
  | .call function args => Entry.exprs [function] ++ args.flatMap Argument.entries
  | .lambda params body => params.flatMap Param.entries ++ Entry.exprs [body]
  | shape => Entry.exprs shape.children

/-- An imported name, segment by segment, and the name it gets. The star stands for no name. -/
def Alias.names (imported : Alias) : List String :=
  (if imported.name = "*" then [] else Dotted.segments imported.name) ++ imported.asName.toList

def Handler.entries (handler : Handler Stmt) : List Entry :=
  Entry.exprs handler.caught.toList ++ Entry.names handler.name.toList ++ [.part (.block handler.body)]

def Stmt.Shape.entries : Stmt.Shape Stmt → List Entry
  | .functionDef definition =>
    Entry.exprs definition.decorators ++ [.name definition.name] ++ definition.params.flatMap Param.entries ++
      Entry.exprs definition.returns.toList ++ [.part (.block definition.body)]
  | .classDef definition =>
    Entry.exprs definition.decorators ++ [.name definition.name] ++ definition.bases.flatMap Argument.entries ++
      [.part (.block definition.body)]
  | .tryExcept body handlers orelse last =>
    .part (.block body) :: (handlers.flatMap Handler.entries ++ Entry.parts (orelse.toList.map .block) ++
      Entry.parts (last.toList.map .block))
  | .importNames names => Entry.names (names.flatMap Alias.names)
  | .importFrom _ module names => Entry.names (Dotted.segments module ++ names.flatMap Alias.names)
  | .global _ names => Entry.names names
  | shape => Entry.parts (Node.ofStmt true shape)

namespace Node

def entries : Node → List Entry
  | expr value => value.shape.entries
  | stmt value => value.shape.entries
  | block value => Entry.parts (value.statements.map stmt)
  | program value => Entry.parts (value.statements.map stmt)

theorem exprs_append (first second : List Expr) : exprs (first ++ second) = exprs first ++ exprs second :=
  map_append

theorem nodes_args (args : List (Argument Expr)) :
    (args.flatMap Argument.entries).filterMap Entry.node? = exprs (args.map (·.value)) := by
  induction args with
  | nil => rfl
  | cons arg args ih =>
    rw [flatMap_cons, Entry.nodes_append, ih]
    simp [Argument.entries, exprs]

theorem nodes_params (params : List (Param Expr)) :
    (params.flatMap Param.entries).filterMap Entry.node? = exprs (params.flatMap (·.children)) := by
  induction params with
  | nil => rfl
  | cons param params ih =>
    have first : param.entries.filterMap Entry.node? = exprs param.children := Entry.nodes_exprs _
    rw [flatMap_cons, Entry.nodes_append, ih, first, flatMap_cons, exprs_append]

theorem nodes_handlers (handlers : List (Handler Stmt)) :
    (handlers.flatMap Handler.entries).filterMap Entry.node? = handlers.flatMap ofHandler := by
  induction handlers with
  | nil => rfl
  | cons handler handlers ih =>
    rw [flatMap_cons, Entry.nodes_append, ih, flatMap_cons]
    simp [Handler.entries, ofHandler]

theorem nodes_entries (node : Node) : node.entries.filterMap Entry.node? = node.children := by
  cases node with
  | program value => exact Entry.nodes_parts _
  | block value => exact Entry.nodes_parts _
  | expr value =>
    obtain ⟨line, shape⟩ := value
    change shape.entries.filterMap Entry.node? = exprs shape.children
    cases shape with
    | identifier name => rfl
    | «attribute» value name => rfl
    | call function args =>
      rw [Expr.Shape.entries, Entry.nodes_append, nodes_args, Entry.nodes_exprs]
      rfl
    | lambda params body =>
      rw [Expr.Shape.entries, Entry.nodes_append, nodes_params, Entry.nodes_exprs]
      exact (exprs_append _ _).symm
    | _ => exact Entry.nodes_exprs _
  | stmt value =>
    obtain ⟨line, shape⟩ := value
    change shape.entries.filterMap Entry.node? = ofStmt true shape
    cases shape with
    | functionDef definition =>
      simp [Stmt.Shape.entries, nodes_params, ofStmt, FunctionDef.header, exprs_append]
    | classDef definition => simp [Stmt.Shape.entries, nodes_args, ofStmt, exprs_append]
    | tryExcept body handlers orelse last => simp [Stmt.Shape.entries, nodes_handlers, ofStmt]
    | importNames names => exact Entry.nodes_names _
    | importFrom level module names => exact Entry.nodes_names _
    | global isNonlocal names => exact Entry.nodes_names _
    | _ => exact Entry.nodes_parts _

theorem weight_of_entry {node child : Node} (member : Entry.part child ∈ node.entries) :
    child.weight < node.weight := by
  have below : child ∈ node.parts true := by
    change child ∈ node.children
    rw [← nodes_entries]
    exact mem_filterMap.mpr ⟨_, member, rfl⟩
  have whole := weights_parts true node
  have small := weight_le_weights below
  omega

def names (node : Node) : List String :=
  node.entries.attach.flatMap fun
    | ⟨.name text, _⟩ => [text]
    | ⟨.part child, _member⟩ => child.names
termination_by node.weight
decreasing_by exact weight_of_entry _member

def Entry.spelled : Entry → List String
  | name text => [text]
  | part node => node.names

theorem names_eq (node : Node) : node.names = node.entries.flatMap Entry.spelled := by
  have each : node.names = node.entries.attach.flatMap fun entry => entry.1.spelled := by
    rw [names]
    congr 1
    funext ⟨entry, member⟩
    cases entry <;> rfl
  calc
    node.names = (node.entries.attach.map Subtype.val).flatMap Entry.spelled := by rw [each, flatMap_map]
    _ = node.entries.flatMap Entry.spelled := by rw [attach_map_subtype_val]

end Node

def Expr.names (value : Expr) : List String := (Node.expr value).names

def Stmt.names (statement : Stmt) : List String := (Node.stmt statement).names

def Block.names (body : Block Stmt) : List String := (Node.block body).names

def Program.names (program : Program) : List String := (Node.program program).names

def Argument.names (arg : Argument Expr) : List String := arg.kind.names ++ arg.value.names

def Param.names (param : Param Expr) : List String := param.name :: param.children.flatMap Expr.names

def Handler.names (handler : Handler Stmt) : List String :=
  handler.caught.toList.flatMap Expr.names ++ handler.name.toList ++ handler.body.names

def Expr.Shape.names (shape : Expr.Shape Expr) : List String := shape.entries.flatMap Entry.spelled

def Stmt.Shape.names (shape : Stmt.Shape Stmt) : List String := shape.entries.flatMap Entry.spelled

@[simp] theorem Expr.names_mk (line : Nat) (shape : Expr.Shape Expr) : names ⟨line, shape⟩ = shape.names :=
  Node.names_eq _

@[simp] theorem Stmt.names_mk (line : Nat) (shape : Stmt.Shape Stmt) : names ⟨line, shape⟩ = shape.names :=
  Node.names_eq _

namespace Node.Entry

@[simp] theorem spelled_name (text : String) : (name text).spelled = [text] := rfl

@[simp] theorem spelled_block (body : Block Stmt) : (part (.block body)).spelled = body.names := rfl

@[simp] theorem spelled_names (texts : List String) : (names texts).flatMap spelled = texts := by
  induction texts with
  | nil => rfl
  | cons text texts ih => exact congrArg (List.cons text) ih

theorem spelled_map {α : Type} (f : α → Node) (values : List α) :
    (parts (values.map f)).flatMap spelled = values.flatMap fun value => (f value).names := by
  simp only [parts, flatMap_map]
  rfl

@[simp] theorem spelled_exprs (values : List Expr) : (exprs values).flatMap spelled = values.flatMap Expr.names :=
  spelled_map .expr values

@[simp] theorem spelled_nodes (values : List Expr) :
    (parts (Node.exprs values)).flatMap spelled = values.flatMap Expr.names :=
  spelled_map .expr values

@[simp] theorem spelled_stmts (statements : List Stmt) :
    (parts (statements.map .stmt)).flatMap spelled = statements.flatMap Stmt.names :=
  spelled_map .stmt statements

@[simp] theorem spelled_blocks (bodies : List (Block Stmt)) :
    (parts (bodies.map .block)).flatMap spelled = bodies.flatMap Block.names :=
  spelled_map .block bodies

@[simp] theorem parts_nil : parts [] = [] := rfl

@[simp] theorem parts_append (first second : List Node) : parts (first ++ second) = parts first ++ parts second :=
  map_append

@[simp] theorem spelled_cons_expr (value : Expr) (rest : List Node) :
    (parts (.expr value :: rest)).flatMap spelled = value.names ++ (parts rest).flatMap spelled := rfl

@[simp] theorem spelled_cons_block (body : Block Stmt) (rest : List Node) :
    (parts (.block body :: rest)).flatMap spelled = body.names ++ (parts rest).flatMap spelled := rfl

theorem spelled_flatMap {α : Type} {entries : α → List Entry} {names : α → List String}
    (each : ∀ value, (entries value).flatMap spelled = names value) (values : List α) :
    (values.flatMap entries).flatMap spelled = values.flatMap names := by
  rw [flatMap_assoc]
  exact congrArg values.flatMap (funext each)

@[simp] theorem spelled_args (args : List (Argument Expr)) :
    (args.flatMap Argument.entries).flatMap spelled = args.flatMap Argument.names :=
  spelled_flatMap (fun arg => by simp [Argument.entries, Argument.names]) args

@[simp] theorem spelled_params (params : List (Param Expr)) :
    (params.flatMap Param.entries).flatMap spelled = params.flatMap Param.names :=
  spelled_flatMap (fun param => by simp [Param.entries, Param.names]) params

@[simp] theorem spelled_handlers (handlers : List (Handler Stmt)) :
    (handlers.flatMap Handler.entries).flatMap spelled = handlers.flatMap Handler.names :=
  spelled_flatMap (fun handler => by simp [Handler.entries, Handler.names]) handlers

end Node.Entry

theorem Block.names_eq (body : Block Stmt) : body.names = body.statements.flatMap Stmt.names :=
  (Node.names_eq _).trans (Node.Entry.spelled_stmts body.statements)

theorem Program.names_mk (file : String) (statements : List Stmt) :
    names ⟨file, statements⟩ = statements.flatMap Stmt.names :=
  (Node.names_eq _).trans (Node.Entry.spelled_stmts statements)

end SourceAudit
