import SourceAudit.Syntax.Node

namespace SourceAudit

def Call.isFormat (call : Call) : Bool := call.methodName == some "format"

theorem Expr.sizeOf_function {expr function : Expr} {args : List (Argument Expr)}
    (shape : expr.shape = .call function args) : sizeOf function < sizeOf expr :=
  sizeOf_child (by simp [children, shape, Shape.children])

theorem Expr.sizeOf_argument {expr function : Expr} {args : List (Argument Expr)}
    {arg : Argument Expr} (shape : expr.shape = .call function args) (member : arg ∈ args) :
    sizeOf arg.value < sizeOf expr := by
  refine sizeOf_child ?_
  simp only [children, shape, Shape.children]
  exact List.mem_cons_of_mem _ (List.mem_map_of_mem member)

theorem Expr.sizeOf_receiver {expr function value : Expr} {args : List (Argument Expr)}
    {name : String} (shape : expr.shape = .call function args)
    (method : function.shape = .attribute value name) : sizeOf value < sizeOf expr :=
  Nat.lt_trans (sizeOf_child (by simp [children, method, Shape.children])) (sizeOf_function shape)

theorem Expr.sizeOf_part {expr inner : Expr} {parts : List (FormattedPart Expr)}
    (shape : expr.shape = .formatted parts) (member : .value inner ∈ parts) :
    sizeOf inner < sizeOf expr := by
  refine sizeOf_child ?_
  simp only [children, shape, Shape.children, List.mem_flatMap]
  exact ⟨_, member, by simp [FormattedPart.children]⟩

/-- The values that plain names were last assigned in a scope. Earlier bindings are put in place of
    names inside a value. An assignment waits until the next statement is reached. -/
structure Bindings where
  values : List (String × Expr)
  pending : Option Assignment

namespace Bindings

def empty : Bindings := ⟨[], none⟩

def lookup (bindings : Bindings) (name : String) : Option Expr := bindings.values.lookup name

def insert (bindings : Bindings) (name : String) (value : Expr) : Bindings :=
  { bindings with values := (name, value) :: bindings.values.filter (·.1 != name) }

def erase (bindings : Bindings) (name : String) : Bindings :=
  { bindings with values := bindings.values.filter (·.1 != name) }

def forget (target : Expr) (bindings : Bindings) : Bindings :=
  match _shape : target.shape with
  | .identifier name => bindings.erase name
  | .tuple items | .list items =>
    items.attach.foldl (fun known ⟨item, _⟩ => forget item known) bindings
  | .starred inner => forget inner bindings
  | _ => bindings
termination_by sizeOf target
decreasing_by
  all_goals exact Expr.sizeOf_child (by simp_all [Expr.children, Expr.Shape.children])

/-- An expression with bound names replaced by their values, inside of what builds a string. -/
def resolve (bindings : Bindings) (expr : Expr) : Expr :=
  match _shape : expr.shape with
  | .identifier name => (bindings.lookup name).getD expr
  | .binary op left right =>
    ⟨expr.line, .binary op (resolve bindings left) (resolve bindings right)⟩
  | .formatted parts =>
    ⟨expr.line, .formatted (parts.attach.map fun
      | ⟨.value inner, _⟩ => .value (resolve bindings inner)
      | ⟨.literal text, _⟩ => .literal text)⟩
  | .call function args =>
    if (Call.mk function args).isFormat then
      let receiver : Expr :=
        match _method : function.shape with
        | .attribute value name => ⟨function.line, .attribute (resolve bindings value) name⟩
        | _ => function
      ⟨expr.line, .call receiver (args.attach.map fun ⟨arg, _⟩ =>
        { arg with value := resolve bindings arg.value })⟩
    else expr
  | _ => expr
termination_by sizeOf expr
decreasing_by
  · exact Expr.sizeOf_child (by simp [Expr.children, _shape, Expr.Shape.children])
  · exact Expr.sizeOf_child (by simp [Expr.children, _shape, Expr.Shape.children])
  · exact Expr.sizeOf_part _shape ‹_›
  · exact Expr.sizeOf_receiver _shape _method
  · exact Expr.sizeOf_argument _shape ‹_›

def nodeLimit : Nat := 256

/-- What is left of a budget after the nodes of an expression that build a string, if it is enough
    for them. -/
def spend (expr : Expr) (budget : Nat) : Option Nat :=
  if budget = 0 then none
  else
    match _shape : expr.shape with
    | .binary _ left right => (spend left (budget - 1)).bind (spend right)
    | .formatted parts =>
      parts.attach.foldlM (fun left part =>
        match part with
        | ⟨.value inner, _⟩ => spend inner left
        | ⟨.literal _, _⟩ => some left) (budget - 1)
    | .call function args =>
      if (Call.mk function args).isFormat then
        let receiver :=
          match _method : function.shape with
          | .attribute value _ => spend value (budget - 1)
          | _ => some (budget - 1)
        receiver.bind fun rest =>
          args.attach.foldlM (fun left ⟨arg, _⟩ => spend arg.value left) rest
      else some (budget - 1)
    | _ => some (budget - 1)
termination_by sizeOf expr
decreasing_by
  · exact Expr.sizeOf_child (by simp [Expr.children, _shape, Expr.Shape.children])
  · exact Expr.sizeOf_child (by simp [Expr.children, _shape, Expr.Shape.children])
  · exact Expr.sizeOf_part _shape ‹_›
  · exact Expr.sizeOf_receiver _shape _method
  · exact Expr.sizeOf_argument _shape ‹_›

def isSmall (expr : Expr) : Bool := (spend expr nodeLimit).isSome

def assigned? (bindings : Bindings) (assignment : Assignment) (name : String) (value : Expr) :
    Option Expr :=
  match assignment.augmented with
  | none => some (bindings.resolve value)
  | some op => (bindings.lookup name).map fun previous =>
    ⟨value.line, .binary op previous (bindings.resolve value)⟩

/-- Binds one target. A value with too many nodes is kept as the bare name. -/
def bindTarget (assignment : Assignment) (value : Expr) (bindings : Bindings) (target : Expr) :
    Bindings :=
  match target.shape with
  | .identifier name =>
    match bindings.assigned? assignment name value with
    | some resolved => bindings.insert name (if isSmall resolved then resolved else target)
    | none => bindings
  | _ => bindings.forget target

def observe (bindings : Bindings) (assignment : Assignment) : Bindings :=
  match assignment.value with
  | some value => assignment.targets.foldl (bindTarget assignment value) bindings
  | none => bindings

def settle (bindings : Bindings) : Bindings :=
  match bindings.pending with
  | some assignment => { bindings with pending := none }.observe assignment
  | none => bindings

def step (bindings : Bindings) (node : Node) : Bindings :=
  match node with
  | .stmt stmt =>
    match stmt.shape with
    | .assign assignment => { bindings.settle with pending := some assignment }
    | .forLoop _ target _ _ _ => bindings.settle.forget target
    | _ => bindings.settle
  | _ => bindings

/-- Each node with the bindings that hold when it is reached. -/
def scanFrom (bindings : Bindings) : List Node → List (Node × Bindings)
  | [] => []
  | node :: rest => (node, bindings.step node) :: scanFrom (bindings.step node) rest

def scan (scope : Scope) : List (Node × Bindings) := empty.scanFrom scope.nodes

end Bindings
end SourceAudit
