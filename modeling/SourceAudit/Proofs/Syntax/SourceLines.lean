import SourceAudit.Proofs.Syntax.Traversal

open List

namespace SourceAudit

def Climb : Nat → List Nat → Nat → Prop
  | low, [], high => low ≤ high
  | low, line :: lines, high => low ≤ line ∧ Climb line lines high

@[simp] theorem climb_nil {low high : Nat} : Climb low [] high ↔ low ≤ high := Iff.rfl

@[simp] theorem climb_cons {low line high : Nat} {lines : List Nat} :
    Climb low (line :: lines) high ↔ low ≤ line ∧ Climb line lines high := Iff.rfl

namespace Climb

variable {low middle high line : Nat} {lines more : List Nat}

theorem le (climb : Climb low lines high) : low ≤ high := by
  induction lines generalizing low with
  | nil => exact climb
  | cons line lines ih => exact climb.1.trans (ih climb.2)

theorem lower {below : Nat} (bound : below ≤ low) (climb : Climb low lines high) : Climb below lines high := by
  cases lines with
  | nil => exact bound.trans climb
  | cons line lines => exact ⟨bound.trans climb.1, climb.2⟩

theorem append (first : Climb low lines middle) (second : Climb middle more high) :
    Climb low (lines ++ more) high := by
  induction lines generalizing low with
  | nil => exact second.lower first
  | cons line lines ih => exact ⟨first.1, ih first.2⟩

theorem raise {above : Nat} (climb : Climb low lines high) (bound : high ≤ above) : Climb low lines above := by
  have longer : Climb low (lines ++ []) above := climb.append bound
  rwa [append_nil] at longer

theorem bounds (climb : Climb low lines high) : ∀ line ∈ lines, low ≤ line ∧ line ≤ high := by
  induction lines generalizing low with
  | nil => simp
  | cons line lines ih =>
    intro other member
    rcases mem_cons.mp member with rfl | member
    · exact ⟨climb.1, climb.2.le⟩
    · have inside := ih climb.2 other member
      exact ⟨climb.1.trans inside.1, inside.2⟩

theorem pairwise (climb : Climb low lines high) : lines.Pairwise (· ≤ ·) := by
  induction lines generalizing low with
  | nil => exact .nil
  | cons line lines ih => exact .cons (fun other member => (climb.2.bounds other member).1) (ih climb.2)

theorem sublist (climb : Climb low lines high) (part : more.Sublist lines) : Climb low more high := by
  induction part generalizing low with
  | slnil => exact climb
  | cons line _ ih => exact (ih climb.2).lower climb.1
  | cons_cons line _ ih => exact ⟨climb.1, ih climb.2⟩

end Climb

namespace Node

def lines (nodes : List Node) : List Nat := (visit true nodes).map line

@[simp] theorem lines_nil : lines [] = [] := by
  rw [lines, visit, map_nil]

theorem lines_cons (node : Node) (rest : List Node) :
    lines (node :: rest) = node.line :: (lines (node.parts true) ++ lines rest) := by
  simp [lines, visit_cons]

@[simp] theorem lines_append (first second : List Node) : lines (first ++ second) = lines first ++ lines second := by
  simp [lines, visit_append]

@[simp] theorem lines_flatMap {α : Type} (f : α → List Node) (values : List α) :
    lines (values.flatMap f) = values.flatMap fun value => lines (f value) := by
  induction values with
  | nil => simp
  | cons value rest ih => simp [ih]

end Node

def Expr.lines (values : List Expr) : List Nat := Node.lines (Node.exprs values)

def Stmt.lines (statements : List Stmt) : List Nat := Node.lines (statements.map .stmt)

@[simp] theorem Node.lines_exprs (values : List Expr) : lines (exprs values) = Expr.lines values := rfl

@[simp] theorem Node.lines_stmts (statements : List Stmt) : lines (statements.map stmt) = Stmt.lines statements :=
  rfl

namespace Expr

@[simp] theorem children_mk (line : Nat) (shape : Shape Expr) : children ⟨line, shape⟩ = shape.children := rfl

@[simp] theorem lines_nil : lines [] = [] := Node.lines_nil

@[simp] theorem lines_cons (value : Expr) (rest : List Expr) :
    lines (value :: rest) = value.line :: (lines value.children ++ lines rest) :=
  Node.lines_cons (.expr value) (Node.exprs rest)

@[simp] theorem lines_append (first second : List Expr) : lines (first ++ second) = lines first ++ lines second := by
  rw [lines, Node.exprs, map_append, Node.lines_append]
  rfl

@[simp] theorem lines_flatMap {α : Type} (f : α → List Expr) (values : List α) :
    lines (values.flatMap f) = values.flatMap fun value => lines (f value) := by
  induction values with
  | nil => simp
  | cons value rest ih => simp [ih]

@[simp] theorem lines_map {α : Type} (f : α → Expr) (values : List α) :
    lines (values.map f) = values.flatMap fun value => (f value).line :: lines (f value).children := by
  induction values with
  | nil => simp
  | cons value rest ih => simp [ih]

@[simp] theorem flatMap_lines (values : List Expr) :
    (values.flatMap fun value => value.line :: lines value.children) = lines values := by
  induction values with
  | nil => simp
  | cons value rest ih => simp [ih]

def site? : Expr → Option (String × Nat)
  | ⟨line, .identifier name⟩ => some (name, line)
  | _ => none

@[simp] theorem site?_identifier (line : Nat) (name : String) : site? ⟨line, .identifier name⟩ = some (name, line) :=
  rfl

@[simp] theorem site?_of_other {line : Nat} {shape : Shape Expr} (other : ∀ name, shape ≠ .identifier name) :
    site? ⟨line, shape⟩ = none := by
  cases shape with
  | identifier name => exact absurd rfl (other name)
  | _ => rfl

def sites (values : List Expr) : List (String × Nat) :=
  (Node.visit true (Node.exprs values)).filterMap fun
    | .expr value => value.site?
    | _ => none

@[simp] theorem sites_nil : sites [] = [] := by
  rw [sites, Node.exprs, map_nil, Node.visit, filterMap_nil]

@[simp] theorem sites_append (first second : List Expr) : sites (first ++ second) = sites first ++ sites second := by
  simp [sites, Node.exprs, Node.visit_append]

@[simp] theorem sites_cons (value : Expr) (rest : List Expr) :
    sites (value :: rest) = value.site?.toList ++ (sites value.children ++ sites rest) := by
  rw [sites, Node.exprs, map_cons, Node.visit_cons, filterMap_cons, filterMap_append]
  cases own : value.site? <;> simp [own, sites, Node.parts, Node.exprs]

@[simp] theorem sites_map {α : Type} (f : α → Expr) (values : List α) :
    sites (values.map f) = values.flatMap fun value => (f value).site?.toList ++ sites (f value).children := by
  induction values with
  | nil => simp
  | cons value rest ih => simp [ih]

@[simp] theorem flatMap_sites (values : List Expr) :
    (values.flatMap fun value => value.site?.toList ++ sites value.children) = sites values := by
  induction values with
  | nil => simp
  | cons value rest ih => simp [ih]

@[simp] theorem sites_flatMap {α : Type} (f : α → List Expr) (values : List α) :
    sites (values.flatMap f) = values.flatMap fun value => sites (f value) := by
  induction values with
  | nil => simp
  | cons value rest ih => simp [ih]

end Expr

namespace Stmt

@[simp] theorem lines_nil : lines [] = [] := Node.lines_nil

@[simp] theorem lines_cons (statement : Stmt) (rest : List Stmt) :
    lines (statement :: rest) =
      statement.line :: (Node.lines (Node.ofStmt true statement.shape) ++ lines rest) :=
  Node.lines_cons (.stmt statement) (rest.map .stmt)

@[simp] theorem lines_append (first second : List Stmt) : lines (first ++ second) = lines first ++ lines second := by
  rw [lines, map_append, Node.lines_append]
  rfl

end Stmt

namespace Node

@[simp] theorem lines_expr (value : Expr) (rest : List Node) :
    lines (.expr value :: rest) = value.line :: (Expr.lines value.children ++ lines rest) :=
  lines_cons _ _

@[simp] theorem lines_block (body : Block Stmt) (rest : List Node) :
    lines (.block body :: rest) = body.line :: (Stmt.lines body.statements ++ lines rest) :=
  lines_cons _ _

@[simp] theorem lines_blocks (bodies : List (Block Stmt)) :
    lines (bodies.map block) = bodies.flatMap fun body => body.line :: Stmt.lines body.statements := by
  induction bodies with
  | nil => simp
  | cons body rest ih => simp [ih]

end Node
end SourceAudit
