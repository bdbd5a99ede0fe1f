import Mathlib.Data.List.Basic
import SourceAudit.Syntax.Node

open List

namespace SourceAudit

namespace Expr

/-- What may be assigned to: names, attributes, subscripts, and tuples, lists and starred forms of these. -/
inductive Assignable : Expr → Prop where
  | identifier (line : Nat) (name : String) : Assignable ⟨line, .identifier name⟩
  | attribute (line : Nat) (value : Expr) (name : String) : Assignable ⟨line, .attribute value name⟩
  | subscript (line : Nat) (value index : Expr) : Assignable ⟨line, .subscript value index⟩
  | tuple (line : Nat) {items : List Expr} (each : ∀ item ∈ items, Assignable item) :
      Assignable ⟨line, .tuple items⟩
  | list (line : Nat) {items : List Expr} (each : ∀ item ∈ items, Assignable item) :
      Assignable ⟨line, .list items⟩
  | starred (line : Nat) {value : Expr} (inner : Assignable value) : Assignable ⟨line, .starred value⟩

def IsSlice (expr : Expr) : Prop := expr.shape.kind = .slice

/-- A slice, or a tuple with a slice among its items. -/
def HoldsSlice (expr : Expr) : Prop :=
  expr.IsSlice ∨ expr.shape.kind = .tuple ∧ ∃ item ∈ expr.children, item.IsSlice

end Expr

/-- Only a normal parameter has a default value. -/
def Param.IsWellShaped {ε : Type} (param : Param ε) : Prop := param.kind ≠ .normal → param.fallback = none

/-- Parts of a formatted string that may stand next to each other: not two literals. -/
def FormattedPart.Apart {ε : Type} : FormattedPart ε → FormattedPart ε → Prop
  | .literal _, .literal _ => False
  | _, _ => True

def Expr.Shape.IsWellShaped {ε : Type} : Expr.Shape ε → Prop
  | .set items => items ≠ []
  | .lambda params _ => ∀ param ∈ params, param.IsWellShaped ∧ param.hint.isNone
  | .listComp _ generators | .setComp _ generators | .generatorExp _ generators
  | .dictComp _ _ generators => generators ≠ []
  | .formatted parts => parts.IsChain FormattedPart.Apart
  | _ => True

/-- An assignment is a chain of targets with a value, or has one target and an operator or a type hint. Only with
    a hint the value may be left out. -/
@[mk_iff] structure Assignment.IsWellShaped (assignment : Assignment) : Prop where
  some : assignment.targets ≠ []
  assignable : ∀ target ∈ assignment.targets, target.Assignable
  single : assignment.augmented.isSome ∨ assignment.hint.isSome → assignment.targets.length = 1
  apart : assignment.augmented = none ∨ assignment.hint = none
  valued : assignment.value = none → assignment.hint.isSome

def Stmt.IsBlock (stmt : Stmt) : Prop := stmt.shape.kind = .block

def Stmt.Shape.IsWellShaped : Stmt.Shape Stmt → Prop
  | .assign assignment => assignment.IsWellShaped
  | .ifElse _ _ alternate => ∀ other ∈ alternate, other.shape.kind = .ifElse ∨ other.IsBlock
  | .forLoop _ target _ _ _ => target.Assignable
  | .functionDef definition => ∀ param ∈ definition.params, param.IsWellShaped
  | .importNames names => names ≠ []
  | .tryExcept _ handlers _ last => handlers ≠ [] ∨ last.isSome
  | .block body => ∀ statement ∈ body.statements, ¬ statement.IsBlock
  | .withItems _ items _ => ∀ item ∈ items, ∀ target ∈ item.target, target.Assignable
  | .raise exception cause => cause.isSome → exception.isSome
  | .global _ names => names ≠ []
  | _ => True

namespace Node

/-- The rules of the node on its own, and which statements may stand below it. -/
def IsWellShaped : Node → Prop
  | program value => ∀ statement ∈ value.statements, ¬ statement.IsBlock
  | stmt value => value.shape.IsWellShaped
  | block value => ∀ statement ∈ value.statements, ¬ statement.IsBlock
  | expr value => value.shape.IsWellShaped

/-- Below a subscript there may be a slice or a tuple with slices, but only as the index; below a tuple there may be
    slices, so that no tuple inside it holds one; below every other node there is neither. -/
def PlacesSlices : Node → Prop
  | expr ⟨_, .subscript value _⟩ => ¬ value.HoldsSlice
  | expr ⟨_, .tuple items⟩ => ∀ item ∈ items, item.HoldsSlice → item.IsSlice
  | node => ∀ value, expr value ∈ node.children → ¬ value.HoldsSlice

/-- The rules hold at the node and at all nodes below it. -/
inductive Sound : Node → Prop where
  | intro {node : Node} (rules : node.IsWellShaped) (slices : node.PlacesSlices)
      (below : ∀ child ∈ node.children, Sound child) : Sound node

theorem sound_iff {node : Node} :
    node.Sound ↔ node.IsWellShaped ∧ node.PlacesSlices ∧ ∀ child ∈ node.children, child.Sound := by
  constructor
  · rintro ⟨rules, slices, below⟩
    exact ⟨rules, slices, below⟩
  · rintro ⟨rules, slices, below⟩
    exact .intro rules slices below

theorem Sound.visit {roots : List Node} (sound : ∀ root ∈ roots, root.Sound) :
    ∀ node ∈ visit true roots, node.IsWellShaped ∧ node.PlacesSlices := by
  fun_induction Node.visit true roots with
  | case1 => simp
  | case2 first rest ih =>
    obtain ⟨rules, slices, below⟩ := sound first mem_cons_self
    have others : ∀ root ∈ rest, root.Sound := fun root member => sound root (mem_cons_of_mem _ member)
    have onward := ih (forall_mem_append.mpr ⟨below, others⟩)
    exact forall_mem_cons.mpr ⟨⟨rules, slices⟩, onward⟩

end Node

/-- All nodes of the program keep the rules. -/
def Program.IsWellShaped (program : Program) : Prop :=
  ∀ node ∈ program.nodes, node.IsWellShaped ∧ node.PlacesSlices

theorem forall_flatMap {α β : Type} {p : β → Prop} {f : α → List β} {values : List α} :
    (values.flatMap f).Forall p ↔ values.Forall fun value => (f value).Forall p := by
  induction values with
  | nil => simp
  | cons value values ih => simp [ih]

theorem forall_list_true {α : Type} (values : List α) : values.Forall fun _ => True := by
  simp [forall_iff_forall_mem]

theorem forall_list_and {α : Type} {p q : α → Prop} {values : List α} :
    (values.Forall fun value => p value ∧ q value) ↔ values.Forall p ∧ values.Forall q := by
  simp only [forall_iff_forall_mem, forall_and]

namespace Expr

/-- A sound expression that is no slice and no tuple with slices. -/
def Whole (value : Expr) : Prop := ¬ value.HoldsSlice ∧ (Node.expr value).Sound

/-- What may stand in an index: a slice, or a whole expression. -/
def Ranges (value : Expr) : Prop := (value.HoldsSlice → value.IsSlice) ∧ (Node.expr value).Sound

/-- When an expression of the shape is whole. -/
def Shape.Fits : Shape Expr → Prop
  | .slice .. => False
  | .subscript value index => value.Whole ∧ (Node.expr index).Sound
  | shape => shape.children.Forall Whole ∧ shape.IsWellShaped

theorem whole_of_parts {value : Expr} (slices : ¬ value.HoldsSlice ∧ (Node.expr value).PlacesSlices ↔
      ∀ part ∈ value.children, ¬ part.HoldsSlice) :
    value.Whole ↔ value.children.Forall Whole ∧ value.shape.IsWellShaped := by
  have below : (∀ child ∈ (Node.expr value).children, child.Sound) ↔ ∀ part ∈ value.children, (Node.expr part).Sound :=
    forall_mem_map
  have each : value.children.Forall Whole ↔
      (∀ part ∈ value.children, ¬ part.HoldsSlice) ∧ ∀ part ∈ value.children, (Node.expr part).Sound := by
    rw [forall_iff_forall_mem, ← forall₂_and]
    rfl
  rw [Whole, Node.sound_iff, below, each, ← slices]
  exact ⟨fun sound => ⟨⟨⟨sound.1, sound.2.2.1⟩, sound.2.2.2⟩, sound.2.1⟩,
    fun sound => ⟨sound.1.1.1, sound.2, sound.1.1.2, sound.1.2⟩⟩

@[simp] theorem whole_mk (line : Nat) (shape : Shape Expr) : Whole ⟨line, shape⟩ ↔ shape.Fits := by
  cases shape with
  | slice lower upper step => simp [Whole, HoldsSlice, IsSlice, Shape.kind, Shape.Fits]
  | subscript value index =>
    rw [Whole, Node.sound_iff]
    simp [HoldsSlice, IsSlice, Shape.kind, Shape.Fits, Whole, Node.IsWellShaped, Shape.IsWellShaped, Node.PlacesSlices,
      Node.children, Node.parts, Node.exprs, children, Shape.children]
    tauto
  | tuple items =>
    refine whole_of_parts ⟨?_, ?_⟩
    · rintro ⟨none, places⟩ item member holds
      exact none (.inr ⟨rfl, item, member, places item member holds⟩)
    · intro none
      refine ⟨?_, fun item member holds => absurd holds (none item member)⟩
      rintro (slice | ⟨_, item, member, slice⟩)
      · cases slice
      · exact none item member (.inl slice)
  | _ =>
    refine whole_of_parts ?_
    simp [HoldsSlice, IsSlice, Shape.kind, Node.PlacesSlices, Node.children, Node.parts, Node.exprs, children]

theorem Whole.ranges {value : Expr} (whole : value.Whole) : value.Ranges :=
  ⟨fun holds => absurd holds whole.1, whole.2⟩

@[simp] theorem ranges_slice (line : Nat) (lower upper step : Option Expr) :
    Ranges ⟨line, .slice lower upper step⟩ ↔ (lower.toList ++ upper.toList ++ step.toList).Forall Whole := by
  have slice : IsSlice ⟨line, .slice lower upper step⟩ := rfl
  rw [Ranges, Node.sound_iff, forall_iff_forall_mem]
  simp only [slice, implies_true, true_and, Node.IsWellShaped, Shape.IsWellShaped, Node.PlacesSlices, Node.children,
    Node.parts, Node.exprs, children, Shape.children, forall_mem_map, Whole, forall₂_and]
  simp

theorem sound_tuple {line : Nat} {items : List Expr} (each : items.Forall Ranges) :
    (Node.expr ⟨line, .tuple items⟩).Sound := by
  rw [forall_iff_forall_mem] at each
  refine .intro trivial (fun item member => (each item member).1) (forall_mem_map.mpr fun item member => ?_)
  exact (each item member).2

end Expr

def Node.Whole : Node → Prop
  | expr value => value.Whole
  | node => node.Sound

@[simp] theorem Node.forall_exprs (values : List Expr) : (exprs values).Forall Whole ↔ values.Forall Expr.Whole :=
  forall_map_iff _

namespace Stmt

/-- A sound statement that may stand in a block. -/
def Whole (statement : Stmt) : Prop := (Node.stmt statement).Sound ∧ ¬ statement.IsBlock

/-- A sound statement that may come after the body of a condition. -/
def Alternate (statement : Stmt) : Prop :=
  (Node.stmt statement).Sound ∧ (statement.shape.kind = .ifElse ∨ statement.IsBlock)

theorem sound_iff {statement : Stmt} : (Node.stmt statement).Sound ↔
    (Node.ofStmt true statement.shape).Forall Node.Whole ∧ statement.shape.IsWellShaped := by
  have slices : (Node.stmt statement).PlacesSlices ↔
      ∀ value, .expr value ∈ Node.ofStmt true statement.shape → ¬ value.HoldsSlice := Iff.rfl
  rw [Node.sound_iff, forall_iff_forall_mem, slices]
  refine ⟨fun sound => ⟨fun node member => ?_, sound.1⟩, fun sound => ⟨sound.2, fun value member => ?_, fun node member => ?_⟩⟩
  · cases node with
    | expr value => exact ⟨sound.2.1 value member, sound.2.2 _ member⟩
    | _ => exact sound.2.2 _ member
  · exact (sound.1 _ member).1
  · have whole := sound.1 node member
    cases node with
    | expr value => exact whole.2
    | _ => exact whole

end Stmt

theorem Block.sound_iff {body : Block Stmt} : (Node.block body).Sound ↔ body.statements.Forall Stmt.Whole := by
  have slices : (Node.block body).PlacesSlices ↔ ∀ value, .expr value ∈ body.statements.map Node.stmt → ¬ value.HoldsSlice :=
    Iff.rfl
  have below : (∀ child ∈ (Node.block body).children, child.Sound) ↔ ∀ statement ∈ body.statements, (Node.stmt statement).Sound :=
    forall_mem_map
  rw [Node.sound_iff, slices, below, forall_iff_forall_mem]
  simp only [Node.IsWellShaped, Stmt.Whole, forall₂_and, mem_map, reduceCtorEq, and_false, exists_false]
  tauto

end SourceAudit
