import Mathlib.Algebra.Order.Group.Multiset
import Mathlib.Data.List.Nodup
import Mathlib.Tactic.Abel
import SourceAudit.Proofs.Syntax.Traversal

open List

namespace SourceAudit

/-- The block that stands below a function and in no scope. -/
def Node.functionBody? : Node → Option Node
  | .stmt ⟨_, .functionDef definition⟩ => some (.block definition.body)
  | _ => none

def Program.scopeNodes (program : Program) : List Node := program.scopes.flatMap Scope.nodes

namespace Node

theorem parts_of_not_function {node : Node} (plain : Scope.ofFunction? node = none) :
    node.functionBody? = none ∧ node.parts true = node.parts false := by
  rcases node with program | ⟨line, shape⟩ | block | value
  case stmt => cases shape <;> first | exact ⟨rfl, rfl⟩ | cases plain
  all_goals exact ⟨rfl, rfl⟩

theorem function_of_scope {node : Node} {scope : Scope} (opens : Scope.ofFunction? node = some scope) :
    ∃ line definition, node = .stmt ⟨line, .functionDef definition⟩ ∧
      scope = ⟨some definition, definition.body.statements⟩ := by
  rcases node with program | ⟨line, shape⟩ | block | value
  case stmt =>
    cases shape <;> cases opens
    exact ⟨line, _, rfl, rfl⟩
  all_goals cases opens

theorem visit_perm_scopes (nodes : List Node) :
    (visit true nodes).Perm (visit false nodes ++
      ((visit true nodes).filterMap functionBody? ++
        ((visit true nodes).filterMap Scope.ofFunction?).flatMap Scope.nodes)) := by
  fun_induction visit true nodes with
  | case1 => simp [visit]
  | case2 node rest ih =>
    cases opens : Scope.ofFunction? node with
    | none =>
      obtain ⟨bodiless, same⟩ := parts_of_not_function opens
      rw [visit, ← same, filterMap_cons_none bodiless, filterMap_cons_none opens]
      exact ih.cons node
    | some scope =>
      obtain ⟨line, definition, rfl, rfl⟩ := function_of_scope opens
      -- The walk goes through the body here, and the scope opened here goes through it there.
      have inside : visit false (parts true (.stmt ⟨line, .functionDef definition⟩) ++ rest) =
          visit false (exprs definition.header) ++ .block definition.body ::
            (visit false (definition.body.statements.map stmt) ++ visit false rest) := by
        simp [parts, ofStmt, visit_append, visit_cons]
      have outside : visit false (.stmt ⟨line, .functionDef definition⟩ :: rest) =
          .stmt ⟨line, .functionDef definition⟩ ::
            (visit false (exprs definition.header) ++ visit false rest) := by
        simp [visit_cons, parts, ofStmt]
      rw [inside] at ih
      have body : functionBody? (.stmt ⟨line, .functionDef definition⟩) = some (.block definition.body) :=
        rfl
      rw [outside, filterMap_cons_some body, filterMap_cons_some opens, flatMap_cons]
      refine (ih.cons _).trans ?_
      rw [← Multiset.coe_eq_coe]
      simp only [cons_append, append_assoc, ← Multiset.cons_coe, ← Multiset.coe_add,
        ← Multiset.singleton_add, Scope.nodes]
      abel

end Node

namespace Program

theorem nodes_perm (program : Program) :
    program.nodes.Perm
      (.program program :: (program.nodes.filterMap Node.functionBody? ++ program.scopeNodes)) := by
  have below := Node.visit_perm_scopes (program.statements.map .stmt)
  have walked : program.nodes = .program program :: Node.visit true (program.statements.map .stmt) := by
    simp [nodes, Node.walk, Node.visit_cons, Node.parts, Node.visit]
  have shared : program.scopeNodes = Node.visit false (program.statements.map .stmt) ++
      (program.nodes.filterMap Scope.ofFunction?).flatMap Scope.nodes := rfl
  rw [shared, walked, filterMap_cons_none rfl, filterMap_cons_none rfl]
  refine (below.trans ?_).cons _
  rw [← append_assoc, ← append_assoc]
  exact perm_append_comm.append_right _

theorem filterMap_scopeNodes {α : Type} (program : Program) (select : Node → Option α)
    (whole : select (.program program) = none) (bodies : ∀ body, select (.block body) = none) :
    (program.scopeNodes.filterMap select).Perm (program.nodes.filterMap select) := by
  have missed : ((program.nodes.filterMap Node.functionBody?).filterMap select) = [] := by
    rw [filterMap_filterMap, filterMap_eq_nil_iff]
    intro node _
    rcases node with program | ⟨line, shape⟩ | block | value
    case stmt => cases shape <;> first | rfl | exact bodies _
    all_goals rfl
  have all := (nodes_perm program).filterMap select
  rw [filterMap_cons_none whole, filterMap_append, missed] at all
  exact all.symm

/-- The scopes of a program divide its nodes: together they hold all of them except the program
    itself and the body block of each function, and they hold each one once. The walk tells where
    a node stands by its value alone, so this is a statement about how often a value occurs, and
    in a program whose nodes all differ about the nodes themselves. -/
theorem scopes_partition (program : Program) :
    program.nodes.Perm
        (.program program :: (program.nodes.filterMap Node.functionBody? ++ program.scopeNodes)) ∧
      (program.scopeNodes.filterMap Node.stmt?).Perm (program.nodes.filterMap Node.stmt?) ∧
      (program.scopeNodes.filterMap Node.expr?).Perm (program.nodes.filterMap Node.expr?) ∧
      (program.nodes.Nodup → program.scopeNodes.Nodup ∧
        ∀ node, node ∈ program.scopeNodes ↔ node ∈ program.nodes ∧ node ≠ .program program ∧
          node ∉ program.nodes.filterMap Node.functionBody?) := by
  have shared := nodes_perm program
  refine ⟨shared, filterMap_scopeNodes program _ rfl fun _ => rfl,
    filterMap_scopeNodes program _ rfl fun _ => rfl, fun distinct => ?_⟩
  have distinct := shared.nodup distinct
  rw [nodup_cons, nodup_append] at distinct
  obtain ⟨alone, _, once, apart⟩ := distinct
  refine ⟨once, fun node => ⟨fun inside => ⟨?_, ?_, ?_⟩, fun ⟨walked, other, bodiless⟩ => ?_⟩⟩
  · exact shared.mem_iff.mpr (by simp [inside])
  · rintro rfl
    exact alone (mem_append_right _ inside)
  · intro body
    exact apart node body node inside rfl
  · have place := shared.mem_iff.mp walked
    simp only [mem_cons, mem_append] at place
    rcases place with whole | body | inside
    · exact absurd whole other
    · exact absurd body bodiless
    · exact inside

def nestedFunctions : Program :=
  let inner : FunctionDef Stmt := ⟨"g", [], none, ⟨5, [⟨6, .pass⟩]⟩, [], false⟩
  let outer : FunctionDef Stmt :=
    ⟨"f", [], none, ⟨3, [⟨4, .functionDef inner⟩, ⟨7, .returnValue (some ⟨8, .identifier "x"⟩)⟩]⟩, [],
      false⟩
  ⟨"", [⟨2, .functionDef outer⟩]⟩

theorem nestedFunctions_partition :
    nestedFunctions.scopeNodes.map Node.line = [2, 4, 7, 8, 6] ∧ nestedFunctions.scopeNodes.Nodup := by
  have walked : nestedFunctions.nodes.map Node.line = [1, 2, 3, 4, 5, 6, 7, 8] := by
    simp [nestedFunctions, nodes, Node.walk, Node.visit, Node.parts, Node.ofStmt, Node.exprs,
      FunctionDef.header, Expr.children, Expr.Shape.children, Node.line]
  have distinct : nestedFunctions.nodes.Nodup := by
    apply List.Nodup.of_map Node.line
    rw [walked]
    decide
  refine ⟨?_, ((scopes_partition nestedFunctions).2.2.2 distinct).1⟩
  simp [nestedFunctions, scopeNodes, scopes, Scope.nodes, Scope.ofFunction?, filterMap_cons,
    Node.walk, Node.visit, Node.parts, Node.ofStmt, Node.exprs, FunctionDef.header, Expr.children, Expr.Shape.children,
    Node.line]

end Program
end SourceAudit
