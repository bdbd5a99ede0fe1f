import Mathlib.Dynamics.FixedPoints.Basic
import SourceAudit.Syntax.Node

open List

namespace SourceAudit

namespace Node

theorem visit_append (entering : Bool) (first second : List Node) :
    visit entering (first ++ second) = visit entering first ++ visit entering second := by
  fun_induction visit entering first with
  | case1 => rfl
  | case2 node rest ih =>
    rw [cons_append, visit, ← append_assoc, ih]
    rfl

theorem visit_cons (entering : Bool) (node : Node) (rest : List Node) :
    visit entering (node :: rest) =
      node :: (visit entering (node.parts entering) ++ visit entering rest) := by
  rw [visit, visit_append]

theorem visit_after {entering : Bool} {roots front rest : List Node} {node : Node}
    (here : visit entering roots = front ++ node :: rest) :
    ∃ later, rest = visit entering (node.parts entering) ++ later := by
  fun_induction visit entering roots generalizing front with
  | case1 => simp at here
  | case2 first others ih =>
    cases front with
    | nil =>
      cases here
      exact ⟨visit entering others, visit_append entering _ _⟩
    | cons skipped before =>
      simp only [cons_append, List.cons.injEq] at here
      exact ih here.2

theorem walk_eq_cons (node : Node) : node.walk = node :: visit true (node.parts true) := by
  rw [walk, visit, append_nil]

theorem walk_sublist {roots : List Node} {node : Node} (member : node ∈ visit true roots) :
    node.walk.Sublist (visit true roots) := by
  obtain ⟨front, rest, here⟩ := append_of_mem member
  obtain ⟨later, below⟩ := visit_after here
  rw [here, below, walk_eq_cons]
  exact ((sublist_append_left _ later).cons_cons node).trans (sublist_append_right front _)

theorem visit_exprs (entering : Bool) (values : List Expr) :
    ∀ node ∈ visit entering (exprs values), ∃ value, node = .expr value := by
  generalize roots : exprs values = nodes
  fun_induction visit entering nodes generalizing values with
  | case1 => simp
  | case2 node rest ih =>
    cases values with
    | nil => cases roots
    | cons first others =>
      cases roots
      have below : exprs (first.children ++ others) = (Node.expr first).parts entering ++ exprs others := by
        simp [exprs, parts]
      intro inside member
      rcases mem_cons.mp member with rfl | member
      · exact ⟨first, rfl⟩
      · exact ih _ below inside member

/-- A node and then, part by part, all that is below it. -/
def preorder (entering : Bool) (node : Node) : List Node :=
  node :: (node.parts entering).attach.flatMap fun part => preorder entering part.1
termination_by node.weight
decreasing_by
  have below := weight_le_weights part.2
  have whole := weights_parts entering node
  omega

/-- One turn of a loop that keeps the nodes still to be visited on a stack: its last node is taken off, and the parts of
    that node are put on in reverse. -/
def turn (entering : Bool) (stack : List Node) : List Node :=
  match stack.getLast? with
  | some node => stack.dropLast ++ (node.parts entering).reverse
  | none => []

theorem preorder_eq (entering : Bool) (node : Node) :
    node.preorder entering = node :: (node.parts entering).flatMap (preorder entering) := by
  rw [preorder]
  congr 1
  calc
    _ = ((node.parts entering).attach.map Subtype.val).flatMap (preorder entering) := (flatMap_map ..).symm
    _ = (node.parts entering).flatMap (preorder entering) := by rw [attach_map_subtype_val]

theorem visit_eq_preorder (entering : Bool) (roots : List Node) :
    visit entering roots = roots.flatMap (preorder entering) := by
  fun_induction visit entering roots with
  | case1 => rfl
  | case2 node rest ih => rw [ih, flatMap_append, flatMap_cons, preorder_eq, cons_append]

theorem firstIn_eq_find? (kind : Kind) (roots : List Node) :
    firstIn kind roots = (visit true roots).find? (·.kind = kind) := by
  fun_induction firstIn kind roots with
  | case1 => rw [visit]; rfl
  | case2 node rest found => rw [visit, List.find?_cons_of_pos (by simpa using found)]
  | case3 node rest other ih =>
    rw [visit, List.find?_cons_of_neg (by simpa using other), ih]
    rfl

theorem turn_reverse (entering : Bool) (node : Node) (rest : List Node) :
    turn entering (node :: rest).reverse = (node.parts entering ++ rest).reverse := by
  simp [turn]

theorem top_iterate_turn (entering : Bool) (roots : List Node) (turns : Nat) :
    ((turn entering)^[turns] roots.reverse).getLast? = (visit entering roots)[turns]? := by
  fun_induction visit entering roots generalizing turns with
  | case1 =>
    have idle : Function.IsFixedPt (turn entering) [] := rfl
    rw [reverse_nil, idle.iterate turns]
    rfl
  | case2 node rest ih =>
    cases turns with
    | zero => simp
    | succ turns => rw [Function.iterate_succ_apply, turn_reverse, ih, List.getElem?_cons_succ]

/-- The loop over the stack has the nodes of the recursive list on top, one at each turn in their order, and its stack is
    empty after the last of them. Both ways to look for a kind go by this list. -/
theorem traversals_agree (node : Node) (scope : Scope) (kind : Kind) :
    node.walk = node.preorder true ∧
      scope.nodes = (scope.statements.map .stmt).flatMap (preorder false) ∧
      (∀ (entering : Bool) (roots : List Node) (turns : Nat),
        ((turn entering)^[turns] roots.reverse).getLast? = (roots.flatMap (preorder entering))[turns]?) ∧
      (∀ (entering : Bool) (roots : List Node),
        (turn entering)^[(roots.flatMap (preorder entering)).length] roots.reverse = []) ∧
      node.findAll kind = (node.preorder true).filter (·.kind = kind) ∧
      node.findFirst kind = (node.findAll kind).head? ∧
      (node.findFirst kind = none ↔ node.findAll kind = []) := by
  have walk : node.walk = node.preorder true := by rw [Node.walk, visit_eq_preorder, flatMap_singleton]
  have first : node.findFirst kind = (node.findAll kind).head? := by
    rw [findFirst, firstIn_eq_find?, findAll, List.head?_filter]
    rfl
  have tops (entering : Bool) (roots : List Node) (turns : Nat) :
      ((turn entering)^[turns] roots.reverse).getLast? = (roots.flatMap (preorder entering))[turns]? := by
    rw [top_iterate_turn, visit_eq_preorder]
  refine ⟨walk, visit_eq_preorder false _, tops, fun entering roots => ?_, by rw [findAll, walk], first, ?_⟩
  · have top := tops entering roots (roots.flatMap (preorder entering)).length
    rw [List.getElem?_eq_none (Nat.le_refl _)] at top
    exact List.getLast?_eq_none_iff.mp top
  · rw [first, List.head?_eq_none_iff]

end Node

end SourceAudit
