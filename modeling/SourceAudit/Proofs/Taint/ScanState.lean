import SourceAudit.Proofs.Syntax.Traversal
import SourceAudit.Taint

open List

namespace SourceAudit

namespace Stmt

/-- Whether a statement gives names a value when its head is reached. -/
def BindsNames (stmt : Stmt) : Prop :=
  stmt.shape.kind = .assign ∨ stmt.shape.kind = .forLoop ∨ stmt.shape.kind = .withItems

def headExprs (stmt : Stmt) : List Expr :=
  match stmt.shape with
  | .assign assignment => assignment.children
  | .forLoop _ target iterated _ _ => [target, iterated]
  | .withItems _ items _ => items.flatMap (·.children)
  | _ => []

def headNodes (stmt : Stmt) : List Node := Node.visit false (Node.exprs stmt.headExprs)

theorem parts_of_binds {stmt : Stmt} (binds : stmt.BindsNames) :
    ∃ blocks, (Node.stmt stmt).parts false = Node.exprs stmt.headExprs ++ blocks := by
  rcases stmt with ⟨line, shape⟩
  cases shape with
  | assign assignment => exact ⟨[], by simp [Node.parts, Node.ofStmt, headExprs]⟩
  | forLoop isAsync target iterated body orelse =>
    exact ⟨_, rfl⟩
  | withItems isAsync items body => exact ⟨_, rfl⟩
  | _ => simp [BindsNames, Stmt.Shape.kind] at binds

theorem visit_head {stmt : Stmt} {roots front rest : List Node} (binds : stmt.BindsNames)
    (here : Node.visit false roots = front ++ .stmt stmt :: rest) :
    ∃ back, rest = stmt.headNodes ++ back := by
  obtain ⟨later, rfl⟩ := Node.visit_after here
  obtain ⟨blocks, parts⟩ := parts_of_binds binds
  exact ⟨Node.visit false blocks ++ later, by
    rw [parts, Node.visit_append, append_assoc, headNodes]⟩

end Stmt

/-- The names whose state changes when a target gets a value. -/
def Expr.boundNames (isTainted : Bool) (target : Expr) : List String :=
  match _shape : target.shape with
  | .identifier _ | .attribute _ _ => target.dottedName.toList
  | .tuple items | .list items => items.attach.flatMap fun ⟨item, _⟩ => boundNames isTainted item
  | .starred inner => boundNames isTainted inner
  | .subscript value _ => if isTainted then boundNames true value else []
  | _ => []
termination_by sizeOf target
decreasing_by
  all_goals exact Expr.sizeOf_child (by simp_all [Expr.children, Expr.Shape.children])

theorem Expr.boundNames_items {line : Nat} {shape : Shape Expr} {items : List Expr}
    (isTainted : Bool) (sequence : shape = .tuple items ∨ shape = .list items) :
    boundNames isTainted ⟨line, shape⟩ = items.flatMap (boundNames isTainted) := by
  rcases sequence with rfl | rfl <;> rw [boundNames] <;> simp [List.flatMap]

namespace TaintPolicy

variable (policy : TaintPolicy)

def stateAfter (nodes : List Node) : List String :=
  (nodes.filterMap Node.stmt?).foldl policy.observe []

theorem foldl_observeNode (tainted : List String) (nodes : List Node) :
    nodes.foldl policy.observeNode tainted =
      (nodes.filterMap Node.stmt?).foldl policy.observe tainted := by
  induction nodes generalizing tainted with
  | nil => rfl
  | cons node rest ih =>
    cases node with
    | stmt value => exact ih (policy.observe tainted value)
    | program value | block value | expr value => exact ih tainted

theorem scanFrom_append (tainted : List String) (first second : List Node) :
    policy.scanFrom tainted (first ++ second) =
      policy.scanFrom tainted first ++
        policy.scanFrom (first.foldl policy.observeNode tainted) second := by
  induction first generalizing tainted with
  | nil => rfl
  | cons node rest ih => simp only [cons_append, scanFrom, foldl_cons, ih]

theorem scanFrom_exprs (tainted : List String) {nodes : List Node}
    (exprs : ∀ node ∈ nodes, ∃ value, node = .expr value) :
    policy.scanFrom tainted nodes = nodes.map (·, tainted) ∧
      nodes.foldl policy.observeNode tainted = tainted := by
  induction nodes with
  | nil => exact ⟨rfl, rfl⟩
  | cons node rest ih =>
    obtain ⟨value, rfl⟩ := exprs node (by simp)
    obtain ⟨scanned, folded⟩ := ih fun other member => exprs other (mem_cons_of_mem _ member)
    exact ⟨by simp only [scanFrom, observeNode, scanned, map_cons], folded⟩

theorem mem_mark (isTainted : Bool) (name other : String) (tainted : List String) :
    other ∈ mark isTainted name tainted ↔ if other = name then isTainted = true else other ∈ tainted := by
  cases isTainted <;> by_cases same : other = name <;> simp [mark, same]

theorem mem_foldl_bind {isTainted : Bool} {targets : List Expr} (name : String)
    (each : ∀ target ∈ targets, ∀ tainted, name ∈ bind isTainted target tainted ↔
      if name ∈ target.boundNames isTainted then isTainted = true else name ∈ tainted)
    (tainted : List String) :
    name ∈ bindAll isTainted targets tainted ↔
      if name ∈ targets.flatMap (·.boundNames isTainted) then isTainted = true
      else name ∈ tainted := by
  induction targets generalizing tainted with
  | nil => simp [bindAll]
  | cons target rest ih =>
    have first := each target (by simp) tainted
    have others := ih (fun other member => each other (mem_cons_of_mem _ member))
      (bind isTainted target tainted)
    rw [bindAll, foldl_cons, ← bindAll, others, first, flatMap_cons]
    by_cases bound : name ∈ target.boundNames isTainted <;> simp [bound]

theorem bind_items {line : Nat} {shape : Expr.Shape Expr} {items : List Expr} (isTainted : Bool)
    (tainted : List String) (sequence : shape = .tuple items ∨ shape = .list items) :
    bind isTainted ⟨line, shape⟩ tainted = bindAll isTainted items tainted := by
  rcases sequence with rfl | rfl <;> rw [bind, bindAll] <;>
    exact foldl_attach (f := fun names item => bind isTainted item names)

theorem mem_bind (isTainted : Bool) (target : Expr) (tainted : List String) (name : String) :
    name ∈ bind isTainted target tainted ↔
      if name ∈ target.boundNames isTainted then isTainted = true else name ∈ tainted := by
  induction size : sizeOf target using Nat.strongRecOn generalizing isTainted target tainted with
  | ind size ih =>
    subst size
    have below : ∀ child ∈ target.children, ∀ isTainted tainted,
        name ∈ bind isTainted child tainted ↔
          if name ∈ child.boundNames isTainted then isTainted = true else name ∈ tainted :=
      fun child member isTainted tainted => ih _ (Expr.sizeOf_child member) _ _ _ rfl
    rcases target with ⟨line, shape⟩
    cases shape with
    | identifier written =>
      rw [bind, Expr.boundNames]
      simp [Expr.dottedName, mem_mark]
    | «attribute» value written =>
      rw [bind, Expr.boundNames]
      cases (Expr.mk line (.attribute value written)).dottedName <;> simp [mem_mark]
    | tuple items =>
      rw [bind_items isTainted tainted (.inl rfl), Expr.boundNames_items isTainted (.inl rfl)]
      exact mem_foldl_bind name (fun item member => below item member isTainted) tainted
    | list items =>
      rw [bind_items isTainted tainted (.inr rfl), Expr.boundNames_items isTainted (.inr rfl)]
      exact mem_foldl_bind name (fun item member => below item member isTainted) tainted
    | starred inner =>
      rw [bind, Expr.boundNames]
      exact below inner (by simp [Expr.children, Expr.Shape.children]) isTainted tainted
    | subscript value index =>
      rw [bind, Expr.boundNames]
      cases isTainted with
      | true => exact below value (by simp [Expr.children, Expr.Shape.children]) true tainted
      | false => simp
    | _ =>
      rw [bind, Expr.boundNames]
      simp

/-- The targets of the items of a `with`, each with whether its value is tainted when it is entered. -/
def entered (tainted : List String) : List WithItem → List (Expr × Bool)
  | [] => []
  | item :: rest =>
    match item.target with
    | none => entered tainted rest
    | some target =>
      let state := policy.isTainted tainted item.context
      (target, state) :: entered (bind state target tainted) rest

/-- The targets that get a value in the head of a statement, in order, each with whether that value
    is tainted. -/
def handovers (tainted : List String) (stmt : Stmt) : List (Expr × Bool) :=
  match stmt.shape with
  | .assign assignment =>
    match assignment.value with
    | none => []
    | some value =>
      let state := policy.isTainted tainted value
      if assignment.augmented.isSome && !state then [] else assignment.targets.map (·, state)
  | .forLoop _ target iterated _ _ => [(target, policy.isTainted tainted iterated)]
  | .withItems _ items _ => policy.entered tainted items
  | _ => []

def handOver (tainted : List String) (given : Expr × Bool) : List String :=
  bind given.2 given.1 tainted

def lastGiven (name : String) : List (Expr × Bool) → Option Bool
  | [] => none
  | (target, state) :: rest =>
    (lastGiven name rest).or (if name ∈ target.boundNames state then some state else none)

theorem foldl_entered (tainted : List String) (items : List WithItem) :
    items.foldl policy.enter tainted = (policy.entered tainted items).foldl handOver tainted := by
  induction items generalizing tainted with
  | nil => rfl
  | cons item rest ih =>
    rw [foldl_cons, enter, entered]
    cases item.target with
    | none => exact ih tainted
    | some target => exact ih _

theorem observe_handovers (tainted : List String) (stmt : Stmt) :
    policy.observe tainted stmt = (policy.handovers tainted stmt).foldl handOver tainted := by
  rcases stmt with ⟨line, shape⟩
  cases shape with
  | assign assignment =>
    rcases assignment with ⟨targets, value, hint, augmented⟩
    cases value with
    | none => rfl
    | some value =>
      simp only [observe, handovers]
      split
      · rfl
      · rw [bindAll, foldl_map]
        rfl
  | withItems isAsync items body => exact policy.foldl_entered tainted items
  | _ => rfl

theorem mem_foldl_handOver (name : String) (given : List (Expr × Bool)) (tainted : List String) :
    name ∈ given.foldl handOver tainted ↔
      (lastGiven name given).getD (decide (name ∈ tainted)) = true := by
  induction given generalizing tainted with
  | nil => simp [lastGiven]
  | cons first rest ih =>
    obtain ⟨target, state⟩ := first
    rw [foldl_cons, ih, lastGiven]
    cases lastGiven name rest with
    | some last => rfl
    | none =>
      have bound := mem_bind state target tainted name
      by_cases written : name ∈ target.boundNames state <;> simp_all [handOver]

theorem mem_observe_iff (tainted : List String) (stmt : Stmt) (name : String) :
    (name ∈ policy.observe tainted stmt ↔ name ∈ tainted) ↔
      ∀ state, lastGiven name (policy.handovers tainted stmt) = some state →
        (state = true ↔ name ∈ tainted) := by
  rw [observe_handovers, mem_foldl_handOver]
  cases lastGiven name (policy.handovers tainted stmt) <;> simp

/-- In the head of a statement a scan shows the state that the statement leaves behind, not the one
    it was reached with. The two differ in the names to which the statement gives another state. -/
theorem scan_in_head (scope : Scope) (front rest : List Node) (stmt : Stmt)
    (binds : stmt.BindsNames) (here : scope.nodes = front ++ .stmt stmt :: rest) :
    ∃ back, rest = stmt.headNodes ++ back ∧
      policy.scan scope = policy.scanFrom [] front ++
        (.stmt stmt, policy.stateAfter front) ::
          (stmt.headNodes.map (·, policy.observe (policy.stateAfter front) stmt) ++
            policy.scanFrom (policy.observe (policy.stateAfter front) stmt) back) ∧
      ∀ name,
        (name ∈ policy.observe (policy.stateAfter front) stmt ↔ name ∈ policy.stateAfter front) ↔
          ∀ state, lastGiven name (policy.handovers (policy.stateAfter front) stmt) = some state →
            (state = true ↔ name ∈ policy.stateAfter front) := by
  obtain ⟨back, rfl⟩ := Stmt.visit_head binds here
  have head := policy.scanFrom_exprs (policy.observe (policy.stateAfter front) stmt)
    (Node.visit_exprs false stmt.headExprs)
  refine ⟨back, rfl, ?_, policy.mem_observe_iff _ stmt⟩
  rw [scan, here, scanFrom_append, foldl_observeNode, ← stateAfter, scanFrom, observeNode,
    scanFrom_append, Stmt.headNodes, head.1, head.2]

/-- The statement `x = x + source`. -/
def tainting : Stmt :=
  ⟨1, .assign ⟨[⟨1, .identifier "x"⟩],
    some ⟨1, .binary .add ⟨1, .identifier "x"⟩ ⟨1, .identifier "source"⟩⟩, none, none⟩⟩

theorem tainting_nodes :
    Scope.nodes ⟨none, [tainting]⟩ = .stmt tainting :: tainting.headNodes := by with_unfolding_all rfl

theorem observe_tainting : observe ⟨["source"], []⟩ [] tainting = ["x"] := by decide +kernel

theorem scan_in_head_of_tainting :
    tainting.BindsNames ∧
    Scope.nodes ⟨none, [tainting]⟩ = [] ++ .stmt tainting :: tainting.headNodes ∧
    ∃ back, tainting.headNodes = tainting.headNodes ++ back ∧
      scan ⟨["source"], []⟩ ⟨none, [tainting]⟩ =
        (.stmt tainting, []) :: (tainting.headNodes.map (·, ["x"]) ++
          scanFrom ⟨["source"], []⟩ ["x"] back) := by
  have binds : tainting.BindsNames := .inl rfl
  obtain ⟨back, rest, scanned, _⟩ :=
    scan_in_head ⟨["source"], []⟩ ⟨none, [tainting]⟩ [] _ tainting binds tainting_nodes
  have before : stateAfter ⟨["source"], []⟩ [] = [] := rfl
  rw [before, observe_tainting] at scanned
  exact ⟨binds, tainting_nodes, back, rest, scanned⟩

/-- So the state in the head of a statement is not always the one before the statement. -/
theorem scan_in_head_not_before :
    ¬ ∀ (policy : TaintPolicy) (scope : Scope) (front rest : List Node) (stmt : Stmt),
      stmt.BindsNames → scope.nodes = front ++ .stmt stmt :: rest →
      ∀ shown ∈ ((policy.scan scope).drop (front.length + 1)).take stmt.headNodes.length,
        ∀ name, name ∈ shown.2 ↔ name ∈ policy.stateAfter front := by
  intro always
  have visited : ((scan ⟨["source"], []⟩ ⟨none, [tainting]⟩).drop 1).take tainting.headNodes.length =
      (.expr ⟨1, .identifier "x"⟩, ["x"]) :: tainting.headNodes.tail.map (·, ["x"]) := by with_unfolding_all rfl
  have same := always ⟨["source"], []⟩ ⟨none, [tainting]⟩ [] _ tainting (.inl rfl) tainting_nodes
    (.expr ⟨1, .identifier "x"⟩, ["x"])
    (by rw [length_nil, visited]; exact mem_cons_self) "x"
  simp [stateAfter] at same

end TaintPolicy
end SourceAudit
