import Mathlib.Algebra.BigOperators.Ring.List
import Mathlib.Algebra.Order.BigOperators.Group.List
import Mathlib.Algebra.Order.Ring.Nat
import SourceAudit.Proofs.Rules.Rebinding

open List

namespace SourceAudit

namespace Expr

/-- The expressions from which another one builds a string. -/
def pieces (expr : Expr) : List Expr :=
  match expr.shape with
  | .binary _ left right => [left, right]
  | .formatted parts => parts.flatMap (·.children)
  | .call function args =>
    if (Call.mk function args).isFormat then (Call.mk function args).receiver?.toList ++ args.map (·.value) else []
  | _ => []

theorem sizeOf_piece {expr piece : Expr} (member : piece ∈ expr.pieces) : sizeOf piece < sizeOf expr := by
  rcases expr with ⟨line, shape⟩
  cases shape with
  | binary op left right => exact sizeOf_child member
  | formatted parts => exact sizeOf_child member
  | call function args =>
    simp only [pieces] at member
    split at member
    · rcases mem_append.mp member with receiver | value
      · rcases function with ⟨place, shape⟩
        cases shape <;> simp only [Call.receiver?, Option.toList_some, Option.toList_none, mem_singleton,
          not_mem_nil] at receiver
        subst receiver
        exact sizeOf_receiver rfl rfl
      · exact sizeOf_child (mem_cons_of_mem _ value)
    · cases member
  | _ => cases member

def size (expr : Expr) : Nat := 1 + (expr.pieces.attach.map fun ⟨piece, _⟩ => size piece).sum
termination_by sizeOf expr
decreasing_by exact sizeOf_piece ‹_›

theorem size_eq (expr : Expr) : expr.size = 1 + (expr.pieces.map size).sum := by
  rw [size, attach_map_val (f := size)]

def mapPieces (f : Expr → Expr) (expr : Expr) : Expr :=
  match expr.shape with
  | .binary op left right => ⟨expr.line, .binary op (f left) (f right)⟩
  | .formatted parts =>
    ⟨expr.line, .formatted (parts.map fun
      | .value inner => .value (f inner)
      | .literal text => .literal text)⟩
  | .call function args =>
    if (Call.mk function args).isFormat then
      let receiver : Expr :=
        match function.shape with
        | .attribute value name => ⟨function.line, .attribute (f value) name⟩
        | _ => function
      ⟨expr.line, .call receiver (args.map fun arg => { arg with value := f arg.value })⟩
    else expr
  | _ => expr

theorem pieces_mapPieces (f : Expr → Expr) (expr : Expr) : (expr.mapPieces f).pieces = expr.pieces.map f := by
  rcases expr with ⟨line, shape⟩
  cases shape with
  | binary op left right => rfl
  | formatted parts =>
    simp only [mapPieces, pieces, map_flatMap, flatMap_map]
    refine flatMap_congr fun part _ => ?_
    cases part <;> rfl
  | call function args =>
    by_cases format : (Call.mk function args).isFormat
    · rcases function with ⟨place, shape⟩
      have same : (args.map fun arg => { arg with value := f arg.value }).map (·.value) =
          (args.map (·.value)).map f := by simp
      cases shape <;> simp_all [mapPieces, pieces, Call.isFormat, Call.methodName, Call.receiver?]
    · simp [mapPieces, pieces, format]
  | _ => rfl

theorem mapPieces_congr {f g : Expr → Expr} {expr : Expr} (same : ∀ piece ∈ expr.pieces, f piece = g piece) :
    expr.mapPieces f = expr.mapPieces g := by
  rcases expr with ⟨line, shape⟩
  cases shape with
  | binary op left right =>
    simp only [mapPieces, same left (by simp [pieces]), same right (by simp [pieces])]
  | formatted parts =>
    simp only [mapPieces]
    congr 2
    refine map_congr_left fun part member => ?_
    cases part with
    | literal text => rfl
    | value inner =>
      have inside : inner ∈ pieces ⟨line, .formatted parts⟩ :=
        mem_flatMap.mpr ⟨_, member, mem_singleton.mpr rfl⟩
      exact congrArg _ (same inner inside)
  | call function args =>
    by_cases format : (Call.mk function args).isFormat
    · simp only [pieces, format, if_true, mem_append] at same
      have values : (args.map fun arg => { arg with value := f arg.value }) =
          args.map fun arg => { arg with value := g arg.value } := by
        refine map_congr_left fun arg member => ?_
        rw [same arg.value (.inr (mem_map_of_mem member))]
      simp only [mapPieces, format, if_true, values]
      rcases function with ⟨place, shape⟩
      cases shape with
      | «attribute» value name => simp only [same value (.inl (by simp [Call.receiver?]))]
      | _ => rfl
    · simp only [mapPieces, if_neg format]
  | _ => rfl

end Expr

namespace Bindings

variable {bindings : Bindings}

theorem resolve_of_not_name {expr : Expr} (other : ∀ name, expr.shape ≠ .identifier name) :
    bindings.resolve expr = expr.mapPieces bindings.resolve := by
  rcases expr with ⟨line, shape⟩
  cases shape with
  | identifier name => exact absurd rfl (other name)
  | formatted parts =>
    rw [resolve, Expr.mapPieces]
    refine congrArg (fun parts => (⟨line, .formatted parts⟩ : Expr)) ?_
    conv_rhs => rw [← parts.attach_map_subtype_val, map_map]
    refine map_congr_left ?_
    rintro ⟨part, inside⟩ -
    cases part <;> rfl
  | call function args =>
    rw [resolve, Expr.mapPieces]
    dsimp only
    split
    · rcases function with ⟨place, shape⟩
      cases shape <;> simp
    · rfl
  | _ => rw [resolve, Expr.mapPieces]

theorem pieces_resolve {expr : Expr} (other : ∀ name, expr.shape ≠ .identifier name) :
    (bindings.resolve expr).pieces = expr.pieces.map bindings.resolve := by
  rw [resolve_of_not_name other, Expr.pieces_mapPieces]

theorem foldlM_spend {parts : List Expr} (each : ∀ part ∈ parts, ∀ budget,
      spend part budget = if part.size ≤ budget then some (budget - part.size) else none) (budget : Nat) :
    parts.foldlM (fun left part => spend part left) budget =
      if (parts.map Expr.size).sum ≤ budget then some (budget - (parts.map Expr.size).sum) else none := by
  induction parts generalizing budget with
  | nil => simp
  | cons part rest ih =>
    rw [foldlM_cons, each part mem_cons_self, map_cons, sum_cons]
    have later := ih fun other member => each other (mem_cons_of_mem _ member)
    by_cases fits : part.size ≤ budget
    · rw [if_pos fits]
      refine (later _).trans ?_
      have whole : (rest.map Expr.size).sum ≤ budget - part.size ↔ part.size + (rest.map Expr.size).sum ≤ budget := by
        omega
      simp only [whole, Nat.sub_sub]
    · rw [if_neg fits, if_neg (by omega)]
      rfl

theorem spend_pieces (expr : Expr) (budget : Nat) :
    spend expr budget =
      if budget = 0 then none else expr.pieces.foldlM (fun left piece => spend piece left) (budget - 1) := by
  rcases expr with ⟨line, shape⟩
  rw [spend]
  refine if_congr Iff.rfl rfl ?_
  cases shape with
  | binary op left right => simp [Expr.pieces]
  | formatted parts =>
    -- a literal part costs nothing
    let cost (left : Nat) (part : FormattedPart Expr) : Option Nat :=
      part.children.foldlM (fun left inner => spend inner left) left
    refine (foldlM_subtype (g := cost) fun left part inside => ?_).trans ?_
    · cases part <;> simp [cost, FormattedPart.children]
    rw [unattach_attach]
    generalize budget - 1 = left
    simp only [Expr.pieces]
    induction parts generalizing left with
    | nil => rfl
    | cons part rest ih =>
      rw [foldlM_cons, flatMap_cons, foldlM_append]
      exact congrArg _ (funext ih)
  | call function args =>
    dsimp only [Expr.pieces]
    split
    · rw [foldlM_append]
      rcases function with ⟨place, shape⟩
      cases shape <;> simp [Call.receiver?, foldlM_map]
    · rfl
  | _ => rfl

theorem spend_eq (expr : Expr) (budget : Nat) :
    spend expr budget = if expr.size ≤ budget then some (budget - expr.size) else none := by
  induction size : sizeOf expr using Nat.strongRecOn generalizing expr budget with
  | ind size ih =>
    subst size
    have each : ∀ piece ∈ expr.pieces, ∀ budget,
        spend piece budget = if piece.size ≤ budget then some (budget - piece.size) else none :=
      fun piece member budget => ih _ (Expr.sizeOf_piece member) piece budget rfl
    have shares := foldlM_spend each (budget - 1)
    rw [spend_pieces, shares, expr.size_eq]
    by_cases none : budget = 0
    · rw [if_pos none, if_neg (by omega)]
    · rw [if_neg none]
      have whole : (expr.pieces.map Expr.size).sum ≤ budget - 1 ↔ 1 + (expr.pieces.map Expr.size).sum ≤ budget := by
        omega
      simp only [whole, Nat.sub_sub]

theorem isSmall_iff (expr : Expr) : isSmall expr = true ↔ expr.size ≤ 256 := by
  rw [isSmall, spend_eq, nodeLimit]
  split <;> simp_all

def Bounded (bindings : Bindings) : Prop := ∀ name found, bindings.lookup name = some found → found.size ≤ 256

theorem size_identifier (line : Nat) (name : String) : Expr.size ⟨line, .identifier name⟩ = 1 := by
  rw [Expr.size_eq]
  rfl

theorem size_resolve_le (bounded : bindings.Bounded) (expr : Expr) :
    (bindings.resolve expr).size ≤ 256 * expr.size := by
  induction size : sizeOf expr using Nat.strongRecOn generalizing expr with
  | ind size ih =>
    subst size
    by_cases other : ∀ name, expr.shape ≠ .identifier name
    · have each : ((expr.pieces.map bindings.resolve).map Expr.size).sum ≤
          (expr.pieces.map fun piece => 256 * piece.size).sum := by
        rw [map_map]
        exact sum_le_sum fun piece member => ih _ (Expr.sizeOf_piece member) piece rfl
      rw [sum_map_mul_left] at each
      rw [Expr.size_eq, expr.size_eq, pieces_resolve other]
      omega
    · push Not at other
      obtain ⟨name, shape⟩ := other
      rcases expr with ⟨line, _⟩
      cases shape
      rw [resolve_identifier, size_identifier]
      cases found : bindings.lookup name with
      | none => simp [size_identifier]
      | some recorded => simpa using bounded name recorded found

theorem bounded_observe (bounded : bindings.Bounded) (assignment : Assignment) :
    (bindings.observe assignment).Bounded := by
  intro name found left
  rcases lookup_observe left with ⟨known, _⟩ | ⟨value, earlier, target, later, _, _, shape, resolved, _, rfl⟩
  · exact bounded name found known
  · split
    · exact (isSmall_iff resolved).mp ‹_›
    · rcases target with ⟨line, _⟩
      cases shape
      simp [size_identifier]

theorem bounded_settle (bounded : bindings.Bounded) : bindings.settle.Bounded := by
  unfold settle
  split
  · exact @bounded_observe { bindings with pending := none } bounded _
  · exact bounded

theorem bounded_step (bounded : bindings.Bounded) (node : Node) : (bindings.step node).Bounded := by
  cases node with
  | stmt stmt =>
    intro name found left
    exact bounded_settle bounded name found ((lookup_step bindings stmt name).1 found left)
  | program | block | expr => exact bounded

theorem bounded_scanFrom (bounded : bindings.Bounded) (nodes : List Node) :
    ∀ visited ∈ bindings.scanFrom nodes, visited.2.Bounded := by
  induction nodes generalizing bindings with
  | nil => simp [scanFrom]
  | cons node rest ih =>
    have stepped := bounded_step bounded node
    intro visited member
    rcases mem_cons.mp member with rfl | later
    · exact stepped
    · exact ih stepped visited later

/-- An expression is small exactly if at most 256 of its nodes build a string. In every scope and at every node, what
    is known of a name is small, and resolving makes an expression at most 256 times as large. -/
theorem scan_bounded :
    (∀ expr, isSmall expr = true ↔ expr.size ≤ 256) ∧
    ∀ (scope : Scope) (node : Node) (known : Bindings), (node, known) ∈ scan scope →
      (∀ name value, known.lookup name = some value → value.size ≤ 256) ∧
      ∀ expr, (known.resolve expr).size ≤ 256 * expr.size := by
  refine ⟨isSmall_iff, fun scope node known member => ?_⟩
  have bounded := @bounded_scanFrom empty (fun name found none => by cases none) scope.nodes _ member
  exact ⟨bounded, size_resolve_le bounded⟩

theorem scan_bounded_extended :
    ∃ known, (.expr ⟨3, .identifier "q"⟩, known) ∈ scan extended ∧
      (known.resolve ⟨3, .identifier "q"⟩).literalText = "ab" ∧ (known.resolve ⟨3, .identifier "q"⟩).size ≤ 256 := by
  let known : Bindings := ⟨[("q", ⟨2, .binary .add ⟨1, .string "a"⟩ ⟨2, .string "b"⟩⟩)], none⟩
  have last : (scan extended)[7]? = some (.expr ⟨3, .identifier "q"⟩, known) := by with_unfolding_all rfl
  have bounded := (scan_bounded.2 extended _ known (mem_of_getElem? last)).2 ⟨3, .identifier "q"⟩
  rw [size_identifier] at bounded
  exact ⟨known, mem_of_getElem? last, by decide +kernel, bounded⟩

end Bindings
end SourceAudit
