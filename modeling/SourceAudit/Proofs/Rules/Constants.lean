import SourceAudit.Proofs.Rules.Rebinding
import SourceAudit.Rules.Literal

open List

namespace SourceAudit

/-- What literals stand for, and what operators, displays, formatted strings and `format` make of values. -/
structure Meaning (V : Type) where
  literal : Expr.Shape Expr → V
  binary : BinaryOp → V → V → V
  tuple : List V → V
  list : List V → V
  formatted : List (FormattedPart V) → V
  format : V → List (Argument V) → V

namespace Meaning

variable {V : Type} (meaning : Meaning V) (env : String → V) (other : Expr → V)

/-- The value of an expression, given those of the names and those of all expressions of another form. -/
def value (expr : Expr) : V :=
  match _shape : expr.shape with
  | .identifier name => env name
  | .binary op left right => meaning.binary op (value left) (value right)
  | .tuple items => meaning.tuple (items.attach.map fun ⟨item, _⟩ => value item)
  | .list items => meaning.list (items.attach.map fun ⟨item, _⟩ => value item)
  | .formatted parts =>
    meaning.formatted (parts.attach.map fun
      | ⟨.value inner, _⟩ => .value (value inner)
      | ⟨.literal text, _⟩ => .literal text)
  | .call function args =>
    if (Call.mk function args).isFormat then
      match _method : function.shape with
      | .attribute object _ =>
        meaning.format (value object) (args.attach.map fun ⟨arg, _⟩ => ⟨arg.kind, value arg.value⟩)
      | _ => other expr
    else other expr
  | _ => if expr.isLiteral then meaning.literal expr.shape else other expr
termination_by sizeOf expr
decreasing_by
  · exact Expr.sizeOf_child (by simp [Expr.children, _shape, Expr.Shape.children])
  · exact Expr.sizeOf_child (by simp [Expr.children, _shape, Expr.Shape.children])
  · exact Expr.sizeOf_child (by simp_all [Expr.children, Expr.Shape.children])
  · exact Expr.sizeOf_child (by simp_all [Expr.children, Expr.Shape.children])
  · exact Expr.sizeOf_part _shape ‹_›
  · exact Expr.sizeOf_receiver _shape _method
  · exact Expr.sizeOf_argument _shape ‹_›

def assigned (augmented : Option BinaryOp) (name : String) (value : Expr) : V :=
  match augmented with
  | none => meaning.value env other value
  | some op => meaning.binary op (env name) (meaning.value env other value)

/-- The effect of a statement on the environment. The names of a target with several parts get any values. -/
inductive Executes : Stmt → (String → V) → Prop where
  | expr (line : Nat) (value : Expr) : Executes ⟨line, .expr value⟩ env
  | declared (line : Nat) (target : Expr) (hint : Option Expr) (augmented : Option BinaryOp) :
      Executes ⟨line, .assign ⟨[target], none, hint, augmented⟩⟩ env
  | assigned (line : Nat) (target value : Expr) (hint : Option Expr) (augmented : Option BinaryOp) {after : String → V}
      (kept : ∀ name, ¬ target.Binds name → after name = env name)
      (given : ∀ name, target.shape = .identifier name → after name = meaning.assigned env other augmented name value) :
      Executes ⟨line, .assign ⟨[target], some value, hint, augmented⟩⟩ after

/-- Statements one after the other. An expression of another form may have another value at each of them. -/
inductive Runs : (String → V) → List Stmt → (String → V) → Prop where
  | nil (env : String → V) : Runs env [] env
  | cons {env between after : String → V} {stmt : Stmt} {rest : List Stmt} (other : Expr → V)
      (first : meaning.Executes env other stmt between) (others : Runs between rest after) : Runs env (stmt :: rest) after

end Meaning

theorem Expr.isConstant_identifier (line : Nat) (name : String) : isConstant ⟨line, .identifier name⟩ = false := by
  rw [isConstant]
  rfl

theorem Expr.isConstant_format {line place : Nat} {object : Expr} {name : String} {args : List (Argument Expr)}
    (format : (Call.mk ⟨place, .attribute object name⟩ args).isFormat = true) :
    isConstant ⟨line, .call ⟨place, .attribute object name⟩ args⟩ =
      (object.isConstant && args.all fun arg => arg.value.isConstant) := by
  rw [isConstant]
  dsimp only
  rw [if_pos format]
  simp

inductive Expr.IsNames : Expr → Prop where
  | identifier (line : Nat) (name : String) : IsNames ⟨line, .identifier name⟩
  | tuple (line : Nat) {items : List Expr} (each : ∀ item ∈ items, IsNames item) : IsNames ⟨line, .tuple items⟩
  | list (line : Nat) {items : List Expr} (each : ∀ item ∈ items, IsNames item) : IsNames ⟨line, .list items⟩
  | starred (line : Nat) {inner : Expr} (names : IsNames inner) : IsNames ⟨line, .starred inner⟩

inductive Stmt.IsStraight : Stmt → Prop where
  | expr (line : Nat) (value : Expr) : IsStraight ⟨line, .expr value⟩
  | assign (line : Nat) {target : Expr} (value hint : Option Expr) (augmented : Option BinaryOp)
      (names : target.IsNames) : IsStraight ⟨line, .assign ⟨[target], value, hint, augmented⟩⟩

namespace Meaning

variable {V : Type} (meaning : Meaning V) {env : String → V} {other : Expr → V}

theorem exists_executes {stmt : Stmt} (straight : stmt.IsStraight) (env : String → V) (other : Expr → V) :
    ∃ after, meaning.Executes env other stmt after := by
  cases straight with
  | expr line value => exact ⟨env, .expr line value⟩
  | @assign line target value hint augmented names =>
    cases value with
    | none => exact ⟨env, .declared line target hint augmented⟩
    | some value =>
      cases names with
      | identifier place name =>
        refine ⟨Function.update env name (meaning.assigned env other augmented name value), .assigned _ _ _ _ _ ?_ ?_⟩
        · intro asked free
          have apart : asked ≠ name := fun same => free (same ▸ .identifier place)
          exact Function.update_of_ne apart _ _
        · intro asked same
          cases same
          exact Function.update_self ..
      | tuple | list | starred => exact ⟨env, .assigned _ _ _ _ _ (fun _ _ => rfl) fun _ same => by cases same⟩

theorem exists_runs {stmts : List Stmt} (straight : ∀ stmt ∈ stmts, stmt.IsStraight) (env : String → V) :
    ∃ after, meaning.Runs env stmts after := by
  induction stmts generalizing env with
  | nil => exact ⟨env, .nil env⟩
  | cons stmt rest ih =>
    obtain ⟨between, first⟩ := meaning.exists_executes (straight stmt mem_cons_self) env fun _ => env ""
    obtain ⟨after, others⟩ := ih (fun later member => straight later (mem_cons_of_mem _ member)) between
    exact ⟨after, .cons _ first others⟩

theorem value_format {line place : Nat} {object : Expr} {name : String} {args : List (Argument Expr)}
    (format : (Call.mk ⟨place, .attribute object name⟩ args).isFormat = true) (env : String → V) (other : Expr → V) :
    meaning.value env other ⟨line, .call ⟨place, .attribute object name⟩ args⟩ =
      meaning.format (meaning.value env other object)
        (args.map fun arg => ⟨arg.kind, meaning.value env other arg.value⟩) := by
  rw [value]
  dsimp only
  rw [if_pos format]
  simp

theorem value_of_constant {expr : Expr} (constant : expr.isConstant = true) (env env' : String → V)
    (other other' : Expr → V) : meaning.value env other expr = meaning.value env' other' expr := by
  induction size : sizeOf expr using Nat.strongRecOn generalizing expr with
  | ind size ih =>
    subst size
    have below : ∀ child ∈ expr.children, child.isConstant = true →
        meaning.value env other child = meaning.value env' other' child :=
      fun child member known => ih _ (Expr.sizeOf_child member) known rfl
    rcases expr with ⟨line, shape⟩
    cases shape with
    | binary op left right =>
      rw [Expr.isConstant, Bool.and_eq_true] at constant
      have first := below left (by simp [Expr.children, Expr.Shape.children]) constant.1
      have second := below right (by simp [Expr.children, Expr.Shape.children]) constant.2
      rw [value, value]
      dsimp only
      rw [first, second]
    | tuple items | list items =>
      rw [Expr.isConstant, all_eq_true] at constant
      rw [value, value]
      refine congrArg _ (map_congr_left fun item member => ?_)
      exact below item.1 (by simpa [Expr.children, Expr.Shape.children] using item.2) (constant item member)
    | formatted parts =>
      rw [Expr.isConstant, all_eq_true] at constant
      rw [value, value]
      refine congrArg _ (map_congr_left fun part member => ?_)
      obtain ⟨part, inside⟩ := part
      cases part with
      | literal text => rfl
      | value inner => cases constant _ inside
    | call function args =>
      by_cases format : (Call.mk function args).isFormat
      · rcases function with ⟨place, shape⟩
        cases shape with
        | «attribute» object name =>
          rw [Expr.isConstant_format format, Bool.and_eq_true, all_eq_true] at constant
          rw [value_format meaning format, value_format meaning format,
            ih (sizeOf object) (Expr.sizeOf_receiver rfl rfl) constant.1 rfl]
          refine congrArg _ (map_congr_left fun arg member => ?_)
          rw [ih (sizeOf arg.value) (Expr.sizeOf_argument rfl member) (constant.2 arg member) rfl]
        | _ =>
          rw [Expr.isConstant] at constant
          simp at constant
      · rw [Expr.isConstant] at constant
        simp [format] at constant
    | int | float | string | bool | none => rw [value, value]; rfl
    | _ => simp [Expr.isConstant, Expr.isLiteral] at constant

end Meaning

namespace Bindings

variable {V : Type} {meaning : Meaning V} {env : String → V} {bindings : Bindings}

/-- What is known of a name is what it holds, as far as it is a constant. -/
def Sound (meaning : Meaning V) (env : String → V) (bindings : Bindings) : Prop :=
  ∀ name found, bindings.lookup name = some found → found.isConstant = true →
    ∀ env' other', meaning.value env' other' found = env name

theorem resolve_format {line place : Nat} {object : Expr} {name : String} {args : List (Argument Expr)}
    (format : (Call.mk ⟨place, .attribute object name⟩ args).isFormat = true) :
    bindings.resolve ⟨line, .call ⟨place, .attribute object name⟩ args⟩ =
      ⟨line, .call ⟨place, .attribute (bindings.resolve object) name⟩
        (args.map fun arg => { arg with value := bindings.resolve arg.value })⟩ := by
  rw [resolve]
  dsimp only
  rw [if_pos format]
  simp

theorem resolve_sound (sound : bindings.Sound meaning env) {expr : Expr}
    (constant : (bindings.resolve expr).isConstant = true) (env' : String → V) (other other' : Expr → V) :
    meaning.value env' other' (bindings.resolve expr) = meaning.value env other expr := by
  induction size : sizeOf expr using Nat.strongRecOn generalizing expr with
  | ind size ih =>
    subst size
    rcases expr with ⟨line, shape⟩
    -- an expression that is left as it is
    have same : bindings.resolve ⟨line, shape⟩ = ⟨line, shape⟩ →
        meaning.value env' other' (bindings.resolve ⟨line, shape⟩) = meaning.value env other ⟨line, shape⟩ := by
      intro same
      rw [same] at constant ⊢
      exact meaning.value_of_constant constant _ _ _ _
    cases shape with
    | identifier name =>
      rw [resolve_identifier] at constant ⊢
      rw [Meaning.value.eq_def meaning env]
      cases found : bindings.lookup name with
      | none =>
        rw [found, Option.getD_none, Expr.isConstant_identifier] at constant
        cases constant
      | some recorded =>
        rw [found] at constant
        exact sound name recorded found constant env' other'
    | binary op left right =>
      have built : bindings.resolve ⟨line, .binary op left right⟩ =
          ⟨line, .binary op (bindings.resolve left) (bindings.resolve right)⟩ := by rw [resolve]
      rw [built, Expr.isConstant, Bool.and_eq_true] at constant
      have first := ih (sizeOf left) (Expr.sizeOf_child (by simp [Expr.children, Expr.Shape.children])) constant.1 rfl
      have second := ih (sizeOf right) (Expr.sizeOf_child (by simp [Expr.children, Expr.Shape.children])) constant.2 rfl
      rw [built, Meaning.value, Meaning.value]
      dsimp only
      rw [first, second]
    | formatted parts =>
      -- only literal parts are constant, and these stay
      apply same
      rw [resolve] at constant ⊢
      rw [Expr.isConstant, all_eq_true] at constant
      refine congrArg (fun parts => (⟨line, .formatted parts⟩ : Expr)) ((map_congr_left fun part member => ?_).trans
        parts.attach_map_subtype_val)
      obtain ⟨part, inside⟩ := part
      cases part with
      | literal text => rfl
      | value inner => cases constant _ (mem_map_of_mem member)
    | call function args =>
      by_cases format : (Call.mk function args).isFormat
      · rcases function with ⟨place, shape⟩
        cases shape with
        | «attribute» object name =>
          rw [resolve_format format] at constant ⊢
          have resolved : (Call.mk ⟨place, .attribute (bindings.resolve object) name⟩
              (args.map fun arg => { arg with value := bindings.resolve arg.value })).isFormat = true := format
          rw [Expr.isConstant_format resolved, Bool.and_eq_true, all_map, all_eq_true] at constant
          rw [meaning.value_format resolved, meaning.value_format format, map_map,
            ih (sizeOf object) (Expr.sizeOf_receiver rfl rfl) constant.1 rfl]
          refine congrArg _ (map_congr_left fun arg member => ?_)
          dsimp only [Function.comp]
          rw [ih (sizeOf arg.value) (Expr.sizeOf_argument rfl member) (constant.2 arg member) rfl]
        | _ =>
          rw [resolve] at constant
          dsimp only at constant
          rw [if_pos format, Expr.isConstant] at constant
          simp at constant
      · apply same
        rw [resolve]
        dsimp only
        rw [if_neg format]
    | _ => exact same (by rw [resolve])

theorem observe_sound (sound : bindings.Sound meaning env) {other : Expr → V} {target value : Expr}
    {hint : Option Expr} {augmented : Option BinaryOp} {after : String → V}
    (kept : ∀ name, ¬ target.Binds name → after name = env name)
    (given : ∀ name, target.shape = .identifier name → after name = meaning.assigned env other augmented name value) :
    (bindings.observe ⟨[target], some value, hint, augmented⟩).Sound meaning after := by
  intro name found left constant env' other'
  rcases lookup_bindTarget left with ⟨known, free⟩ | ⟨shape, resolved, assigned, rfl⟩
  · rw [kept name free]
    exact sound name found known constant env' other'
  · split at constant
    · rename_i small
      rw [if_pos small, given name shape]
      cases augmented with
      | none =>
        cases assigned
        exact resolve_sound sound constant env' other other'
      | some op =>
        obtain ⟨previous, known, rfl⟩ := Option.map_eq_some_iff.mp assigned
        rw [Expr.isConstant, Bool.and_eq_true] at constant
        rw [Meaning.value]
        dsimp only
        rw [sound name previous known constant.1, resolve_sound sound constant.2 env' other other']
        rfl
    · rcases target with ⟨place, shape'⟩
      cases shape
      rw [Expr.isConstant_identifier] at constant
      cases constant

theorem step_sound (sound : bindings.settle.Sound meaning env) {other : Expr → V} {stmt : Stmt} {after : String → V}
    (executes : meaning.Executes env other stmt after) :
    (bindings.step (.stmt stmt)).settle.Sound meaning after := by
  cases executes with
  | expr line value =>
    rw [settle_step (by simp [Stmt.Shape.kind])]
    exact sound
  | declared line target hint augmented => exact sound
  | assigned line target value hint augmented kept given =>
    have same : { bindings.settle with pending := none } = bindings.settle := by
      rw [← pending_settle bindings]
    have effect : (bindings.step (.stmt ⟨line, .assign ⟨[target], some value, hint, augmented⟩⟩)).settle =
        { bindings.settle with pending := none }.observe ⟨[target], some value, hint, augmented⟩ := rfl
    rw [effect, same]
    exact observe_sound sound kept given

theorem scanFrom_append (bindings : Bindings) (first second : List Node) :
    bindings.scanFrom (first ++ second) = bindings.scanFrom first ++ (first.foldl step bindings).scanFrom second := by
  induction first generalizing bindings with
  | nil => rfl
  | cons node rest ih => simp [scanFrom, ih]

theorem map_fst_scanFrom (bindings : Bindings) (nodes : List Node) :
    (bindings.scanFrom nodes).map Prod.fst = nodes := by
  induction nodes generalizing bindings with
  | nil => rfl
  | cons node rest ih => simp [scanFrom, ih]

theorem scanFrom_exprs {nodes : List Node} (exprs : ∀ node ∈ nodes, ∃ value, node = .expr value)
    (bindings : Bindings) :
    nodes.foldl step bindings = bindings ∧ bindings.scanFrom nodes = nodes.map fun node => (node, bindings) := by
  induction nodes with
  | nil => exact ⟨rfl, rfl⟩
  | cons node rest ih =>
    obtain ⟨value, rfl⟩ := exprs _ mem_cons_self
    obtain ⟨same, scanned⟩ := ih fun later member => exprs later (mem_cons_of_mem _ member)
    have stays : bindings.step (.expr value) = bindings := rfl
    simp [scanFrom, stays, same, scanned]

theorem visit_straight {stmt : Stmt} (straight : stmt.IsStraight) :
    ∃ nodes, Node.visit false [.stmt stmt] = .stmt stmt :: nodes ∧ ∀ node ∈ nodes, ∃ value, node = .expr value := by
  have below : ∃ values, (Node.stmt stmt).parts false = Node.exprs values := by
    cases straight with
    | expr line value => exact ⟨[value], rfl⟩
    | assign line => exact ⟨_, rfl⟩
  obtain ⟨values, parts⟩ := below
  refine ⟨Node.visit false (Node.exprs values), ?_, Node.visit_exprs false values⟩
  rw [Node.visit, parts, append_nil]

theorem foldl_step_straight {stmt : Stmt} (straight : stmt.IsStraight) (bindings : Bindings) :
    (Node.visit false [.stmt stmt]).foldl step bindings = bindings.step (.stmt stmt) := by
  obtain ⟨nodes, visited, exprs⟩ := visit_straight straight
  rw [visited, foldl_cons, (scanFrom_exprs exprs _).1]

theorem run_sound {stmts : List Stmt} (straight : ∀ stmt ∈ stmts, stmt.IsStraight)
    (sound : bindings.settle.Sound meaning env) {after : String → V} (runs : meaning.Runs env stmts after) :
    ((Node.visit false (stmts.map .stmt)).foldl step bindings).settle.Sound meaning after := by
  induction runs generalizing bindings with
  | nil env =>
    rw [map_nil, Node.visit]
    exact sound
  | @cons env between after stmt rest other first others ih =>
    rw [map_cons, ← singleton_append, Node.visit_append, foldl_append,
      foldl_step_straight (straight stmt mem_cons_self)]
    exact ih (fun later member => straight later (mem_cons_of_mem _ member)) (step_sound sound first)

/-- In straight-line code an expression that is resolved to a constant has the value of that constant when its
    statement is reached. Nothing is asked of the names at the start, of the operators, or of other expressions. -/
theorem scan_constants (meaning : Meaning V) {scope : Scope} {earlier later : List Stmt} {stmt : Stmt}
    (straight : ∀ stmt ∈ scope.statements, stmt.IsStraight) (split : scope.statements = earlier ++ stmt :: later) :
    ∃ visited rest, scan scope = scan ⟨scope.function, earlier⟩ ++ visited ++ rest ∧
      visited.map Prod.fst = Node.visit false [.stmt stmt] ∧
      ∀ start, (∃ env, meaning.Runs start earlier env) ∧ ∀ env, meaning.Runs start earlier env →
        ∀ value known, (.expr value, known) ∈ visited → (known.resolve value).isConstant = true →
          ∀ other env' other', meaning.value env other value = meaning.value env' other' (known.resolve value) := by
  have before : ∀ stmt ∈ earlier, stmt.IsStraight := fun early member => straight early (by simp [split, member])
  have here : stmt.IsStraight := straight stmt (by simp [split])
  obtain ⟨nodes, visited, exprs⟩ := visit_straight here
  have walk : scope.nodes = Node.visit false (earlier.map .stmt) ++ (Node.visit false [.stmt stmt] ++
      Node.visit false (later.map .stmt)) := by
    rw [← Node.visit_append, ← Node.visit_append, Scope.nodes, split]
    simp
  let reached := (Node.visit false (earlier.map .stmt)).foldl step empty
  refine ⟨reached.scanFrom (Node.visit false [.stmt stmt]),
    (reached.step (.stmt stmt)).scanFrom (Node.visit false (later.map .stmt)), ?_, map_fst_scanFrom _ _, fun start =>
    ⟨meaning.exists_runs before start, fun env runs value known member constant other env' other' => ?_⟩⟩
  · rw [scan, walk, scanFrom_append, scanFrom_append, foldl_step_straight here, append_assoc]
    rfl
  · have sound : reached.settle.Sound meaning env := run_sound before (fun name found none => by cases none) runs
    have still : (reached.step (.stmt stmt)).Sound meaning env := by
      intro name found left
      exact sound name found ((lookup_step reached stmt name).1 found left)
    rw [visited, scanFrom, (scanFrom_exprs exprs _).2] at member
    have same : known = reached.step (.stmt stmt) := by
      rcases mem_cons.mp member with wrong | inside
      · cases wrong
      · obtain ⟨node, _, pair⟩ := mem_map.mp inside
        cases pair
        rfl
    subst same
    exact (resolve_sound still constant env' other other').symm

def joining : Meaning String where
  literal shape := Expr.literalText ⟨1, shape⟩
  binary _ left right := left ++ right
  tuple := String.join
  list := String.join
  formatted parts := String.join (parts.map fun
    | .literal text => text
    | .value text => text)
  format object _ := object

/-- The code `q = "a"`, `r, s = f()`, `q += "b"`, `g(q)`. -/
def assembling : Scope :=
  ⟨none, [⟨1, .assign ⟨[⟨1, .identifier "q"⟩], some ⟨1, .string "a"⟩, none, none⟩⟩,
    ⟨2, .assign ⟨[⟨2, .tuple [⟨2, .identifier "r"⟩, ⟨2, .identifier "s"⟩]⟩], some ⟨2, .call ⟨2, .identifier "f"⟩ []⟩, none,
      none⟩⟩,
    ⟨3, .assign ⟨[⟨3, .identifier "q"⟩], some ⟨3, .string "b"⟩, none, some .add⟩⟩,
    ⟨4, .expr ⟨4, .call ⟨4, .identifier "g"⟩ [⟨.positional, ⟨4, .identifier "q"⟩⟩]⟩⟩]⟩

/-- What is known of the names when the last line is scanned. -/
def joined : Bindings := ⟨[("q", ⟨3, .binary .add ⟨1, .string "a"⟩ ⟨3, .string "b"⟩⟩)], none⟩

theorem scan_constants_assembling :
    (∀ stmt ∈ assembling.statements, stmt.IsStraight) ∧
    (.expr ⟨4, .identifier "q"⟩, joined) ∈ scan assembling ∧
    joined.resolve ⟨4, .identifier "q"⟩ = ⟨3, .binary .add ⟨1, .string "a"⟩ ⟨3, .string "b"⟩⟩ ∧
    (joined.resolve ⟨4, .identifier "q"⟩).isConstant = true ∧
    ∃ env, joining.Runs (fun _ => "x") (assembling.statements.take 3) env ∧ env "q" = "ab" := by
  have straight : ∀ stmt ∈ assembling.statements, stmt.IsStraight := by
    intro stmt member
    simp only [assembling, mem_cons, not_mem_nil, or_false] at member
    rcases member with rfl | rfl | rfl | rfl
    · exact .assign 1 _ _ _ (.identifier 1 "q")
    · refine .assign 2 _ _ _ (.tuple 2 fun item inside => ?_)
      simp only [mem_cons, not_mem_nil, or_false] at inside
      rcases inside with rfl | rfl
      · exact .identifier 2 "r"
      · exact .identifier 2 "s"
    · exact .assign 3 _ _ _ (.identifier 3 "q")
    · exact .expr 4 _
  obtain ⟨visited, rest, scanned, nodes, sound⟩ := scan_constants joining straight
    (show assembling.statements = assembling.statements.take 3 ++ _ :: [] from rfl)
  obtain ⟨⟨env, runs⟩, always⟩ := sound fun _ => "x"
  have before : (scan ⟨assembling.function, assembling.statements.take 3⟩).length = 12 := by decide +kernel
  have size : visited.length = 4 := by
    rw [← length_map Prod.fst, nodes]
    decide +kernel
  have last : ((scan assembling).drop 12).take 4 = visited := by
    rw [scanned, append_assoc, drop_left' before, take_left' size]
  have member : (.expr ⟨4, .identifier "q"⟩, joined) ∈ visited := by
    have third : (((scan assembling).drop 12).take 4)[3]? = some (.expr ⟨4, .identifier "q"⟩, joined) := by
      with_unfolding_all rfl
    rw [last] at third
    exact mem_of_getElem? third
  have constant : (joined.resolve ⟨4, .identifier "q"⟩).isConstant = true := by decide +kernel
  have value := always env runs _ joined member constant (fun _ => "") (fun _ => "") fun _ => ""
  have left : joining.value env (fun _ => "") ⟨4, .identifier "q"⟩ = env "q" := by rw [Meaning.value]
  have right : joining.value (fun _ => "") (fun _ => "") (joined.resolve ⟨4, .identifier "q"⟩) = "ab" := by
    decide +kernel
  refine ⟨straight, ?_, by with_unfolding_all rfl, constant, env, runs, left.symm.trans (value.trans right)⟩
  rw [scanned]
  exact mem_append_left _ (mem_append_right _ member)

end Bindings

end SourceAudit
