import Mathlib.Data.List.Basic
import Mathlib.Data.List.Induction
import SourceAudit.Proofs.Taint.ScanState
import SourceAudit.Rules.Bindings

open List

namespace SourceAudit

/-- A target that gives a plain name a value, perhaps as one of several. -/
inductive Expr.Binds (name : String) : Expr → Prop where
  | identifier (line : Nat) : Binds name ⟨line, .identifier name⟩
  | tuple (line : Nat) {items : List Expr} {item : Expr} (member : item ∈ items) (binds : Binds name item) :
      Binds name ⟨line, .tuple items⟩
  | list (line : Nat) {items : List Expr} {item : Expr} (member : item ∈ items) (binds : Binds name item) :
      Binds name ⟨line, .list items⟩
  | starred (line : Nat) {inner : Expr} (binds : Binds name inner) : Binds name ⟨line, .starred inner⟩

def Stmt.targets (stmt : Stmt) : List Expr :=
  match stmt.shape with
  | .assign assignment => if assignment.value.isSome then assignment.targets else []
  | .forLoop _ target _ _ _ => [target]
  | .withItems _ items _ => items.filterMap (·.target)
  | _ => []

def Stmt.Rebinds (stmt : Stmt) (name : String) : Prop := ∃ target ∈ stmt.targets, target.Binds name

theorem TaintPolicy.map_entered (policy : TaintPolicy) (tainted : List String) (items : List WithItem) :
    (policy.entered tainted items).map Prod.fst = items.filterMap (·.target) := by
  induction items generalizing tainted with
  | nil => rfl
  | cons item rest ih =>
    rw [entered]
    cases target : item.target with
    | none => simp [ih, target]
    | some value => simp [ih, target]

theorem TaintPolicy.map_handovers (policy : TaintPolicy) (tainted : List String) (stmt : Stmt) :
    (policy.handovers tainted stmt).map Prod.fst = stmt.targets ∨
      (policy.handovers tainted stmt = [] ∧ ∃ assignment value, stmt.shape = .assign assignment ∧
        assignment.value = some value ∧ assignment.augmented.isSome ∧ policy.isTainted tainted value = false) := by
  rcases stmt with ⟨line, shape⟩
  cases shape with
  | assign assignment =>
    cases assigned : assignment.value with
    | none => exact .inl (by simp [handovers, Stmt.targets, assigned])
    | some value =>
      by_cases kept : assignment.augmented.isSome && !policy.isTainted tainted value
      · refine .inr ⟨by simp only [handovers, assigned, kept, ↓reduceIte], assignment, value, rfl, assigned, ?_⟩
        simpa using kept
      · left
        simp [handovers, assigned, kept, Stmt.targets, Function.comp_def]
  | withItems isAsync items body => exact .inl (policy.map_entered tainted items)
  | _ => exact .inl rfl

namespace Bindings

variable {bindings : Bindings} {name : String} {found : Expr}

theorem lookup_cons_of_ne {key : String} (other : name ≠ key) (value : Expr) (rest : List (String × Expr)) :
    ((key, value) :: rest).lookup name = rest.lookup name := by
  rw [lookup_cons, beq_false_of_ne other]

theorem lookup_erase (bindings : Bindings) (erased name : String) :
    (bindings.erase erased).lookup name = if name = erased then none else bindings.lookup name := by
  obtain ⟨values, pending⟩ := bindings
  simp only [erase, lookup]
  induction values with
  | nil => simp
  | cons entry rest ih =>
    obtain ⟨key, value⟩ := entry
    by_cases gone : key = erased
    · rw [filter_cons_of_neg (by simp [gone]), ih]
      by_cases asked : name = erased
      · simp [asked]
      · rw [if_neg asked, if_neg asked, lookup_cons_of_ne (gone ▸ asked)]
    · rw [filter_cons_of_pos (by simp [gone])]
      by_cases asked : name = key
      · subst asked
        rw [if_neg gone, lookup_cons_self, lookup_cons_self]
      · rw [lookup_cons_of_ne asked, lookup_cons_of_ne asked, ih]

theorem lookup_insert (bindings : Bindings) (bound name : String) (value : Expr) :
    (bindings.insert bound value).lookup name = if name = bound then some value else bindings.lookup name := by
  by_cases same : name = bound
  · simp [insert, lookup, same]
  · have other := lookup_erase bindings bound name
    rw [if_neg same] at other ⊢
    exact (lookup_cons_of_ne same value _).trans other

theorem forget_items {line : Nat} {shape : Expr.Shape Expr} {items : List Expr} (bindings : Bindings)
    (sequence : shape = .tuple items ∨ shape = .list items) :
    bindings.forget ⟨line, shape⟩ = items.foldl (fun known item => forget item known) bindings := by
  rcases sequence with rfl | rfl <;> rw [forget] <;>
    exact foldl_attach (f := fun known item => forget item known)

/-- What forgetting a target does: the waiting assignment stays, and what is still known of a name was known before,
    and the name is none of the target. -/
structure Forgets (name : String) (target : Expr) (bindings : Bindings) : Prop where
  pending : (bindings.forget target).pending = bindings.pending
  lookup : ∀ found, (bindings.forget target).lookup name = some found →
    bindings.lookup name = some found ∧ ¬ target.Binds name

theorem foldl_forgets {items : List Expr} (each : ∀ item ∈ items, ∀ known, Forgets name item known) :
    (items.foldl (fun known item => forget item known) bindings).pending = bindings.pending ∧
      ∀ found, (items.foldl (fun known item => forget item known) bindings).lookup name = some found →
        bindings.lookup name = some found ∧ ∀ item ∈ items, ¬ item.Binds name := by
  induction items generalizing bindings with
  | nil => exact ⟨rfl, fun found left => ⟨left, by simp⟩⟩
  | cons item rest ih =>
    have first := each item mem_cons_self bindings
    have later := @ih (bindings.forget item) fun other member => each other (mem_cons_of_mem _ member)
    refine ⟨later.1.trans first.pending, fun found left => ?_⟩
    obtain ⟨kept, others⟩ := later.2 found left
    obtain ⟨known, free⟩ := first.lookup found kept
    exact ⟨known, by simpa using ⟨free, others⟩⟩

theorem forgets (name : String) (target : Expr) (bindings : Bindings) : Forgets name target bindings := by
  induction size : sizeOf target using Nat.strongRecOn generalizing target bindings with
  | ind size ih =>
    subst size
    have below : ∀ child ∈ target.children, ∀ known, Forgets name child known :=
      fun child member known => ih _ (Expr.sizeOf_child member) child known rfl
    rcases target with ⟨line, shape⟩
    cases shape with
    | identifier written =>
      refine ⟨by rw [forget]; rfl, fun found left => ?_⟩
      rw [forget, lookup_erase] at left
      split at left
      · cases left
      · rename_i other
        exact ⟨left, fun binds => by cases binds; exact other rfl⟩
    | tuple items =>
      have whole := @foldl_forgets bindings name items below
      rw [← forget_items bindings (.inl rfl)] at whole
      refine ⟨whole.1, fun found left => ⟨(whole.2 found left).1, fun binds => ?_⟩⟩
      cases binds with
      | tuple _ member inner => exact (whole.2 found left).2 _ member inner
    | list items =>
      have whole := @foldl_forgets bindings name items below
      rw [← forget_items bindings (.inr rfl)] at whole
      refine ⟨whole.1, fun found left => ⟨(whole.2 found left).1, fun binds => ?_⟩⟩
      cases binds with
      | list _ member inner => exact (whole.2 found left).2 _ member inner
    | starred inner =>
      have whole := below inner (by simp [Expr.children, Expr.Shape.children]) bindings
      have same : bindings.forget ⟨line, .starred inner⟩ = bindings.forget inner := by rw [forget]
      refine ⟨by rw [same, whole.pending], fun found left => ?_⟩
      rw [same] at left
      exact ⟨(whole.lookup found left).1, fun binds => by
        cases binds with | starred _ inner => exact (whole.lookup found left).2 inner⟩
    | _ =>
      refine ⟨by rw [forget], fun found left => ?_⟩
      rw [forget] at left
      exact ⟨left, fun binds => by cases binds⟩

/-- What one target records for a name: the value that the assignment gives it, or the bare name if that is too
    large. -/
def RecordsAt (bindings : Bindings) (assignment : Assignment) (value target : Expr) (name : String)
    (recorded : Expr) : Prop :=
  target.shape = .identifier name ∧ ∃ resolved, bindings.assigned? assignment name value = some resolved ∧
    recorded = if isSmall resolved then resolved else target

def Records (bindings : Bindings) (assignment : Assignment) (name : String) (recorded : Expr) : Prop :=
  ∃ value earlier target later, assignment.value = some value ∧ assignment.targets = earlier ++ target :: later ∧
    (earlier.foldl (bindTarget assignment value) bindings).RecordsAt assignment value target name recorded

theorem lookup_bindTarget {assignment : Assignment} {value target : Expr}
    (left : (bindTarget assignment value bindings target).lookup name = some found) :
    (bindings.lookup name = some found ∧ ¬ target.Binds name) ∨
      bindings.RecordsAt assignment value target name found := by
  rcases target with ⟨line, shape⟩
  cases shape with
  | identifier written =>
    simp only [bindTarget] at left
    by_cases same : written = name
    · subst same
      right
      refine ⟨rfl, ?_⟩
      cases given : bindings.assigned? assignment written value with
      | some resolved =>
        simp only [given, lookup_insert, ↓reduceIte, Option.some.injEq] at left
        exact ⟨resolved, rfl, left.symm⟩
      | none =>
        -- only an addition to an unknown value records nothing
        rw [given] at left
        unfold assigned? at given
        split at given
        · cases given
        · dsimp only at left
          rw [left] at given
          cases given
    · refine .inl ⟨?_, fun binds => by cases binds; exact same rfl⟩
      split at left
      · rwa [lookup_insert, if_neg (Ne.symm same)] at left
      · exact left
  | _ => exact .inl ((forgets name _ bindings).lookup found left)

theorem lookup_foldl_bindTarget {assignment : Assignment} {value : Expr} {targets : List Expr}
    (left : (targets.foldl (bindTarget assignment value) bindings).lookup name = some found) :
    (bindings.lookup name = some found ∧ ∀ target ∈ targets, ¬ target.Binds name) ∨
      ∃ earlier target later, targets = earlier ++ target :: later ∧
        (earlier.foldl (bindTarget assignment value) bindings).RecordsAt assignment value target name found := by
  induction targets using List.reverseRecOn with
  | nil => exact .inl ⟨left, by simp⟩
  | append_singleton targets target ih =>
    rw [foldl_concat] at left
    rcases lookup_bindTarget left with ⟨kept, free⟩ | recorded
    · rcases ih kept with ⟨known, others⟩ | ⟨earlier, first, later, rfl, recorded⟩
      · exact .inl ⟨known, by simpa [or_imp, forall_and] using ⟨others, free⟩⟩
      · exact .inr ⟨earlier, first, later ++ [target], by simp, recorded⟩
    · exact .inr ⟨targets, target, [], rfl, recorded⟩

theorem lookup_observe {assignment : Assignment} (left : (bindings.observe assignment).lookup name = some found) :
    (bindings.lookup name = some found ∧
      (assignment.value.isSome → ∀ target ∈ assignment.targets, ¬ target.Binds name)) ∨
      bindings.Records assignment name found := by
  unfold observe at left
  cases given : assignment.value with
  | none =>
    rw [given] at left
    exact .inl ⟨left, by simp⟩
  | some value =>
    rw [given] at left
    rcases lookup_foldl_bindTarget left with ⟨known, free⟩ | ⟨earlier, target, later, split, recorded⟩
    · exact .inl ⟨known, fun _ => free⟩
    · exact .inr ⟨value, earlier, target, later, given, split, recorded⟩

theorem pending_observe (bindings : Bindings) (assignment : Assignment) :
    (bindings.observe assignment).pending = bindings.pending := by
  unfold observe
  cases assignment.value with
  | none => rfl
  | some value =>
    dsimp only
    induction assignment.targets generalizing bindings with
    | nil => rfl
    | cons target rest ih =>
      rw [foldl_cons, ih]
      unfold bindTarget
      split
      · split <;> rfl
      · exact (forgets "" target bindings).pending

theorem pending_settle (bindings : Bindings) : bindings.settle.pending = none := by
  unfold settle
  split
  · exact pending_observe _ _
  · assumption

theorem settle_of_none (none : bindings.pending = none) : bindings.settle = bindings := by
  rw [settle, none]

theorem settle_step {stmt : Stmt} (other : stmt.shape.kind ≠ .assign) (bindings : Bindings) :
    (bindings.step (.stmt stmt)).settle = bindings.step (.stmt stmt) := by
  apply settle_of_none
  rcases stmt with ⟨line, shape⟩
  cases shape with
  | assign => exact absurd rfl other
  | forLoop isAsync target => exact (forgets "" target _).pending.trans (pending_settle bindings)
  | _ => exact pending_settle bindings

/-- Recorded by an assignment among some visited nodes, given with the bindings when they were reached. -/
def Recorded (seen : List (Node × Bindings)) (name : String) (recorded : Expr) : Prop :=
  ∃ stmt reached assignment, (.stmt stmt, reached) ∈ seen ∧ stmt.shape = .assign assignment ∧
    { reached with pending := none }.Records assignment name recorded

def Renewed (seen : List (Node × Bindings)) (name : String) (bindings : Bindings) : Prop :=
  ∀ recorded, bindings.lookup name = some recorded → Recorded seen name recorded

theorem Renewed.append {seen : List (Node × Bindings)} (renewed : Renewed seen name bindings)
    (more : List (Node × Bindings)) : Renewed (seen ++ more) name bindings := by
  intro recorded left
  obtain ⟨stmt, reached, assignment, member, rest⟩ := renewed recorded left
  exact ⟨stmt, reached, assignment, mem_append_left _ member, rest⟩

theorem lookup_step (bindings : Bindings) (stmt : Stmt) (name : String) :
    (∀ found, (bindings.step (.stmt stmt)).lookup name = some found → bindings.settle.lookup name = some found) ∧
      ∀ found, (bindings.step (.stmt stmt)).settle.lookup name = some found →
        (bindings.settle.lookup name = some found ∧ (stmt.Rebinds name → stmt.shape.kind = .withItems)) ∨
          Recorded [(.stmt stmt, bindings.step (.stmt stmt))] name found := by
  rcases stmt with ⟨line, shape⟩
  cases shape with
  | assign assignment =>
    refine ⟨fun found left => left, fun found left => ?_⟩
    rcases lookup_observe left with ⟨known, free⟩ | records
    · refine .inl ⟨known, ?_⟩
      rintro ⟨target, member, binds⟩
      simp only [Stmt.targets] at member
      split at member
      · rename_i given
        exact absurd binds (free given target member)
      · cases member
    · exact .inr ⟨_, _, assignment, mem_cons_self, rfl, records⟩
  | forLoop isAsync target iterated body orelse =>
    have gone := forgets name target bindings.settle
    refine ⟨fun found left => (gone.lookup found left).1, fun found left => .inl ?_⟩
    rw [settle_step (by simp [Stmt.Shape.kind])] at left
    obtain ⟨known, free⟩ := gone.lookup found left
    refine ⟨known, ?_⟩
    rintro ⟨other, member, binds⟩
    rw [mem_singleton.mp member] at binds
    exact absurd binds free
  | withItems isAsync items body =>
    refine ⟨fun found left => left, fun found left => .inl ⟨?_, fun _ => rfl⟩⟩
    rwa [settle_step (by simp [Stmt.Shape.kind])] at left
  | _ =>
    refine ⟨fun found left => left, fun found left => .inl ⟨?_, ?_⟩⟩
    · rwa [settle_step (by simp [Stmt.Shape.kind])] at left
    rintro ⟨target, member, _⟩
    cases member

theorem Renewed.scanFrom {seen between rest : List (Node × Bindings)} {nodes : List Node} {node : Node}
    {known : Bindings} (settled : Renewed seen name bindings.settle)
    (scanned : bindings.scanFrom nodes = between ++ (node, known) :: rest)
    (effective : Renewed seen name bindings ∨
      ∃ stmt reached, (.stmt stmt, reached) ∈ between ++ [(node, known)]) :
    Renewed (seen ++ between) name known := by
  induction between generalizing bindings nodes seen with
  | nil =>
    obtain _ | ⟨first, others⟩ := nodes
    · cases scanned
    · cases scanned
      rw [append_nil]
      cases node with
      | stmt stmt => exact fun found left => settled found ((lookup_step bindings stmt name).1 found left)
      | program | block | expr =>
        rcases effective with renewed | ⟨stmt, reached, member⟩
        · exact renewed
        · cases mem_singleton.mp member
  | cons visited between ih =>
    obtain _ | ⟨first, others⟩ := nodes
    · cases scanned
    · simp only [Bindings.scanFrom, cons_append, List.cons.injEq] at scanned
      obtain ⟨rfl, onward⟩ := scanned
      rw [append_cons]
      refine ih ?_ onward ?_
      · cases first with
        | stmt stmt =>
          intro found left
          rcases (lookup_step bindings stmt name).2 found left with ⟨kept, _⟩ | ⟨_, _, _, member, rest⟩
          · exact settled.append _ found kept
          · exact ⟨_, _, _, mem_append_right _ member, rest⟩
        | program | block | expr => exact settled.append _
      · cases first with
        | stmt stmt =>
          exact .inl fun found left => settled.append _ found ((lookup_step bindings stmt name).1 found left)
        | program | block | expr =>
          refine effective.imp (·.append _) ?_
          rintro ⟨stmt, reached, member⟩
          exact ⟨stmt, reached, by simpa using member⟩

theorem scanFrom_split {first rest : List (Node × Bindings)} {nodes : List Node} {node : Node} {known : Bindings}
    (scanned : bindings.scanFrom nodes = first ++ (node, known) :: rest) :
    known = step ((first.getLast?.map Prod.snd).getD bindings) node ∧ ∃ later, rest = known.scanFrom later := by
  induction first generalizing bindings nodes with
  | nil =>
    obtain _ | ⟨first, others⟩ := nodes
    · cases scanned
    · cases scanned
      exact ⟨rfl, others, rfl⟩
  | cons visited first ih =>
    obtain _ | ⟨head, others⟩ := nodes
    · cases scanned
    · simp only [scanFrom, cons_append, List.cons.injEq] at scanned
      obtain ⟨rfl, onward⟩ := scanned
      obtain ⟨same, later⟩ := ih onward
      refine ⟨?_, later⟩
      rw [same, List.getLast?_cons]
      cases first.getLast? <;> rfl

theorem resolve_identifier (bindings : Bindings) (line : Nat) (name : String) :
    bindings.resolve ⟨line, .identifier name⟩ = (bindings.lookup name).getD ⟨line, .identifier name⟩ := by
  rw [resolve]

/-- Once a statement that rebinds a name has taken effect, the name stands for itself or for what that statement or
    one after it recorded. An assignment has taken effect when the next statement is reached. Only a `with` leaves
    all names as they were, although taint is handed to its targets as to those of other statements. -/
theorem scan_renews {scope : Scope} {first between rest : List (Node × Bindings)} {stmt : Stmt} {node : Node}
    {reached known : Bindings} {name : String} (line : Nat)
    (scanned : scan scope = first ++ (.stmt stmt, reached) :: (between ++ (node, known) :: rest))
    (rebinds : stmt.Rebinds name)
    (effective : stmt.shape.kind = .assign → ∃ next settled, (.stmt next, settled) ∈ between ++ [(node, known)]) :
    (stmt.shape.kind ≠ .withItems →
      known.resolve ⟨line, .identifier name⟩ = ⟨line, .identifier name⟩ ∨
        Recorded ((.stmt stmt, reached) :: between) name (known.resolve ⟨line, .identifier name⟩)) ∧
    (stmt.shape.kind = .withItems → ∀ early last before, first = early ++ [(last, before)] →
      reached.resolve ⟨line, .identifier name⟩ = before.settle.resolve ⟨line, .identifier name⟩) ∧
    ∀ (policy : TaintPolicy) (tainted : List String),
      (policy.handovers tainted stmt).map Prod.fst = stmt.targets ∨
        (policy.handovers tainted stmt = [] ∧ ∃ assignment value, stmt.shape = .assign assignment ∧
          assignment.value = some value ∧ assignment.augmented.isSome ∧
          policy.isTainted tainted value = false) := by
  obtain ⟨same, later, onward⟩ := scanFrom_split scanned
  refine ⟨fun covered => ?_, ?_, fun policy tainted => policy.map_handovers tainted stmt⟩
  · have settled : Renewed [(.stmt stmt, reached)] name reached.settle := by
      intro found left
      rw [same] at left ⊢
      rcases (lookup_step _ stmt name).2 found left with ⟨_, none⟩ | recorded
      · exact absurd (none rebinds) covered
      · exact recorded
    have renewed : Renewed ([(.stmt stmt, reached)] ++ between) name known := by
      refine settled.scanFrom onward.symm ?_
      by_cases waits : stmt.shape.kind = .assign
      · exact .inr (effective waits)
      · rw [same, settle_step waits] at settled
        exact .inl (same ▸ settled)
    rw [resolve_identifier]
    cases found : known.lookup name with
    | none => exact .inl rfl
    | some recorded => exact .inr (renewed recorded found)
  · rintro loop early last before rfl
    rw [resolve_identifier, resolve_identifier, same, List.getLast?_concat]
    rcases stmt with ⟨_, shape⟩
    cases shape with
    | withItems => rfl
    | _ => cases loop

def extending : Stmt := ⟨2, .assign ⟨[⟨2, .identifier "q"⟩], some ⟨2, .string "b"⟩, none, some .add⟩⟩

def extended : Scope :=
  ⟨none, [⟨1, .assign ⟨[⟨1, .identifier "q"⟩], some ⟨1, .string "a"⟩, none, none⟩⟩, extending,
    ⟨3, .expr ⟨3, .identifier "q"⟩⟩]⟩

theorem scan_renews_extended :
    extending.Rebinds "q" ∧ ∃ reached known between,
      scan extended = (scan extended).take 3 ++ (.stmt extending, reached) ::
        (between ++ [(.expr ⟨3, .identifier "q"⟩, known)]) ∧
      Recorded ((.stmt extending, reached) :: between) "q"
        ⟨2, .binary .add ⟨1, .string "a"⟩ ⟨2, .string "b"⟩⟩ := by
  have rebinds : extending.Rebinds "q" := ⟨⟨2, .identifier "q"⟩, mem_singleton.mpr rfl, .identifier 2⟩
  let known : Bindings := ⟨[("q", ⟨2, .binary .add ⟨1, .string "a"⟩ ⟨2, .string "b"⟩⟩)], none⟩
  have scanned : scan extended = (scan extended).take 3 ++
      (.stmt extending, ⟨[("q", ⟨1, .string "a"⟩)], some ⟨[⟨2, .identifier "q"⟩], some ⟨2, .string "b"⟩, none, some .add⟩⟩) ::
      (((scan extended).drop 4).take 3 ++ [(.expr ⟨3, .identifier "q"⟩, known)]) := by with_unfolding_all rfl
  have next : (.stmt ⟨3, .expr ⟨3, .identifier "q"⟩⟩, known) ∈
      ((scan extended).drop 4).take 3 ++ [(.expr ⟨3, .identifier "q"⟩, known)] := by
    have third : (((scan extended).drop 4).take 3)[2]? = some (.stmt ⟨3, .expr ⟨3, .identifier "q"⟩⟩, known) := by
      with_unfolding_all rfl
    exact mem_append_left _ (mem_of_getElem? third)
  obtain ⟨renewed, _⟩ := scan_renews 3 scanned rebinds fun _ => ⟨_, _, next⟩
  refine ⟨rebinds, _, known, _, scanned, ?_⟩
  have resolved : known.resolve ⟨3, .identifier "q"⟩ = ⟨2, .binary .add ⟨1, .string "a"⟩ ⟨2, .string "b"⟩⟩ := by
    with_unfolding_all rfl
  rw [resolved] at renewed
  rcases renewed (by simp [extending, Stmt.Shape.kind]) with same | recorded
  · cases same
  · exact recorded

def reopened : Scope :=
  ⟨none, [⟨1, .assign ⟨[⟨1, .identifier "q"⟩], some ⟨1, .string "a"⟩, none, none⟩⟩,
    ⟨2, .withItems false [⟨⟨2, .identifier "c"⟩, some ⟨2, .identifier "q"⟩⟩]
      ⟨3, [⟨3, .expr ⟨3, .identifier "q"⟩⟩]⟩⟩]⟩

/-- In the body of a `with` its target still stands for what was assigned to it before. -/
theorem scan_not_renewed :
    ¬ ∀ (scope : Scope) (first between rest : List (Node × Bindings)) (stmt : Stmt) (node : Node)
        (reached known : Bindings) (name : String) (line : Nat),
      scan scope = first ++ (.stmt stmt, reached) :: (between ++ (node, known) :: rest) → stmt.Rebinds name →
      (stmt.shape.kind = .assign → ∃ next settled, (.stmt next, settled) ∈ between ++ [(node, known)]) →
      known.resolve ⟨line, .identifier name⟩ = ⟨line, .identifier name⟩ ∨
        Recorded ((.stmt stmt, reached) :: between) name (known.resolve ⟨line, .identifier name⟩) := by
  intro always
  let known : Bindings := ⟨[("q", ⟨1, .string "a"⟩)], none⟩
  let stmt : Stmt := ⟨2, .withItems false [⟨⟨2, .identifier "c"⟩, some ⟨2, .identifier "q"⟩⟩]
    ⟨3, [⟨3, .expr ⟨3, .identifier "q"⟩⟩]⟩⟩
  have scanned : scan reopened = (scan reopened).take 3 ++ (.stmt stmt, known) ::
      (((scan reopened).drop 4).take 4 ++ [(.expr ⟨3, .identifier "q"⟩, known)]) := by with_unfolding_all rfl
  have resolved : known.resolve ⟨3, .identifier "q"⟩ = ⟨1, .string "a"⟩ := by with_unfolding_all rfl
  have plain : ((.stmt stmt, known) :: ((scan reopened).drop 4).take 4).all (·.1.kind != .assign) = true := by
    decide +kernel
  rcases always _ _ _ _ stmt _ _ _ "q" 3 scanned ⟨_, mem_singleton.mpr rfl, .identifier 2⟩
    (fun wrong => by cases wrong) with same | ⟨other, reached, assignment, member, shape, _⟩
  · rw [resolved] at same
    cases same
  · have kind := all_eq_true.mp plain _ member
    simp [Node.kind, shape, Stmt.Shape.kind] at kind

end Bindings
end SourceAudit
