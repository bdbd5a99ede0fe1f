import Mathlib.Data.List.Forall2
import SourceAudit.Proofs.Audit.StableSort
import SourceAudit.Proofs.Taint.ScanState
import SourceAudit.Rules.Xss

open List

namespace SourceAudit

theorem flatMap_sublist {α β γ : Type} {f : α → List γ} {g : β → List γ} {values : List α} {others : List β}
    (parts : List.Forall₂ (fun value other => (f value).Sublist (g other)) values others) :
    (values.flatMap f).Sublist (others.flatMap g) := by
  induction parts with
  | nil => exact .slnil
  | cons first _ ih =>
    rw [flatMap_cons, flatMap_cons]
    exact first.append ih

namespace Text

theorem mem_extendUnique {values extra : List String} {value : String} :
    value ∈ extendUnique values extra ↔ value ∈ values ∨ value ∈ extra := by
  unfold extendUnique
  induction extra generalizing values with
  | nil => simp
  | cons first rest ih =>
    rw [foldl_cons, ih]
    by_cases known : values.contains first = true
    · rw [if_pos known, mem_cons]
      rw [contains_iff_mem] at known
      constructor
      · exact fun member => member.imp_right .inr
      · rintro (member | rfl | member)
        · exact .inl member
        · exact .inl known
        · exact .inr member
    · rw [if_neg known, mem_append, mem_singleton, mem_cons, or_assoc]

end Text

namespace TaintPolicy

/-- A policy that suspects no more than another one: its sources are among the other's, and it trusts
    every sanitizer that the other trusts. -/
structure Below (policy other : TaintPolicy) : Prop where
  sources : policy.sources ⊆ other.sources
  sanitizers : other.sanitizers ⊆ policy.sanitizers

theorem isTainted_call (policy : TaintPolicy) (tainted : List String) (line : Nat) (function : Expr)
    (args : List (Argument Expr)) :
    policy.isTainted tainted ⟨line, .call function args⟩ =
      (!function.dottedName.any policy.isSanitizer &&
        (function.dottedName.any policy.isSource ||
          ((Call.receiver? ⟨function, args⟩).any (policy.isTainted tainted) ||
            args.any fun arg => policy.isTainted tainted arg.value))) := by
  have values : (args.attach.any fun arg => policy.isTainted tainted arg.val.value) =
      args.any fun arg => policy.isTainted tainted arg.value := by
    simp
  rw [isTainted]
  dsimp only
  rw [values]
  unfold Call.receiver?
  cases function.dottedName.any policy.isSanitizer with
  | true => rfl
  | false =>
    cases function.dottedName.any policy.isSource with
    | true => rfl
    | false =>
      simp only [Bool.false_eq_true, ↓reduceIte, Bool.not_false, Bool.true_and, Bool.false_or]
      congr 1
      split <;> simp_all

theorem sizeOf_receiver {function value : Expr} {args : List (Argument Expr)} (line : Nat)
    (found : Call.receiver? ⟨function, args⟩ = some value) :
    sizeOf value < sizeOf (Expr.mk line (.call function args)) := by
  have outer : sizeOf function < sizeOf (Expr.mk line (.call function args)) :=
    Expr.sizeOf_child (by simp [Expr.children, Expr.Shape.children])
  unfold Call.receiver? at found
  split at found
  · rename_i shape
    cases found
    have inner : sizeOf value < sizeOf function := by
      dsimp only at shape
      exact Expr.sizeOf_child (by simp [Expr.children, shape, Expr.Shape.children])
    omega
  · cases found

variable {policy other : TaintPolicy} {tainted more : List String}

theorem bind_subset {state wider : Bool} (raises : state = true → wider = true) (grows : tainted ⊆ more)
    (target : Expr) : bind state target tainted ⊆ bind wider target more := by
  intro name member
  rw [mem_bind] at member ⊢
  by_cases same : state = wider
  · subst same
    split at member
    · rename_i bound
      rwa [if_pos bound]
    · rename_i free
      rw [if_neg free]
      exact grows member
  · have clean : state = false := by
      cases state with
      | false => rfl
      | true => exact absurd (raises rfl).symm same
    have dirty : wider = true := by
      cases wider with
      | false => exact absurd clean same
      | true => rfl
    split
    · exact dirty
    · split at member
      · rw [clean] at member
        cases member
      · exact grows member

theorem bindAll_subset {state wider : Bool} (raises : state = true → wider = true) (grows : tainted ⊆ more)
    (targets : List Expr) : bindAll state targets tainted ⊆ bindAll wider targets more := by
  induction targets generalizing tainted more with
  | nil => exact grows
  | cons target rest ih => exact ih (bind_subset raises grows target)

theorem subset_bindAll (grows : tainted ⊆ more) (targets : List Expr) : tainted ⊆ bindAll true targets more := by
  intro name member
  rw [mem_foldl_bind name fun target _ tainted => mem_bind true target tainted name]
  split
  · rfl
  · exact grows member

namespace Below

variable (below : policy.Below other)

include below

theorem isSource {name : String} (source : policy.isSource name = true) : other.isSource name = true := by
  obtain ⟨base, member, within⟩ := any_eq_true.mp source
  exact any_eq_true.mpr ⟨base, below.sources member, within⟩

theorem isSanitizer {name : String} (trusted : other.isSanitizer name = true) :
    policy.isSanitizer name = true := by
  obtain ⟨ending, member, ends⟩ := any_eq_true.mp trusted
  exact any_eq_true.mpr ⟨ending, below.sanitizers member, ends⟩

variable (grows : tainted ⊆ more)

include grows

theorem isTaintedName {name : String} (suspect : policy.isTaintedName tainted name = true) :
    other.isTaintedName more name = true := by
  simp only [TaintPolicy.isTaintedName, Bool.or_eq_true, contains_iff_mem] at suspect ⊢
  exact suspect.imp (fun member => grows member) below.isSource

theorem isTainted {expr : Expr} (suspect : policy.isTainted tainted expr = true) :
    other.isTainted more expr = true := by
  induction size : sizeOf expr using Nat.strongRecOn generalizing expr with
  | ind size ih =>
    subst size
    have child : ∀ part ∈ expr.children, policy.isTainted tainted part = true →
        other.isTainted more part = true :=
      fun part member suspect => ih _ (Expr.sizeOf_child member) suspect rfl
    rcases expr with ⟨line, shape⟩
    cases shape with
    | identifier name =>
      rw [TaintPolicy.isTainted] at suspect ⊢
      exact below.isTaintedName grows suspect
    | «attribute» value name =>
      rw [TaintPolicy.isTainted] at suspect ⊢
      simp only [Bool.or_eq_true, Option.any_eq_true] at suspect ⊢
      rcases suspect with ⟨path, found, suspect⟩ | suspect
      · exact .inl ⟨path, found, below.isTaintedName grows suspect⟩
      · exact .inr (child value (by simp [Expr.children, Expr.Shape.children]) suspect)
    | subscript value index =>
      rw [TaintPolicy.isTainted] at suspect ⊢
      exact child value (by simp [Expr.children, Expr.Shape.children]) suspect
    | call function args =>
      rw [isTainted_call] at suspect ⊢
      simp only [Bool.and_eq_true, Bool.not_eq_true', Bool.or_eq_true, Option.any_eq_true,
        Option.any_eq_false, any_eq_true] at suspect ⊢
      obtain ⟨plain, reason⟩ := suspect
      refine ⟨?_, ?_⟩
      · intro callee found
        have untrusted := plain callee found
        rw [← Bool.not_eq_true] at untrusted ⊢
        exact fun trusted => untrusted (below.isSanitizer trusted)
      · rcases reason with ⟨callee, found, source⟩ | ⟨value, found, suspect⟩ | ⟨arg, member, suspect⟩
        · exact .inl ⟨callee, found, below.isSource source⟩
        · exact .inr (.inl ⟨value, found, ih _ (sizeOf_receiver line found) suspect rfl⟩)
        · refine .inr (.inr ⟨arg, member, child arg.value ?_ suspect⟩)
          exact mem_cons_of_mem _ (mem_map_of_mem member)
    | lambda params body =>
      rw [TaintPolicy.isTainted] at suspect
      cases suspect
    | yield value delegates =>
      rw [TaintPolicy.isTainted] at suspect
      cases suspect
    | _ =>
      rw [TaintPolicy.isTainted] at suspect ⊢
      simp only [any_eq_true, mem_attach, true_and, Subtype.exists] at suspect ⊢
      obtain ⟨part, member, suspect⟩ := suspect
      exact ⟨part, member, child part member suspect⟩

theorem any_isTainted {values : List Expr} (suspect : values.any (policy.isTainted tainted) = true) :
    values.any (other.isTainted more) = true := by
  obtain ⟨value, member, suspect⟩ := any_eq_true.mp suspect
  exact any_eq_true.mpr ⟨value, member, below.isTainted grows suspect⟩

theorem enter (item : WithItem) : policy.enter tainted item ⊆ other.enter more item := by
  unfold TaintPolicy.enter
  split
  · exact bind_subset (below.isTainted grows) grows _
  · exact grows

theorem foldl_enter (items : List WithItem) :
    items.foldl policy.enter tainted ⊆ items.foldl other.enter more := by
  induction items generalizing tainted more with
  | nil => exact grows
  | cons item rest ih => exact ih (below.enter grows item)

theorem observe (stmt : Stmt) : policy.observe tainted stmt ⊆ other.observe more stmt := by
  rcases stmt with ⟨line, shape⟩
  cases shape with
  | assign assignment =>
    rcases assignment with ⟨targets, value, hint, augmented⟩
    cases value with
    | none => exact grows
    | some value =>
      have raises : policy.isTainted tainted value = true → other.isTainted more value = true :=
        below.isTainted grows
      simp only [TaintPolicy.observe]
      cases dirty : policy.isTainted tainted value with
      | true =>
        rw [raises dirty, Bool.not_true, Bool.and_false]
        exact bindAll_subset id grows targets
      | false =>
        cases other.isTainted more value with
        | false =>
          split
          · exact grows
          · exact bindAll_subset id grows targets
        | true =>
          rw [Bool.not_true, Bool.and_false]
          split
          · exact subset_bindAll grows targets
          · exact bindAll_subset (fun _ => rfl) grows targets
  | forLoop isAsync target iterated body orelse => exact bind_subset (below.isTainted grows) grows target
  | withItems isAsync items body => exact below.foldl_enter grows items
  | _ => exact grows

theorem observeNode (node : Node) : policy.observeNode tainted node ⊆ other.observeNode more node := by
  cases node with
  | stmt stmt => exact below.observe grows stmt
  | program value | block value | expr value => exact grows

theorem scanFrom (nodes : List Node) :
    List.Forall₂ (fun shown wider => shown.1 = wider.1 ∧ shown.2 ⊆ wider.2)
      (policy.scanFrom tainted nodes) (other.scanFrom more nodes) := by
  induction nodes generalizing tainted more with
  | nil => exact .nil
  | cons node rest ih => exact .cons ⟨rfl, grows⟩ (ih (below.observeNode grows node))

end Below

theorem Below.scan (below : policy.Below other) (scope : Scope) :
    List.Forall₂ (fun shown wider => shown.1 = wider.1 ∧ shown.2 ⊆ wider.2) (policy.scan scope)
      (other.scan scope) :=
  below.scanFrom (List.Subset.refl []) scope.nodes

end TaintPolicy

theorem Call.matched?_mono {call : Call} {names more : List String} {sink : String} (grows : names ⊆ more)
    (found : call.matched? names = some sink) : call.matched? more = some sink := by
  unfold matched? at found ⊢
  split at found
  · rename_i callee _
    split at found
    · rename_i ends
      obtain ⟨name, member, ends⟩ := any_eq_true.mp ends
      rw [if_pos (any_eq_true.mpr ⟨name, grows member, ends⟩)]
      exact found
    · cases found
  · -- without a callee the sink is the name of the method itself, whichever entry it comes from
    have passes := List.find?_some found
    have some : (more.find? fun name => Dotted.isSimple name && call.methodName == some name).isSome = true :=
      List.find?_isSome.mpr ⟨sink, grows (mem_of_find?_eq_some found), passes⟩
    obtain ⟨name, found'⟩ := Option.isSome_iff_exists.mp some
    have passes' := List.find?_some found'
    simp only [Bool.and_eq_true, beq_iff_eq] at passes passes'
    rw [found', ← passes'.2, passes.2]

namespace Xss

structure Below (rule other : Xss) : Prop where
  taint : rule.taint.Below other.taint
  sinks : rule.sinks ⊆ other.sinks
  severity : rule.severity = other.severity

namespace Below

variable {rule other : Xss} (below : rule.Below other)

include below

theorem flowMessages {tainted more : List String} (grows : tainted ⊆ more) (node : Node) :
    (rule.flowMessages node tainted).Sublist (other.flowMessages node more) := by
  have suspects := @TaintPolicy.Below.isTainted _ _ _ _ below.taint grows
  unfold Xss.flowMessages
  split
  · rename_i assignment
    split
    · rename_i dirty
      rw [Option.any_eq_true] at dirty
      obtain ⟨value, found, dirty⟩ := dirty
      rw [if_pos ((Option.any_eq_true _ _).mpr ⟨value, found, suspects dirty⟩)]
    · exact nil_sublist _
  · split
    · exact nil_sublist _
    · rename_i call _
      split
      · exact nil_sublist _
      · rename_i sink matched
        split
        · rename_i dirty
          rw [Call.matched?_mono below.sinks matched]
          dsimp only
          rw [if_pos (below.taint.any_isTainted grows dirty)]
        · exact nil_sublist _

theorem flows (program : Program) : (rule.flows program).Sublist (other.flows program) := by
  unfold Xss.flows
  refine flatMap_sublist (forall₂_same.mpr fun scope _ => flatMap_sublist ?_)
  refine (below.taint.scan scope).imp ?_
  rintro ⟨node, tainted⟩ ⟨_, more⟩ ⟨rfl, grows⟩
  exact (below.flowMessages grows node).map _

theorem check (tests : Tests) (program : Program) :
    (rule.check tests program).Sublist (other.check tests program) := by
  unfold Xss.check
  rw [below.severity]
  exact Finding.ranks_line.mergeSort_sublist (((below.flows program).append (.refl _)).map _)

end Below

/-- Settings that add sources and sinks or take sanitizers away. -/
structure Widens (options wider : RuleOptions) : Prop where
  sources : options.strings "sources" ⊆ wider.strings "sources"
  sanitizers : wider.strings "sanitizers" ⊆ options.strings "sanitizers"
  sinks : options.strings "sinks" ⊆ wider.strings "sinks"

theorem Widens.below {options wider : RuleOptions} (widens : Widens options wider) :
    (ofOptions options).Below (ofOptions wider) where
  taint := {
    sources := append_subset.mpr
      ⟨subset_append_left _ _, subset_append_of_subset_right _ widens.sources⟩
    sanitizers := append_subset.mpr
      ⟨subset_append_left _ _, subset_append_of_subset_right _ widens.sanitizers⟩ }
  sinks := by
    intro sink member
    rw [ofOptions, Text.mem_extendUnique] at member ⊢
    exact member.imp_right fun added => widens.sinks added
  severity := rfl

end Xss

/-- A scan with a policy that suspects more shows every node with at least the same tainted names, and
    every expression that was tainted there still is. So sources and sinks that are added to the settings of
    the search for unescaped output only add findings, and sanitizers only take some away. -/
theorem TaintPolicy.scan_monotone {policy other : TaintPolicy} (below : policy.Below other)
    {options wider : RuleOptions} (widens : Xss.Widens options wider) :
    (∀ scope : Scope, List.Forall₂
      (fun shown more => shown.1 = more.1 ∧ shown.2 ⊆ more.2 ∧
        ∀ expr, policy.isTainted shown.2 expr = true → other.isTainted more.2 expr = true)
      (policy.scan scope) (other.scan scope)) ∧
    ∀ (tests : Xss.Tests) (program : Program),
      ((Xss.ofOptions options).check tests program).Sublist ((Xss.ofOptions wider).check tests program) := by
  refine ⟨fun scope => (below.scan scope).imp ?_, widens.below.check⟩
  rintro shown more ⟨same, grows⟩
  exact ⟨same, grows, fun expr => below.isTainted grows⟩

namespace Xss

def trusting : RuleOptions where
  options := [("sanitizers", .array [.string "clean"])]

def suspecting : RuleOptions where
  options := [("sources", .array [.string "load"]), ("sinks", .array [.string "send"])]

theorem trusting_widens : Widens trusting suspecting where
  sources := by decide
  sanitizers := by decide
  sinks := by decide

/-- The lines `x, y = load(), 1`, `x += clean(input())`, `send(x)` and `print(input())`. -/
def mixedFlows : Program :=
  let name (line : Nat) (text : String) : Expr := ⟨line, .identifier text⟩
  let call (line : Nat) (text : String) (args : List Expr) : Expr :=
    ⟨line, .call (name line text) (args.map (⟨.positional, ·⟩))⟩
  ⟨"a.py",
    [⟨1, .assign ⟨[⟨1, .tuple [name 1 "x", name 1 "y"]⟩],
      some ⟨1, .tuple [call 1 "load" [], ⟨1, .int 1⟩]⟩, none, none⟩⟩,
     ⟨2, .assign ⟨[name 2 "x"], some (call 2 "clean" [call 2 "input" []]), none, some .add⟩⟩,
     ⟨3, .expr (call 3 "send" [name 3 "x"])⟩,
     ⟨4, .expr (call 4 "print" [call 4 "input" []])⟩]⟩

theorem trusting_check : (ofOptions trusting).check .standard mixedFlows =
    [id.finding mixedFlows 4 .error "User input reaches `print` without HTML escaping"] := by
  decide +kernel

theorem suspecting_flows : (ofOptions suspecting).flows mixedFlows ++ literals .standard mixedFlows =
    [(3, "User input reaches `send` without HTML escaping"),
     (4, "User input reaches `print` without HTML escaping")] := by
  decide +kernel

theorem suspecting_check : (ofOptions suspecting).check .standard mixedFlows =
    [id.finding mixedFlows 3 .error "User input reaches `send` without HTML escaping",
     id.finding mixedFlows 4 .error "User input reaches `print` without HTML escaping"] := by
  rw [check, suspecting_flows]
  exact mergeSort_of_pairwise (by decide)

theorem scan_monotone_mixedFlows :
    (ofOptions trusting).taint.Below (ofOptions suspecting).taint ∧ Widens trusting suspecting ∧
    List.Forall₂
      (fun shown more => shown.1 = more.1 ∧ shown.2 ⊆ more.2 ∧
        ∀ expr, (ofOptions trusting).taint.isTainted shown.2 expr = true →
          (ofOptions suspecting).taint.isTainted more.2 expr = true)
      ((ofOptions trusting).taint.scan ⟨none, mixedFlows.statements⟩)
      ((ofOptions suspecting).taint.scan ⟨none, mixedFlows.statements⟩) ∧
    ((ofOptions trusting).check .standard mixedFlows).Sublist ((ofOptions suspecting).check .standard mixedFlows) ∧
    ((ofOptions trusting).check .standard mixedFlows).map (·.line) = [4] ∧
    ((ofOptions suspecting).check .standard mixedFlows).map (·.line) = [3, 4] := by
  have below := trusting_widens.below.taint
  obtain ⟨scans, findings⟩ := TaintPolicy.scan_monotone below trusting_widens
  refine ⟨below, trusting_widens, scans _, findings .standard mixedFlows, ?_, ?_⟩
  · rw [trusting_check]
    rfl
  · rw [suspecting_check]
    rfl

end Xss
end SourceAudit
