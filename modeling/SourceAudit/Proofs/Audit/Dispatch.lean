import Mathlib.Data.List.Sort
import Mathlib.Logic.Relation
import SourceAudit.Proofs.Audit.Registry
import SourceAudit.Proofs.Audit.StableSort

open List

namespace SourceAudit

/-- Rules at work. The errors stand in the order in which they came in. -/
structure Dispatch where
  running : List Rule
  collector : Collector
  errors : List RuleError := []

namespace Dispatch

inductive Finishes (program : Program) : Dispatch → Dispatch → Prop where
  | reports {before after : List Rule} {rule : Rule} {findings : List Finding} {collector : Collector}
      {errors : List RuleError} (passes : rule.check program = .ok findings) :
      Finishes program ⟨before ++ rule :: after, collector, errors⟩
        ⟨before ++ after, collector.extend findings, errors⟩
  | fails {before after : List Rule} {rule : Rule} {message : String} {collector : Collector}
      {errors : List RuleError} (breaks : rule.check program = .error message) :
      Finishes program ⟨before ++ rule :: after, collector, errors⟩
        ⟨before ++ after, collector, errors ++ [⟨rule.name, message⟩]⟩

structure Completes (program : Program) (first last : Dispatch) : Prop where
  steps : Relation.ReflTransGen (Finishes program) first last
  done : last.running = []

def sortedErrors (dispatch : Dispatch) : List RuleError :=
  dispatch.errors.mergeSort fun a b => decide (a.rule ≤ b.rule)

def received (dispatch : Dispatch) (batches : List Batch) : Dispatch where
  running := []
  collector := dispatch.collector.extend (batches.flatMap Batch.findings)
  errors := dispatch.errors ++ batches.filterMap Batch.error?

variable {program : Program} {first next last : Dispatch}

theorem received_nil (idle : first.running = []) : first.received [] = first := by
  obtain ⟨running, collector, errors⟩ := first
  simp_all [received, Collector.extend]

theorem received_cons (dispatch : Dispatch) (batch : Batch) (batches : List Batch) :
    dispatch.received (batch :: batches) =
      Dispatch.received ⟨[], dispatch.collector.extend batch.findings, dispatch.errors ++ batch.error?.toList⟩
        batches := by
  cases error : batch.error? <;> simp [received, Collector.extend, error]

theorem received_ok {rule : Rule} {findings : List Finding} (passes : rule.check program = .ok findings)
    (running running' : List Rule) (collector : Collector) (errors : List RuleError) (batches : List Batch) :
    Dispatch.received ⟨running, collector.extend findings, errors⟩ batches =
      Dispatch.received ⟨running', collector, errors⟩ (.ofRule program rule :: batches) := by
  rw [received_cons]
  simp [received, Batch.ofRule, Batch.findings, Batch.error?, passes]

theorem received_error {rule : Rule} {message : String} (breaks : rule.check program = .error message)
    (running running' : List Rule) (collector : Collector) (errors : List RuleError) (batches : List Batch) :
    Dispatch.received ⟨running, collector, errors ++ [⟨rule.name, message⟩]⟩ batches =
      Dispatch.received ⟨running', collector, errors⟩ (.ofRule program rule :: batches) := by
  rw [received_cons]
  simp [received, Collector.extend, Batch.ofRule, Batch.findings, Batch.error?, breaks]

theorem Finishes.batch (finishes : Finishes program first next) :
    ∃ before rule after, first.running = before ++ rule :: after ∧ next.running = before ++ after ∧
      ∀ batches, next.received batches = first.received (.ofRule program rule :: batches) := by
  cases finishes with
  | reports passes => exact ⟨_, _, _, rfl, rfl, received_ok passes _ _ _ _⟩
  | fails breaks => exact ⟨_, _, _, rfl, rfl, received_error breaks _ _ _ _⟩

theorem exists_finishes (program : Program) {rule : Rule} {before after : List Rule}
    (running : first.running = before ++ rule :: after) :
    ∃ next, Finishes program first next ∧ next.running = before ++ after ∧
      ∀ batches, next.received batches = first.received (.ofRule program rule :: batches) := by
  obtain ⟨_, collector, errors⟩ := first
  dsimp only at running
  subst running
  cases result : rule.check program with
  | ok findings => exact ⟨_, .reports result, rfl, received_ok result _ _ _ _⟩
  | error message => exact ⟨_, .fails result, rfl, received_error result _ _ _ _⟩

theorem Completes.exists_order (completes : Completes program first last) :
    ∃ order : List Rule, order.Perm first.running ∧ last = first.received (order.map (.ofRule program)) := by
  obtain ⟨steps, done⟩ := completes
  induction steps using Relation.ReflTransGen.head_induction_on with
  | refl =>
    refine ⟨[], ?_, (received_nil done).symm⟩
    rw [done]
  | head finishes _ ih =>
    obtain ⟨before, rule, after, running, rest, hands⟩ := finishes.batch
    obtain ⟨order, perm, same⟩ := ih
    refine ⟨rule :: order, ?_, same.trans (hands _)⟩
    rw [running]
    rw [rest] at perm
    exact (perm.cons rule).trans perm_middle.symm

theorem completes_of_order {order : List Rule} (perm : order.Perm first.running) :
    Completes program first (first.received (order.map (.ofRule program))) := by
  induction order generalizing first with
  | nil =>
    have idle : first.running = [] := nil_perm.mp perm
    rw [map_nil, received_nil idle]
    exact ⟨.refl, idle⟩
  | cons rule order ih =>
    obtain ⟨before, after, running⟩ := append_of_mem (perm.subset mem_cons_self)
    obtain ⟨next, finishes, rest, hands⟩ := exists_finishes program running
    have perm' : order.Perm next.running := by
      rw [rest]
      rw [running] at perm
      exact List.Perm.cons_inv (perm.trans perm_middle)
    have completes := ih perm'
    rw [map_cons, ← hands]
    exact ⟨.head finishes completes.steps, completes.done⟩

end Dispatch

namespace RuleError

theorem ranks_rule : Ranks fun a b : RuleError => decide (a.rule ≤ b.rule) where
  trans a b c := by
    simp only [decide_eq_true_eq]
    exact String.le_trans
  total a b := by
    simp only [Bool.or_eq_true, decide_eq_true_eq]
    exact String.le_total a.rule b.rule

theorem pairwise_sorted (errors : List RuleError) :
    (errors.mergeSort fun a b => decide (a.rule ≤ b.rule)).Pairwise fun a b => a.rule ≤ b.rule := by
  have sorted := pairwise_mergeSort ranks_rule.trans ranks_rule.total errors
  simpa only [decide_eq_true_eq] using sorted

end RuleError

namespace Batch

variable {program : Program}

def report? (batch : Batch) : Option (String × List Finding) :=
  match batch.outcome with
  | .ok findings => some (batch.rule, findings)
  | .error _ => none

theorem flatMap_findings (batches : List Batch) :
    batches.flatMap Batch.findings = (batches.filterMap report?).flatMap (·.2) := by
  induction batches with
  | nil => rfl
  | cons batch rest ih =>
    rw [flatMap_cons, filterMap_cons, ih]
    cases outcome : batch.outcome <;> simp [Batch.findings, report?, outcome]

theorem report?_ofRule {rule : Rule} {name : String} {findings : List Finding} :
    (ofRule program rule).report? = some (name, findings) ↔ rule.name = name ∧ rule.check program = .ok findings := by
  cases result : rule.check program <;> simp [ofRule, report?, result]

theorem error?_ofRule {rule : Rule} {error : RuleError} :
    (ofRule program rule).error? = some error ↔ rule.name = error.rule ∧ rule.check program = .error error.message := by
  obtain ⟨name, message⟩ := error
  cases result : rule.check program <;> simp [ofRule, Batch.error?, result]

theorem names_sublist (program : Program) {β : Type} {pick : Batch → Option β} {name : β → String}
    (named : ∀ {rule value}, pick (ofRule program rule) = some value → rule.name = name value) (rules : List Rule) :
    (((rules.map (ofRule program)).filterMap pick).map name).Sublist (rules.map (·.name)) := by
  induction rules with
  | nil => exact .slnil
  | cons rule rest ih =>
    rw [map_cons, map_cons, filterMap_cons]
    cases result : pick (ofRule program rule) with
    | none => exact ih.cons rule.name
    | some value =>
      rw [named result]
      exact ih.cons_cons _

theorem sorted_errors_eq {rules order : List Rule} (perm : order.Perm rules) (distinct : (rules.map (·.name)).Nodup) :
    ((order.map (ofRule program)).filterMap Batch.error?).mergeSort (fun a b => decide (a.rule ≤ b.rule)) =
      ((rules.map (ofRule program)).filterMap Batch.error?).mergeSort (fun a b => decide (a.rule ≤ b.rule)) := by
  have errors := (perm.map (ofRule program)).filterMap Batch.error?
  have names := (names_sublist program (fun found => (error?_ofRule.mp found).1) rules).nodup distinct
  apply List.Perm.eq_of_pairwise _ (RuleError.pairwise_sorted _) (RuleError.pairwise_sorted _)
  · exact ((mergeSort_perm _ _).trans errors).trans (mergeSort_perm _ _).symm
  · intro a b first second before after
    have same : a.rule = b.rule := String.le_antisymm before after
    have first' := errors.subset ((mergeSort_perm _ _).subset first)
    have second' := (mergeSort_perm _ _).subset second
    exact inj_on_of_nodup_map names first' second' same

end Batch

namespace Registry

def latest? (registered : List Rule) (name : String) : Option Rule :=
  registered.reverse.find? (·.name == name)

theorem find?_foldl (registered : List Rule) (registry : Registry) (name : String) :
    (registered.foldl insert registry).find? name = (latest? registered name).or (registry.find? name) := by
  induction registered generalizing registry with
  | nil => rfl
  | cons rule rest ih =>
    rw [foldl_cons, ih, find?_insert, latest?, latest?, reverse_cons, List.find?_append, Option.or_assoc]
    by_cases here : rule.name = name <;> simp [here]

theorem find?_ofRules (registered : List Rule) (name : String) :
    (ofRules registered).find? name = latest? registered name := by
  rw [ofRules, find?_foldl]
  exact Option.or_none

theorem mem_place {rule other : Rule} {rules : List Rule} (member : other ∈ place rule rules) :
    other = rule ∨ other ∈ rules := by
  induction rules with
  | nil => exact .inl (mem_singleton.mp member)
  | cons first rest ih =>
    rw [place] at member
    split at member
    · rcases mem_cons.mp member with same | later
      · exact .inl same
      · exact .inr (mem_cons_of_mem _ later)
    · split at member
      · exact mem_cons.mp member
      · rcases mem_cons.mp member with rfl | later
        · exact .inr mem_cons_self
        · exact (ih later).imp id (mem_cons_of_mem _)

theorem pairwise_place (rule : Rule) {rules : List Rule} (ordered : rules.Pairwise fun a b => a.name < b.name) :
    (place rule rules).Pairwise fun a b => a.name < b.name := by
  induction rules with
  | nil => exact pairwise_singleton _ _
  | cons first rest ih =>
    obtain ⟨least, ordered'⟩ := pairwise_cons.mp ordered
    rw [place]
    by_cases here : rule.name = first.name
    · rw [if_pos here]
      exact pairwise_cons.mpr ⟨fun other member => here ▸ least other member, ordered'⟩
    · rw [if_neg here]
      by_cases before : rule.name < first.name
      · rw [if_pos before]
        refine pairwise_cons.mpr ⟨?_, ordered⟩
        intro other member
        rcases mem_cons.mp member with rfl | later
        · exact before
        · exact String.lt_trans before (least other later)
      · rw [if_neg before]
        refine pairwise_cons.mpr ⟨?_, ih ordered'⟩
        intro other member
        rcases mem_place member with rfl | later
        · exact Std.lt_of_le_of_ne (String.not_lt.mp before) (Ne.symm here)
        · exact least other later

theorem pairwise_foldl (registered : List Rule) {registry : Registry}
    (ordered : registry.rules.Pairwise fun a b => a.name < b.name) :
    (registered.foldl insert registry).rules.Pairwise fun a b => a.name < b.name := by
  induction registered generalizing registry with
  | nil => exact ordered
  | cons rule rest ih => exact ih (pairwise_place rule ordered)

theorem pairwise_names (registered : List Rule) : (ofRules registered).names.Pairwise (· < ·) :=
  pairwise_map.mpr (pairwise_foldl registered List.Pairwise.nil)

theorem pairwise_idxOf_filter (test : String → Bool) (names : List String) {first second : String}
    (passes : test first = true) (passes' : test second = true)
    (before : (names.filter test).idxOf first < (names.filter test).idxOf second) :
    names.idxOf first < names.idxOf second := by
  induction names with
  | nil => simp at before
  | cons name rest ih =>
    by_cases kept : test name = true
    · rw [filter_cons_of_pos kept, idxOf_cons, idxOf_cons] at before
      rw [idxOf_cons, idxOf_cons]
      by_cases here' : name = second
      · simp [here'] at before
      · simp only [beq_false_of_ne here', cond_false] at before ⊢
        by_cases here : name = first
        · simp [here]
        · simp only [beq_false_of_ne here, cond_false] at before ⊢
          have later := ih (by omega)
          omega
    · have other : name ≠ first := fun same => kept (same ▸ passes)
      have other' : name ≠ second := fun same => kept (same ▸ passes')
      rw [filter_cons_of_neg kept] at before
      rw [idxOf_cons_ne _ other, idxOf_cons_ne _ other']
      have later := ih before
      omega

theorem pairwise_idxOf_eraseDups (names : List String) :
    names.eraseDups.Pairwise fun a b => names.idxOf a < names.idxOf b := by
  induction size : names.length using Nat.strongRecOn generalizing names with
  | ind size ih =>
    cases names with
    | nil => exact List.Pairwise.nil
    | cons name rest =>
      subst size
      have shorter := length_filter_le (fun other => !other == name) rest
      have others := ih (rest.filter fun other => !other == name).length (by simp; omega) _ rfl
      have apart : ∀ other ∈ (rest.filter fun other => !other == name).eraseDups, other ≠ name := by
        intro other member
        have passes := (mem_filter.mp (mem_eraseDups.mp member)).2
        simpa using passes
      rw [eraseDups_cons]
      refine pairwise_cons.mpr ⟨?_, others.imp_of_mem ?_⟩
      · intro other member
        rw [idxOf_cons_self, idxOf_cons_ne _ (apart other member).symm]
        omega
      · intro first second member member' before
        rw [idxOf_cons_ne _ (apart first member).symm, idxOf_cons_ne _ (apart second member').symm]
        have later := pairwise_idxOf_filter _ rest (by simpa using apart first member)
          (by simpa using apart second member') before
        omega

theorem eraseDups_of_nodup {names : List String} (distinct : names.Nodup) : names.eraseDups = names := by
  induction names with
  | nil => rfl
  | cons name rest ih =>
    obtain ⟨fresh, distinct'⟩ := nodup_cons.mp distinct
    have all : (rest.filter fun other => !other == name) = rest := by
      apply filter_eq_self.mpr
      intro other member
      have apart : other ≠ name := fun same => fresh (same ▸ member)
      simpa using apart
    rw [eraseDups_cons, all, ih distinct']

variable {registry : Registry} {name : String}

theorem map_filterMap_find? (names : List String) :
    (names.filterMap registry.find?).map (·.name) = names.filter registry.contains := by
  induction names with
  | nil => rfl
  | cons name rest ih =>
    cases found : registry.find? name with
    | none => simp [found, contains, ih]
    | some rule => simp [found, contains, ih, name_of_find? found]

theorem pairwise_select (registry : Registry) (names : List String) :
    ((registry.select names).map (·.name)).Pairwise fun a b => names.idxOf a < names.idxOf b := by
  rw [select, map_filterMap_find?]
  exact (pairwise_idxOf_eraseDups names).sublist filter_sublist

theorem nodup_select (registry : Registry) (names : List String) : ((registry.select names).map (·.name)).Nodup := by
  apply (pairwise_select registry names).imp
  rintro first second before rfl
  exact Nat.lt_irrefl _ before

theorem mem_select {names : List String} {rule : Rule} :
    rule ∈ registry.select names ↔ rule.name ∈ names ∧ registry.find? rule.name = some rule := by
  simp only [select, mem_filterMap, mem_eraseDups]
  constructor
  · rintro ⟨name, member, found⟩
    rw [name_of_find? found]
    exact ⟨member, found⟩
  · rintro ⟨member, found⟩
    exact ⟨rule.name, member, found⟩

theorem select_names (ordered : registry.names.Pairwise (· < ·)) : registry.select registry.names = registry.rules := by
  have distinct : registry.names.Nodup := ordered.imp String.ne_of_lt
  have found : ∀ rule ∈ registry.rules, registry.find? rule.name = some rule := by
    intro rule member
    have registered : registry.contains rule.name = true := mem_names.mp (mem_map_of_mem member)
    obtain ⟨other, found⟩ := Option.isSome_iff_exists.mp registered
    rw [found]
    congr 1
    exact inj_on_of_nodup_map distinct (mem_of_find?_eq_some found) member (name_of_find? found)
  rw [select, eraseDups_of_nodup distinct, names, filterMap_map]
  exact (filterMap_congr found).trans filterMap_some

section Delivery

variable {registered : List Rule} {program : Program} {names : List String} {order : List Rule}

theorem exists_chosen (perm : order.Perm ((ofRules registered).select names)) (name : String) (passes : Rule → Prop) :
    (∃ rule ∈ order, rule.name = name ∧ passes rule) ↔
      name ∈ names ∧ ∃ rule, latest? registered name = some rule ∧ passes rule := by
  simp only [perm.mem_iff, mem_select, find?_ofRules]
  constructor
  · rintro ⟨rule, ⟨member, found⟩, rfl, holds⟩
    exact ⟨member, rule, found, holds⟩
  · rintro ⟨member, rule, found, holds⟩
    have same : rule.name = name := by
      rw [← find?_ofRules] at found
      exact name_of_find? found
    subst same
    exact ⟨rule, ⟨member, found⟩, rfl, holds⟩

theorem mem_reports (perm : order.Perm ((ofRules registered).select names)) (name : String)
    (findings : List Finding) :
    (name, findings) ∈ (order.map (Batch.ofRule program)).filterMap Batch.report? ↔
      name ∈ names ∧ ∃ rule, latest? registered name = some rule ∧ rule.check program = .ok findings := by
  rw [← exists_chosen perm]
  simp [Batch.report?_ofRule]

theorem mem_errors (perm : order.Perm ((ofRules registered).select names)) (error : RuleError) :
    error ∈ (order.map (Batch.ofRule program)).filterMap Batch.error? ↔
      error.rule ∈ names ∧ ∃ rule, latest? registered error.rule = some rule ∧
        rule.check program = .error error.message := by
  rw [← exists_chosen perm]
  simp [Batch.error?_ofRule]

/-- What a completed run of the selected rules leaves behind. -/
structure Delivered (registered : List Rule) (program : Program) (names : List String) (collector : Collector)
    (last : Dispatch) : Prop where
  /-- The collector has got the findings of each rule that did not fail in one piece, and nothing else. -/
  reports : ∃ reports : List (String × List Finding),
    last.collector.findings = collector.findings ++ reports.flatMap (·.2) ∧ (reports.map (·.1)).Nodup ∧
      ∀ name findings, (name, findings) ∈ reports ↔
        name ∈ names ∧ ∃ rule, latest? registered name = some rule ∧ rule.check program = .ok findings
  errors : ∀ error, error ∈ last.sortedErrors ↔
    error.rule ∈ names ∧ ∃ rule, latest? registered error.rule = some rule ∧
      rule.check program = .error error.message
  ordered : last.sortedErrors.Pairwise fun a b => a.rule < b.rule

theorem delivered_received (collector : Collector) (perm : order.Perm ((ofRules registered).select names)) :
    Delivered registered program names collector
      (Dispatch.received ⟨(ofRules registered).select names, collector, []⟩ (order.map (.ofRule program))) := by
  have distinct : (order.map (·.name)).Nodup := (perm.map _).nodup_iff.mpr (nodup_select _ names)
  have reported := (Batch.names_sublist program (fun found => (Batch.report?_ofRule.mp found).1) order).nodup distinct
  refine ⟨⟨_, ?_, reported, mem_reports perm⟩, ?_, ?_⟩
  · rw [← Batch.flatMap_findings]
    rfl
  · intro error
    rw [Dispatch.sortedErrors, (mergeSort_perm _ _).mem_iff]
    exact mem_errors perm error
  · have sorted := RuleError.pairwise_sorted ((order.map (.ofRule program)).filterMap Batch.error?)
    have apart : (((order.map (.ofRule program)).filterMap Batch.error?).mergeSort
        (fun a b => decide (a.rule ≤ b.rule))).Pairwise fun a b => a.rule ≠ b.rule := by
      apply pairwise_map.mp
      exact ((mergeSort_perm _ _).map _).nodup_iff.mpr
        ((Batch.names_sublist program (fun found => (Batch.error?_ofRule.mp found).1) order).nodup distinct)
    exact sorted.imp₂ (fun _ _ before other => Std.lt_of_le_of_ne before other) apart

end Delivery

/-- The rules that were registered last under the names that are asked for run once each, and in any order;
    whichever finishes first, the collector keeps what it has and gets the findings of each rule in one piece,
    and the names and errors of a run are the same. -/
theorem run_exact (registered : List Rule) (program : Program) (names : List String) (collector : Collector) :
    let registry := ofRules registered
    let start : Dispatch := ⟨registry.select names, collector, []⟩
    let run := registry.run program names
    (∀ order : List Rule, order.Perm start.running →
      Dispatch.Completes program start (start.received (order.map (.ofRule program)))) ∧
    (start.received (start.running.map (.ofRule program))).collector = collector.extend run.findings ∧
    (∀ last, Dispatch.Completes program start last →
      Delivered registered program names collector last ∧ last.sortedErrors = run.errors) ∧
    run.rules.Pairwise (fun a b => names.idxOf a < names.idxOf b) ∧
    (∀ name, name ∈ run.rules ↔ name ∈ names ∧ ∃ rule ∈ registered, rule.name = name) ∧
    registry.runAll program = registry.run program registry.names ∧
    registry.names.Pairwise (· < ·) ∧
    ∀ name, name ∈ registry.names ↔ ∃ rule ∈ registered, rule.name = name := by
  intro registry start run
  refine ⟨fun _ => Dispatch.completes_of_order, rfl, ?_, pairwise_select registry names, ?_, ?_,
    pairwise_names registered, ?_⟩
  · intro last completes
    obtain ⟨order, perm, rfl⟩ := completes.exists_order
    exact ⟨delivered_received collector perm, Batch.sorted_errors_eq perm (nodup_select registry names)⟩
  · intro name
    rw [← contains_ofRules]
    exact mem_select_names names
  · rw [Registry.run, batches, select_names (pairwise_names registered)]
    rfl
  · intro name
    rw [mem_names, contains_ofRules]

def hashRules : List Rule :=
  [⟨"weak-hash", "T1", "", .warning, fun program => .ok [Collector.adhoc program.file 1 "md5"]⟩,
    ⟨"broken", "T2", "", .error, fun _ => .error "no table"⟩,
    ⟨"weak-hash", "T1", "", .warning, fun program =>
      .ok [Collector.adhoc program.file 3 "sha1", Collector.adhoc program.file 2 "md5"]⟩]

theorem run_exact_hashRules :
    let program : Program := ⟨"a.py", []⟩
    let names := ["weak-hash", "missing", "broken", "weak-hash"]
    let old := Collector.adhoc "b.py" 7 "kept"
    ∃ last, Dispatch.Completes program ⟨(ofRules hashRules).select names, ⟨[old]⟩, []⟩ last ∧
      last.collector.findings = [old, Collector.adhoc "a.py" 3 "sha1", Collector.adhoc "a.py" 2 "md5"] ∧
      Delivered hashRules program names ⟨[old]⟩ last := by
  intro program names old
  have exact := run_exact hashRules program names ⟨[old]⟩
  have completes := exact.1 _ (reverse_perm _)
  exact ⟨_, completes, rfl, (exact.2.2.1 _ completes).1⟩

end Registry
end SourceAudit
