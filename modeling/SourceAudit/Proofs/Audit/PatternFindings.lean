import Mathlib.Data.List.Flatten
import SourceAudit.PatternRule
import SourceAudit.Proofs.Audit.StableSort
import SourceAudit.Proofs.Syntax.Scopes

open List

namespace SourceAudit

namespace PatternEntry

variable (entry : PatternEntry)

def report (file : String) (line : Nat) (callee : String) : Finding :=
  ⟨entry.name.text, entry.code, entry.message ++ ": `" ++ callee ++ "`", entry.severity, ⟨file, line⟩, none⟩

def sinkFinding? (file : String) (line : Nat) (call : Call) : Option Finding :=
  (call.callee.filter fun callee => entry.sinks.any (·.isMatch callee)).map (entry.report file line)

/-- What an entry says of all calls of a program to its sinks. -/
def sinkFindings (program : Program) : List Finding :=
  program.calls.filterMap fun (line, call) => entry.sinkFinding? program.file line call

/-- Whether the arguments of a call do, if it is one: with sources, one of them has to be tainted. -/
def passes (visited : Node × List String) : Bool :=
  visited.1.call?.all fun call => !entry.requiresTaint || call.values.any (entry.taint.isTainted visited.2)

def nodeFinding? (program : Program) (node : Node) : Option Finding :=
  node.call?.bind (entry.sinkFinding? program.file node.line)

theorem finding?_eq (program : Program) (node : Node) (tainted : List String) :
    entry.finding? program node tainted =
      if entry.passes (node, tainted) then entry.nodeFinding? program node else none := by
  unfold finding? passes nodeFinding? sinkFinding?
  cases node.call? with
  | none => rfl
  | some call =>
    cases found : call.callee with
    | none => simp [found]
    | some callee =>
      simp only [Option.bind_eq_bind, Option.bind_some, Option.all_some, found, Option.filter_some]
      cases sink : entry.isSink callee <;>
        cases taints : !entry.requiresTaint || call.values.any (entry.taint.isTainted tainted) <;>
        simp_all [isSink, report]

theorem sinkFindings_eq (program : Program) :
    entry.sinkFindings program = program.nodes.filterMap (entry.nodeFinding? program) := by
  rw [sinkFindings, Program.calls, filterMap_filterMap]
  refine filterMap_congr fun node _ => ?_
  unfold nodeFinding?
  cases node.call? <;> rfl

theorem check_eq (program : Program) :
    entry.check program = program.scopes.flatMap fun scope =>
      ((entry.taint.scan scope).filter entry.passes).filterMap fun visited => entry.nodeFinding? program visited.1 := by
  unfold check
  refine flatMap_congr fun scope _ => ?_
  rw [filterMap_filter]
  exact filterMap_congr fun visited _ => entry.finding?_eq program visited.1 visited.2

theorem map_fst_scan (policy : TaintPolicy) (scope : Scope) : (policy.scan scope).map Prod.fst = scope.nodes := by
  unfold TaintPolicy.scan
  generalize ([] : List String) = tainted
  induction scope.nodes generalizing tainted with
  | nil => rfl
  | cons node rest ih => rw [TaintPolicy.scanFrom, map_cons, ih]

theorem scopes_perm (program : Program) :
    (program.scopes.flatMap fun scope =>
      (entry.taint.scan scope).filterMap fun visited => entry.nodeFinding? program visited.1).Perm
      (entry.sinkFindings program) := by
  have each : (fun scope => (entry.taint.scan scope).filterMap fun visited => entry.nodeFinding? program visited.1) =
      fun scope => scope.nodes.filterMap (entry.nodeFinding? program) := by
    funext scope
    rw [← map_fst_scan entry.taint scope, filterMap_map]
    rfl
  rw [each, ← filterMap_flatMap, sinkFindings_eq]
  exact program.filterMap_scopeNodes _ rfl fun _ => rfl

theorem check_subperm (program : Program) : (entry.check program).Subperm (entry.sinkFindings program) := by
  rw [check_eq]
  refine (List.Sublist.flatMap_right _ fun scope _ => ?_).subperm.trans (entry.scopes_perm program).subperm
  exact filter_sublist.filterMap _

theorem check_perm {entry : PatternEntry} (all : entry.taint.sources = []) (program : Program) :
    (entry.check program).Perm (entry.sinkFindings program) := by
  have passes : entry.passes = fun _ => true := by
    funext visited
    cases called : visited.1.call? <;> simp [PatternEntry.passes, requiresTaint, all, called]
  have whole := entry.scopes_perm program
  rw [check_eq]
  simpa only [passes, filter_true] using whole

end PatternEntry

namespace PatternRule

variable (covers : FilePattern → String → Bool)

def share (program : Program) (entry : PatternEntry) : List Finding :=
  if entry.appliesTo program.file covers then entry.check program else []

theorem check_perm_shares (rule : PatternRule) (program : Program) :
    (rule.check program covers).Perm (rule.entries.flatMap (share covers program)) := by
  refine (mergeSort_perm _ _).trans (.of_eq ?_)
  unfold entriesFor
  induction rule.entries with
  | nil => rfl
  | cons entry rest ih =>
    rw [flatMap_cons, ← ih, share]
    cases applies : entry.appliesTo program.file covers <;> simp [applies]

variable {covers}

theorem rule_of_mem_share {program : Program} {entry : PatternEntry} {finding : Finding}
    (member : finding ∈ share covers program entry) : finding.rule = entry.name.text := by
  unfold share at member
  split at member
  · obtain ⟨place, _, given⟩ := mem_filterMap.mp ((entry.check_subperm program).subset member)
    obtain ⟨callee, _, rfl⟩ := Option.map_eq_some_iff.mp given
    rfl
  · cases member

theorem filter_shares {entries : List PatternEntry} (distinct : (entries.map (·.name)).Nodup) (program : Program)
    {entry : PatternEntry} (member : entry ∈ entries) :
    (entries.flatMap (share covers program)).filter (·.rule == entry.name.text) = share covers program entry := by
  have own : ∀ other, (share covers program other).filter (·.rule == entry.name.text) =
      if other.name = entry.name then share covers program other else [] := by
    intro other
    split
    · rename_i same
      exact filter_eq_self.mpr fun finding inside => by simp [rule_of_mem_share inside, same]
    · rename_i apart
      refine filter_eq_nil_iff.mpr fun finding inside equal => apart ?_
      rw [beq_iff_eq, rule_of_mem_share inside] at equal
      exact congrArg PatternName.mk equal
  obtain ⟨front, back, rfl⟩ := append_of_mem member
  rw [map_append, map_cons, nodup_append, nodup_cons] at distinct
  have none : ∀ {others : List PatternEntry}, (∀ other ∈ others, other.name ≠ entry.name) →
      others.flatMap (fun other => (share covers program other).filter (·.rule == entry.name.text)) = [] := by
    intro others apart
    exact flatMap_eq_nil_iff.mpr fun other inside => by rw [own, if_neg (apart other inside)]
  have before := none fun other inside => distinct.2.2 _ (mem_map_of_mem inside) _ mem_cons_self
  have after := none fun other inside same => distinct.2.1.1 (same ▸ mem_map_of_mem inside)
  rw [filter_flatMap, flatMap_append, flatMap_cons, own entry, if_pos rfl, before, after]
  simp

variable (covers) in
/-- The findings are sorted by line, and each belongs to an entry that applies to the file, whichever files a pattern
    covers. Without sources these are the findings of all calls to its sinks, each once, and with sources a part of
    these. Where the names of the entries differ, the findings under a name are those of its entry. -/
theorem check_exact (rule : PatternRule) (program : Program) :
    (rule.check program covers).Pairwise (fun first second => first.line ≤ second.line) ∧
    (rule.check program covers).Perm (rule.entries.flatMap (share covers program)) ∧
    (∀ entry,
      (entry.appliesTo program.file covers = false → share covers program entry = []) ∧
      (entry.appliesTo program.file covers = true →
        (share covers program entry).Subperm (entry.sinkFindings program) ∧
        (entry.taint.sources = [] → (share covers program entry).Perm (entry.sinkFindings program)))) ∧
    ((rule.entries.map (·.name)).Nodup → ∀ entry ∈ rule.entries,
      ((rule.check program covers).filter (·.rule == entry.name.text)).Perm (share covers program entry)) := by
  have shares := rule.check_perm_shares covers program
  refine ⟨?_, shares, fun entry => ⟨fun apart => ?_, fun applies => ?_⟩, fun distinct entry member => ?_⟩
  · have sorted := pairwise_mergeSort Finding.ranks_line.trans Finding.ranks_line.total
      ((rule.entriesFor program.file covers).flatMap (·.check program))
    exact sorted.imp of_decide_eq_true
  · simp [share, apart]
  · rw [share, if_pos applies]
    exact ⟨entry.check_subperm program, fun all => PatternEntry.check_perm all program⟩
  · rw [← filter_shares distinct program member]
    exact shares.filter _

def evalEverywhere : Program :=
  let eval (line : Nat) : Expr := ⟨line, .call ⟨line, .identifier "eval"⟩ []⟩
  let inner : FunctionDef Stmt :=
    ⟨"g", [⟨"x", .normal, none, some (eval 3)⟩], none, ⟨4, [⟨4, .expr (eval 4)⟩]⟩, [eval 2], false⟩
  ⟨"a.py", [⟨1, .functionDef ⟨"f", [], none, ⟨2, [⟨3, .functionDef inner⟩]⟩, [], false⟩⟩, ⟨5, .expr (eval 5)⟩]⟩

def evalRules : PatternRule := ⟨[⟨⟨"no-eval"⟩, "PSD001", [⟨"eval"⟩], ⟨[], []⟩, [], "m", .error⟩]⟩

theorem check_exact_evalEverywhere :
    ((evalRules.check evalEverywhere).filter (·.rule == "no-eval")).Perm
      ([2, 3, 4, 5].map fun line => ⟨"no-eval", "PSD001", "m: `eval`", .error, ⟨"a.py", line⟩, none⟩) := by
  obtain ⟨_, _, each, named⟩ := check_exact FilePattern.isMatch evalRules evalEverywhere
  let entry : PatternEntry := ⟨⟨"no-eval"⟩, "PSD001", [⟨"eval"⟩], ⟨[], []⟩, [], "m", .error⟩
  have all : entry.sinkFindings evalEverywhere =
      [2, 3, 4, 5].map fun line => ⟨"no-eval", "PSD001", "m: `eval`", .error, ⟨"a.py", line⟩, none⟩ := by decide +kernel
  rw [← all]
  exact (named (by simp [evalRules]) entry mem_cons_self).trans (((each entry).2 rfl).2 rfl)

end PatternRule
end SourceAudit
