import SourceAudit.Proofs.Audit.PatternFindings
import SourceAudit.Proofs.Rules.Constants
import SourceAudit.Rules.Builtin

open List

namespace SourceAudit

structure RuleId.Places (id : RuleId) (program : Program) (finding : Finding) : Prop where
  name : finding.rule = id.name
  code : finding.code = id.code
  file : finding.file = program.file
  line : ∃ node ∈ program.nodes, node.line = finding.line

/-- A rule whose check of a program succeeds, with findings in the order of their lines that are all its own and stand
    at nodes of the program. -/
def Rule.Locates (rule : Rule) (program : Program) : Prop :=
  ∃ findings, rule.check program = .ok findings ∧ findings.Pairwise (fun first second => first.line ≤ second.line) ∧
    ∀ finding ∈ findings, RuleId.Places ⟨rule.name, rule.code⟩ program finding

namespace Node

theorem mem_visit {entering : Bool} {nodes : List Node} {node : Node} (member : node ∈ nodes) :
    node ∈ visit entering nodes := by
  induction nodes with
  | nil => cases member
  | cons first rest ih =>
    rw [visit_cons]
    rcases mem_cons.mp member with rfl | later
    · exact mem_cons_self
    · exact mem_cons_of_mem _ (mem_append_right _ (ih later))

end Node

theorem Bindings.mem_nodes_of_scan {scope : Scope} {node : Node} {bindings : Bindings}
    (scanned : (node, bindings) ∈ Bindings.scan scope) : node ∈ scope.nodes := by
  have inside := mem_map_of_mem (f := Prod.fst) scanned
  rwa [Bindings.scan, map_fst_scanFrom] at inside

theorem TaintPolicy.mem_nodes_of_scan {policy : TaintPolicy} {scope : Scope} {node : Node} {tainted : List String}
    (scanned : (node, tainted) ∈ policy.scan scope) : node ∈ scope.nodes := by
  have inside := mem_map_of_mem (f := Prod.fst) scanned
  rwa [PatternEntry.map_fst_scan] at inside

section Checks

variable {program : Program} {finding : Finding} {node : Node}

namespace Program

theorem mem_nodes_of_scope {scope : Scope} (opened : scope ∈ program.scopes) (inside : node ∈ scope.nodes) :
    node ∈ program.nodes := by
  refine (nodes_perm program).mem_iff.mpr (mem_cons_of_mem _ (mem_append_right _ ?_))
  exact mem_flatMap.mpr ⟨scope, opened, inside⟩

theorem mem_nodes_of_part {part : Node} (walked : node ∈ program.nodes) (below : part ∈ node.children) :
    part ∈ program.nodes := by
  refine (Node.walk_sublist walked).subset ?_
  rw [Node.walk_eq_cons]
  exact mem_cons_of_mem _ (Node.mem_visit below)

end Program

theorem Finding.mem_sortByLine {findings : List Finding} : finding ∈ sortByLine findings ↔ finding ∈ findings :=
  mem_mergeSort

theorem Finding.pairwise_sortByLine (findings : List Finding) :
    (sortByLine findings).Pairwise fun first second => first.line ≤ second.line :=
  (pairwise_mergeSort ranks_line.trans ranks_line.total findings).imp of_decide_eq_true

theorem Rule.Locates.of_sorted {rule : Rule} {findings : List Finding}
    (passes : rule.check program = .ok (Finding.sortByLine findings))
    (places : ∀ finding ∈ findings, RuleId.Places ⟨rule.name, rule.code⟩ program finding) : rule.Locates program :=
  ⟨_, passes, Finding.pairwise_sortByLine findings, fun finding member => places finding (Finding.mem_sortByLine.mp member)⟩

namespace RuleId

variable {id : RuleId}

theorem places_finding (id : RuleId) (inside : node ∈ program.nodes) (severity : Severity) (message : String) :
    id.Places program (id.finding program node.line severity message) :=
  ⟨rfl, rfl, rfl, node, inside, rfl⟩

theorem Places.of_message {severity : Severity} {message? : Call → Option String} (inside : node ∈ program.nodes)
    (made : (do return id.finding program node.line severity (← message? (← node.call?))) = some finding) :
    id.Places program finding := by
  obtain ⟨call, _, said⟩ := Option.bind_eq_some_iff.mp made
  obtain ⟨message, _, same⟩ := Option.bind_eq_some_iff.mp said
  cases same
  exact id.places_finding inside severity message

end RuleId

theorem SqlInjection.locates (rule : SqlInjection) (isStatement : String → Bool) (program : Program) :
    (rule.toRule isStatement).Locates program := by
  refine .of_sorted rfl fun finding member => ?_
  obtain ⟨scope, opened, found⟩ := mem_flatMap.mp member
  obtain ⟨⟨node, bindings⟩, scanned, made⟩ := mem_filterMap.mp found
  exact .of_message (Program.mem_nodes_of_scope opened (Bindings.mem_nodes_of_scan scanned)) made

theorem FileInclusion.locates (rule : FileInclusion) (program : Program) : rule.toRule.Locates program := by
  refine .of_sorted rfl fun finding member => ?_
  obtain ⟨scope, opened, found⟩ := mem_flatMap.mp member
  obtain ⟨⟨⟨node, bindings⟩, visited⟩, scanned, made⟩ := mem_filterMap.mp found
  have scanned := Bindings.mem_nodes_of_scan (of_mem_zip scanned).1
  exact .of_message (Program.mem_nodes_of_scope opened scanned) made

theorem Ssrf.locates (rule : Ssrf) (readers : Readers) (program : Program) : (rule.toRule readers).Locates program := by
  refine .of_sorted rfl fun finding member => ?_
  obtain ⟨scope, opened, found⟩ := mem_flatMap.mp member
  obtain ⟨⟨⟨node, bindings⟩, visited⟩, scanned, made⟩ := mem_filterMap.mp found
  have scanned := Bindings.mem_nodes_of_scan (of_mem_zip scanned).1
  exact .of_message (Program.mem_nodes_of_scope opened scanned) made

theorem Xss.locates (rule : Xss) (tests : Tests) (program : Program) : (rule.toRule tests).Locates program := by
  refine .of_sorted rfl fun finding member => ?_
  obtain ⟨⟨line, message⟩, noted, rfl⟩ := mem_map.mp member
  refine ⟨rfl, rfl, rfl, ?_⟩
  rcases mem_append.mp noted with flow | literal
  · obtain ⟨scope, opened, found⟩ := mem_flatMap.mp flow
    obtain ⟨⟨node, tainted⟩, scanned, said⟩ := mem_flatMap.mp found
    obtain ⟨text, _, same⟩ := mem_map.mp said
    cases same
    exact ⟨node, Program.mem_nodes_of_scope opened (TaintPolicy.mem_nodes_of_scan scanned), rfl⟩
  · obtain ⟨node, found, said⟩ := mem_flatMap.mp literal
    have inside : node ∈ program.nodes := by
      rcases mem_append.mp found with kind | kind <;> exact (mem_filter.mp kind).1
    split at said
    · obtain ⟨text, _, same⟩ := mem_map.mp said
      cases same
      exact ⟨node, inside, rfl⟩
    · cases said

theorem Csrf.locates (rule : Csrf) (program : Program) : rule.toRule.Locates program := by
  refine .of_sorted rfl fun finding member => ?_
  rcases mem_append.mp member with handler | registration
  · obtain ⟨node, inside, made⟩ := mem_filterMap.mp handler
    unfold handlerFinding? at made
    split at made
    · obtain ⟨message, _, rfl⟩ := Option.map_eq_some_iff.mp made
      exact id.places_finding inside _ message
    · cases made
  · split at registration
    · cases registration
    · obtain ⟨node, inside, made⟩ := mem_filterMap.mp registration
      unfold registrationFinding? at made
      split at made
      · obtain ⟨call, _, made⟩ := Option.bind_eq_some_iff.mp made
        split at made
        · obtain ⟨method, _, made⟩ := Option.bind_eq_some_iff.mp made
          cases made
          exact id.places_finding inside _ _
        · cases made
      · cases made

namespace DangerousIo

theorem map_fst_ownedNodes (nodes : List (Node × Option String)) :
    (ownedNodes nodes).map Prod.fst = Node.visit true (nodes.map Prod.fst) := by
  fun_induction ownedNodes nodes with
  | case1 => simp [Node.visit]
  | case2 node outer rest owner ih =>
    rw [map_cons, map_cons, Node.visit, ih]
    simp [Node.children, Function.comp_def]

theorem locates (rule : DangerousIo) (program : Program) : rule.toRule.Locates program := by
  refine .of_sorted rfl fun finding member => ?_
  rcases mem_append.mp member with called | written
  · obtain ⟨scope, opened, found⟩ := mem_flatMap.mp called
    simp only [checkScope, mem_filterMap, Option.bind_eq_bind, Option.bind_eq_some_iff] at found
    obtain ⟨⟨node, bindings⟩, scanned, call, _, ⟨severity, message⟩, _, made⟩ := found
    cases made
    exact id.places_finding (Program.mem_nodes_of_scope opened (Bindings.mem_nodes_of_scan scanned)) severity message
  · simp only [writes, mem_filterMap, Option.bind_eq_bind, Option.bind_eq_some_iff] at written
    obtain ⟨⟨node, owner⟩, owned, name, _, call, _, message, _, made⟩ := written
    cases made
    have inside := mem_map_of_mem (f := Prod.fst) owned
    rw [map_fst_ownedNodes] at inside
    exact @RuleId.places_finding program node id inside _ message

end DangerousIo

namespace SensitiveInfo

theorem namedBy_part {entry : Named} (named : entry ∈ namedBy node) :
    ∃ value, .expr value ∈ node.children ∧ value.line = entry.line := by
  have literal : ∀ {name : String} {value : Expr}, named? name value = some entry → value.line = entry.line := by
    intro name value given
    obtain ⟨text, _, rfl⟩ := Option.map_eq_some_iff.mp given
    rfl
  unfold namedBy at named
  split at named
  · split at named
    · rename_i line assignment value given
      obtain ⟨name, _, made⟩ := mem_filterMap.mp named
      refine ⟨value, mem_map_of_mem ?_, literal made⟩
      simp [Assignment.children, given]
    · cases named
  · rename_i line function args
    split at named
    · cases named
    · obtain ⟨arg, member, made⟩ := mem_filterMap.mp named
      split at made
      · refine ⟨arg.value, mem_map_of_mem ?_, literal made⟩
        exact mem_cons_of_mem _ (mem_map_of_mem member)
      · cases made
  · rename_i line entries
    obtain ⟨pair, member, made⟩ := mem_filterMap.mp named
    obtain ⟨key, _, made⟩ := Option.bind_eq_some_iff.mp made
    obtain ⟨name, _, made⟩ := Option.bind_eq_some_iff.mp made
    refine ⟨pair.value, mem_map_of_mem ?_, literal made⟩
    exact mem_flatMap.mpr ⟨pair, member, by simp [DictEntry.children]⟩
  · cases named

theorem locates {Amount : Type} (rule : SensitiveInfo Amount) (tests : Tests Amount) (program : Program) :
    (rule.toRule tests).Locates program := by
  refine .of_sorted rfl fun finding member => ?_
  obtain ⟨⟨line, message⟩, noted, rfl⟩ := mem_map.mp member
  refine ⟨rfl, rfl, rfl, ?_⟩
  rcases mem_append.mp noted with named | literal
  · obtain ⟨node, inside, found⟩ := mem_flatMap.mp named
    obtain ⟨entry, sensitive, said⟩ := mem_filterMap.mp found
    obtain ⟨text, _, same⟩ := Option.map_eq_some_iff.mp said
    cases same
    obtain ⟨value, part, line⟩ := namedBy_part (mem_filter.mp sensitive).1
    exact ⟨.expr value, Program.mem_nodes_of_part inside part, line⟩
  · obtain ⟨node, found, said⟩ := mem_filterMap.mp literal
    obtain ⟨text, _, said⟩ := Option.bind_eq_some_iff.mp said
    split at said
    · cases said
    · obtain ⟨given, _, same⟩ := Option.bind_eq_some_iff.mp said
      cases same
      exact ⟨node, (mem_filter.mp found).1, rfl⟩

end SensitiveInfo

end Checks

namespace Builtin

variable (builtin : Builtin) (options : RuleOptions) (strict : Bool) (tests : Tests)

theorem ruleWith_locates (severity : Severity) (program : Program) :
    (builtin.ruleWith options strict severity tests).Locates program := by
  cases builtin with
  | sqlInjection => exact SqlInjection.locates _ _ program
  | xss => exact Xss.locates _ _ program
  | csrf => exact Csrf.locates _ program
  | ssrf => exact Ssrf.locates _ _ program
  | fileInclusion => exact FileInclusion.locates _ program
  | sensitiveInfo => exact SensitiveInfo.locates _ _ program
  | dangerousIo => exact DangerousIo.locates _ program

theorem rule_eq_ruleWith :
    builtin.rule options strict tests =
      builtin.ruleWith options strict (builtin.rule options strict tests).severity tests := by
  cases builtin <;> rfl

theorem rule_locates (program : Program) : (builtin.rule options strict tests).Locates program := by
  rw [rule_eq_ruleWith]
  exact builtin.ruleWith_locates options strict tests _ program

/-- The findings of a built-in rule, with any options, any severity and any tests of texts, in the order of their
    lines: each one carries the name and the code of the rule and the file of the program, and its line is the line of
    a node. -/
theorem check_locates (severity : Severity) (program : Program) :
    (builtin.rule options strict tests).Locates program ∧
      (builtin.ruleWith options strict severity tests).Locates program :=
  ⟨builtin.rule_locates options strict tests program, builtin.ruleWith_locates options strict tests severity program⟩

end Builtin
end SourceAudit
