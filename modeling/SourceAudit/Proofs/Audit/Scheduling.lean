import SourceAudit.Proofs.Audit.Dispatch
import SourceAudit.Proofs.Audit.PatternTexts
import SourceAudit.Proofs.Rules.FindingPlaces

open List

namespace SourceAudit

def Rule.Signs (rule : Rule) : Prop :=
  ∀ program findings, rule.check program = .ok findings → ∀ finding ∈ findings, finding.rule = rule.name

theorem Builtin.rule_signs (builtin : Builtin) (options : RuleOptions) (strict : Bool) (tests : Tests) :
    (builtin.rule options strict tests).Signs := by
  intro program findings passes finding member
  obtain ⟨found, checked, _, places⟩ := builtin.rule_locates options strict tests program
  cases checked.symm.trans passes
  exact (places finding member).name

namespace Registry

theorem mem_of_mem_select {registered : List Rule} {names : List String} {rule : Rule}
    (member : rule ∈ (ofRules registered).select names) : rule ∈ registered := by
  have found := (mem_select.mp member).2
  rw [find?_ofRules, latest?] at found
  exact mem_reverse.mp (mem_of_find?_eq_some found)

theorem eq_of_perm_select {registered order : List Rule} {names : List String} {name : String}
    (same : ∀ rule ∈ registered, rule.name = name) (perm : order.Perm ((ofRules registered).select names)) :
    order = (ofRules registered).select names := by
  have distinct := nodup_select (ofRules registered) names
  have named : ∀ rule ∈ (ofRules registered).select names, rule.name = name :=
    fun rule member => same rule (mem_of_mem_select member)
  generalize (ofRules registered).select names = rules at perm distinct named
  match rules with
  | [] => exact perm_nil.mp perm
  | [rule] => exact perm_singleton.mp perm
  | first :: second :: rest =>
    exfalso
    have alike : first.name = second.name := by
      rw [named first (by simp), named second (by simp)]
    simp [alike] at distinct

end Registry

namespace Audit

variable {audit : Audit} {source file : String} {program : Program}

theorem rule_overridden (audit : Audit) (finding : Finding) : (audit.overridden finding).rule = finding.rule := by
  unfold overridden
  split <;> rfl

def shown (audit : Audit) (source : String) (program : Program) (rule : Rule) : List Finding :=
  ((Batch.ofRule program rule).findings.filter (audit.keeps source)).map audit.overridden

theorem rule_of_shown {rule : Rule} (signs : rule.Signs) {finding : Finding}
    (member : finding ∈ audit.shown source program rule) : finding.rule = rule.name := by
  obtain ⟨found, kept, rfl⟩ := mem_map.mp member
  have reported := (mem_filter.mp kept).1
  rw [rule_overridden]
  cases result : rule.check program with
  | ok findings =>
    simp only [Batch.ofRule, Batch.findings, result] at reported
    exact signs program findings result found reported
  | error message => simp [Batch.ofRule, Batch.findings, result] at reported

theorem apply_rules (audit : Audit) (source : String) (program : Program) (rules : List Rule)
    (rest : List Finding) :
    audit.apply source ((rules.map (.ofRule program)).flatMap Batch.findings ++ rest) =
      Finding.sortByPlace (rules.flatMap (audit.shown source program) ++
        (rest.filter (audit.keeps source)).map audit.overridden) := by
  change Finding.sortByPlace (List.map _ (List.filter (audit.keeps source) _)) = _
  rw [filter_append, map_append, flatMap_map, filter_flatMap, map_flatMap]
  rfl

theorem apply_order {order rules : List Rule} (perm : order.Perm rules) (signs : ∀ rule ∈ rules, rule.Signs)
    (distinct : (rules.map (·.name)).Nodup) (rest : List Finding) :
    audit.apply source ((order.map (.ofRule program)).flatMap Batch.findings ++ rest) =
      audit.apply source ((rules.map (.ofRule program)).flatMap Batch.findings ++ rest) := by
  rw [apply_rules, apply_rules]
  apply Finding.ranks_place.mergeSort_congr
  intro finding
  unfold peers
  rw [filter_append, filter_append, filter_flatMap, filter_flatMap]
  congr 1
  apply flatMap_eq_of_perm perm
  have apart : order.Pairwise fun a b => a.name ≠ b.name :=
    pairwise_map.mp ((perm.map _).nodup_iff.mpr distinct)
  apply apart.imp_of_mem
  intro first second member member' other
  by_contra both
  rw [not_or] at both
  obtain ⟨one, found⟩ := exists_mem_of_ne_nil _ both.1
  obtain ⟨two, found'⟩ := exists_mem_of_ne_nil _ both.2
  have name := rule_of_shown (signs first (perm.subset member)) (mem_filter.mp found).1
  have name' := rule_of_shown (signs second (perm.subset member')) (mem_filter.mp found').1
  apply other
  rw [← name, ← name', Finding.rule_of_peers found, Finding.rule_of_peers found']

/-- The reports that an audit may make of a source text: its shared rules finish in any order, and after
    all of them its own ones do. -/
inductive Gives (audit : Audit) (source file : String) : FileReport → Prop where
  | skipped (stops : ¬ audit.Runs source file) :
      Gives audit source file { file, syntaxErrors := (Program.ofSource file source).2 }
  | audited {first second : Dispatch} (runs : audit.Runs source file)
      (shared : Dispatch.Completes (Program.ofSource file source).1
        ⟨audit.shared.select audit.selection, {}, []⟩ first)
      (own : Dispatch.Completes (Program.ofSource file source).1
        ⟨audit.own.select audit.ownSelection, first.collector, []⟩ second) :
      Gives audit source file
        { file
          syntaxErrors := (Program.ofSource file source).2
          findings := audit.apply source second.collector.findings
          ruleErrors := first.sortedErrors ++ second.sortedErrors }

theorem analyze_of_runs (runs : audit.Runs source file) :
    audit.analyze source file =
      audit.reportOf source file (Program.ofSource file source).2
        (audit.shared.batches (Program.ofSource file source).1 audit.selection)
        (audit.own.batches (Program.ofSource file source).1 audit.ownSelection) := by
  unfold analyze
  unfold Runs at runs
  generalize Program.ofSource file source = read at runs ⊢
  dsimp only
  rw [if_neg]
  rintro ⟨faulty, skipped⟩
  rcases runs with clean | partially
  · exact faulty clean
  · simp [partially] at skipped

theorem analyze_of_stops (stops : ¬ audit.Runs source file) :
    audit.analyze source file = { file, syntaxErrors := (Program.ofSource file source).2 } := by
  unfold analyze
  unfold Runs at stops
  generalize Program.ofSource file source = read at stops ⊢
  dsimp only
  rw [if_pos]
  rw [not_or] at stops
  exact ⟨stops.1, by simpa using stops.2⟩

theorem ofConfig_eq_ok {config : Config} {tools : Tools} {audit : Audit} (made : ofConfig config tools = .ok audit) :
    ∃ patterns, audit = Setup.audit { shared := config.registry tools.tests, config } patterns tools.covers := by
  unfold ofConfig build at made
  split at made
  · rename_i found
    cases made
    obtain ⟨patterns, _, same⟩ := ofSetup_eq_ok.mp found
    exact ⟨patterns, same.symm⟩
  · cases made

/-- An audit whose shared rules report under their own names, and whose own rules all have one name. -/
structure Separate (audit : Audit) : Prop where
  shared : ∀ rule ∈ audit.shared.select audit.selection, rule.Signs
  own : ∃ registered name, audit.own = .ofRules registered ∧ ∀ rule ∈ registered, rule.name = name

theorem Setup.OfConfig.separate {setup : Setup} {tests : Builtin.Tests} (plain : setup.OfConfig tests)
    (patterns : List PatternRule) (covers : FilePattern → String → Bool) :
    (setup.audit patterns covers).Separate where
  shared := by
    intro rule member
    have shared : (setup.audit patterns covers).shared = .ofRules (setup.config.selectedRules tests) := plain.shared
    rw [shared] at member
    obtain ⟨builtin, _, rfl⟩ := mem_map.mp (Registry.mem_of_mem_select member)
    exact builtin.rule_signs _ _ _
  own := by
    refine ⟨_, PatternRule.id.name, rfl, ?_⟩
    rw [plain.rules, nil_append]
    exact fun rule member => PatternRule.name_of_mem_rules member

theorem Separate.report_eq (separate : audit.Separate) {report : FileReport}
    (gives : audit.Gives source file report) : report = audit.analyze source file := by
  cases gives with
  | skipped stops => exact (analyze_of_stops stops).symm
  | audited runs shared own =>
    obtain ⟨order, perm, rfl⟩ := shared.exists_order
    obtain ⟨order', perm', rfl⟩ := own.exists_order
    obtain ⟨registered, name, made, same⟩ := separate.own
    dsimp only at perm perm'
    rw [made] at perm'
    have alone : order' = audit.own.select audit.ownSelection := by
      rw [made]
      exact Registry.eq_of_perm_select same perm'
    have distinct := Registry.nodup_select audit.shared audit.selection
    rw [analyze_of_runs runs, reportOf, alone, flatMap_append]
    congr 1
    · simp only [Dispatch.received, Collector.extend, nil_append]
      exact apply_order perm separate.shared distinct _
    · congr 1
      exact Batch.sorted_errors_eq perm distinct

theorem exists_gives (audit : Audit) (source file : String) : ∃ report, audit.Gives source file report := by
  by_cases runs : audit.Runs source file
  · exact ⟨_, .audited runs (Dispatch.completes_of_order (.refl _)) (Dispatch.completes_of_order (.refl _))⟩
  · exact ⟨_, .skipped runs⟩

/-- A configuration, as a text or as a record, makes an audit whose reports do not depend on the order in
    which rules finish, whatever reads the text and matches files and literals. -/
theorem gives_iff_eq_analyze {tools : Tools} {audit : Audit}
    (made : (∃ text, ofToml text tools = .ok audit) ∨ ∃ config, ofConfig config tools = .ok audit)
    (source file : String) (report : FileReport) :
    audit.Gives source file report ↔ report = audit.analyze source file := by
  have separate : audit.Separate := by
    rcases made with ⟨text, made⟩ | ⟨config, made⟩
    · obtain ⟨config, patterns, _, rfl⟩ := ofToml_eq_ok made
      exact Setup.OfConfig.separate ⟨rfl, rfl, rfl⟩ patterns _
    · obtain ⟨patterns, rfl⟩ := ofConfig_eq_ok made
      exact Setup.OfConfig.separate ⟨rfl, rfl, rfl⟩ patterns _
  constructor
  · exact separate.report_eq
  · rintro rfl
    obtain ⟨report, gives⟩ := exists_gives audit source file
    rwa [← separate.report_eq gives]

def reusedName : String :=
  "[[pattern-rule]]\nname = \"xss\"\nsinks = [\"print\"]\nmessage = \"Prints\"\n"

def reusedRule : PatternRule :=
  ⟨[⟨⟨"xss"⟩, "PSD001", [⟨"print"⟩], ⟨[], []⟩, [], "Prints", .error⟩]⟩

theorem ofToml_reusedName :
    ofToml reusedName = .ok ((Setup.ofText {} reusedName).audit [reusedRule]) := by
  have parsed : Config.parse? reusedName = some {} := by decide +kernel
  have loaded : PatternRule.load reusedName = .ok reusedRule := by decide +kernel
  exact ofToml_of_parsed parsed loaded

theorem gives_iff_eq_analyze_reusedName :
    ∃ audit, ofToml reusedName = .ok audit ∧
      (audit.shared.select audit.selection).map (·.name) =
        ["csrf", "dangerous-io", "file-inclusion", "sensitive-info", "sql-injection", "ssrf", "xss"] ∧
      (audit.own.select audit.ownSelection).map (·.name) = ["pattern-rule"] ∧
      ∃ report, audit.Gives "print(input())\n" "a.py" report ∧
        ∀ other, audit.Gives "print(input())\n" "a.py" other → other = report := by
  have only := gives_iff_eq_analyze (.inl ⟨_, ofToml_reusedName⟩) "print(input())\n" "a.py"
  exact ⟨_, ofToml_reusedName, by decide, by decide, _, (only _).mpr rfl, fun other => (only other).mp⟩

end Audit
end SourceAudit
