import Mathlib.Control.Monad.Basic
import Mathlib.Logic.Basic
import Mathlib.Tactic.Tauto
import SourceAudit.Project
import SourceAudit.Proofs.Audit.Registry

open List

namespace SourceAudit

namespace Builtin

theorem rule_name (builtin : Builtin) (options : RuleOptions) (strict : Bool) (tests : Tests) :
    (builtin.rule options strict tests).name = builtin.name := by
  cases builtin <;> rfl

theorem find?_name (builtin : Builtin) : find? builtin.name = some builtin := by
  cases builtin <;> decide

theorem name_injective {builtin other : Builtin} (same : builtin.name = other.name) : builtin = other := by
  have found := find?_name builtin
  rw [same, find?_name] at found
  exact (Option.some.inj found).symm

theorem name_ne_patterns (builtin : Builtin) : builtin.name ≠ PatternRule.id.name := by
  cases builtin <;> decide

end Builtin

namespace Config

variable (config : Config)

def requested : List Builtin := config.builtins.filter fun builtin => config.isEnabled builtin.name

/-- Whether a rule is selected under its own name, if rules are named at all. -/
def CallsByName (builtin : Builtin) : Prop :=
  config.analyzer.rules = [] ∨ builtin.name ∈ config.analyzer.rules
deriving Decidable

theorem registry_contains (tests : Builtin.Tests) (builtin : Builtin) :
    (config.registry tests).contains builtin.name = true ↔ builtin ∈ config.builtins := by
  rw [registry, Registry.contains_ofRules, selectedRules]
  simp only [mem_map, exists_exists_and_eq_and, Builtin.rule_name]
  constructor
  · rintro ⟨other, member, same⟩
    rwa [← Builtin.name_injective same]
  · intro member
    exact ⟨builtin, member, rfl⟩

end Config

namespace PatternRule

theorem name_of_mem_rules {covers : FilePattern → String → Bool} {rules : List PatternRule} {rule : Rule}
    (member : rule ∈ rules.flatMap (·.rules covers)) : rule.name = id.name := by
  obtain ⟨patterns, _, made⟩ := mem_flatMap.mp member
  unfold PatternRule.rules at made
  split at made
  · cases made
  · rw [mem_singleton.mp made]
    rfl

end PatternRule

namespace Audit

def Setup.audit (setup : Setup) (patterns : List PatternRule)
    (covers : FilePattern → String → Bool := FilePattern.isMatch) : Audit :=
  let own := Registry.ofRules (setup.rules ++ patterns.flatMap (·.rules covers))
  { root := setup.root
    shared := setup.shared
    own
    selection := setup.chosen.filter setup.config.isEnabled
    ownSelection := own.names.filter setup.config.isEnabled
    config := setup.config
    analyzePartial := setup.analyzePartial.getD setup.config.analyzer.analyzePartial }

theorem ofSetup_eq_ok {setup : Setup} {tools : Tools} {audit : Audit} :
    ofSetup setup tools = .ok audit ↔
      ∃ patterns, setup.patterns.mapM (PatternRule.load · tools.read) = .ok patterns ∧
        setup.audit patterns tools.covers = audit := by
  unfold ofSetup
  cases loaded : setup.patterns.mapM (PatternRule.load · tools.read) with
  | error error => simp [bind, Except.bind]
  | ok patterns =>
    simp only [bind, Except.bind, Except.ok.injEq, exists_eq_left']
    exact ⟨fun same => Except.ok.inj same, fun same => congrArg Except.ok same⟩

/-- A setup that adds nothing to the built-in rules which its configuration selects. -/
structure Setup.OfConfig (setup : Setup) (tests : Builtin.Tests) : Prop where
  shared : setup.shared = setup.config.registry tests
  selection : setup.selection = none
  rules : setup.rules = []

def Setup.ofText (config : Config) (text : String) (tests : Builtin.Tests := .standard) : Setup :=
  { shared := config.registry tests, config, patterns := [text] }

theorem ofToml_eq_ok {text : String} {tools : Tools} {audit : Audit} (made : ofToml text tools = .ok audit) :
    ∃ config patterns, Config.parse? text tools.read = some config ∧
      audit = (Setup.ofText config text tools.tests).audit patterns tools.covers := by
  unfold ofToml Config.parse at made
  cases parsed : Config.parse? text tools.read with
  | none => simp [parsed, bind, Except.bind] at made
  | some config =>
    simp only [parsed, bind, Except.bind, build] at made
    split at made
    · rename_i found
      cases made
      obtain ⟨patterns, _, same⟩ := ofSetup_eq_ok.mp found
      exact ⟨config, patterns, rfl, same.symm⟩
    · cases made

theorem ofToml_of_parsed {text : String} {tools : Tools} {config : Config} {patterns : PatternRule}
    (parsed : Config.parse? text tools.read = some config) (loaded : PatternRule.load text tools.read = .ok patterns) :
    ofToml text tools = .ok ((Setup.ofText config text tools.tests).audit [patterns] tools.covers) := by
  have made : ofSetup (.ofText config text tools.tests) tools =
      .ok ((Setup.ofText config text tools.tests).audit [patterns] tools.covers) := by
    refine ofSetup_eq_ok.mpr ⟨[patterns], ?_, rfl⟩
    simp [Setup.ofText, mapM_cons, loaded, bind, Except.bind, pure, Except.pure]
  rw [Setup.ofText] at made
  simp [ofToml, Config.parse, parsed, build, made, Setup.ofText, bind, Except.bind]

def batches (audit : Audit) (source file : String) : List Batch :=
  audit.shared.batches (Program.ofSource file source).1 audit.selection ++
    audit.own.batches (Program.ofSource file source).1 audit.ownSelection

/-- Whether rules are run on a source text: it has no errors, or they do not matter. -/
def Runs (audit : Audit) (source file : String) : Prop :=
  (Program.ofSource file source).2 = [] ∨ audit.analyzePartial = true

variable {audit : Audit} {source file : String}

theorem analyze_findings (runs : audit.Runs source file) :
    (audit.analyze source file).findings =
      audit.apply source ((audit.batches source file).flatMap Batch.findings) := by
  unfold analyze batches
  unfold Runs at runs
  generalize Program.ofSource file source = read at runs ⊢
  obtain ⟨program, errors⟩ := read
  dsimp only at runs ⊢
  rw [if_neg]
  · rfl
  · rintro ⟨faulty, skipped⟩
    rcases runs with clean | partially
    · exact faulty clean
    · simp [partially] at skipped

variable {setup : Setup} {tests : Builtin.Tests} (patterns : List PatternRule) (covers : FilePattern → String → Bool)

theorem own_contains (plain : setup.OfConfig tests) (builtin : Builtin) :
    (setup.audit patterns covers).own.contains builtin.name = false := by
  rw [← Bool.not_eq_true]
  intro registered
  obtain ⟨rule, member, same⟩ := (Registry.contains_ofRules _ _).mp registered
  rw [plain.rules, nil_append] at member
  exact builtin.name_ne_patterns (same ▸ PatternRule.name_of_mem_rules member)

theorem selected_iff (plain : setup.OfConfig tests) (builtin : Builtin) :
    builtin.name ∈ (setup.audit patterns covers).selection ∧
        (setup.audit patterns covers).shared.contains builtin.name = true ↔
      builtin ∈ setup.config.requested ∧ setup.config.CallsByName builtin := by
  have chosen : builtin.name ∈ setup.chosen ∧ builtin ∈ setup.config.builtins ↔
      builtin ∈ setup.config.builtins ∧ setup.config.CallsByName builtin := by
    unfold Setup.chosen Config.CallsByName
    rw [plain.selection, plain.shared]
    dsimp only
    by_cases free : setup.config.analyzer.rules = []
    · simp [free, Registry.mem_names, Config.registry_contains]
    · simp [free, and_comm]
  change builtin.name ∈ setup.chosen.filter setup.config.isEnabled ∧ setup.shared.contains builtin.name = true ↔ _
  rw [plain.shared, Config.registry_contains, Config.requested, mem_filter, mem_filter]
  tauto

theorem mem_activeRules_iff (plain : setup.OfConfig tests) (builtin : Builtin) :
    builtin.name ∈ (setup.audit patterns covers).activeRules ↔
      builtin ∈ setup.config.requested ∧ setup.config.CallsByName builtin := by
  have own := own_contains patterns covers plain builtin
  have outside : builtin.name ∉ (setup.audit patterns covers).ownSelection := by
    intro member
    have registered := Registry.mem_names.mp (mem_filter.mp member).1
    rw [show Registry.ofRules _ = (setup.audit patterns covers).own from rfl, own] at registered
    cases registered
  rw [← selected_iff patterns covers plain builtin, activeRules, mem_filter, mem_append, own]
  simp [outside]

theorem mem_batches_iff (plain : setup.OfConfig tests) (builtin : Builtin) (source file : String) :
    builtin.name ∈ ((setup.audit patterns covers).batches source file).map (·.rule) ↔
      builtin ∈ setup.config.requested ∧ setup.config.CallsByName builtin := by
  rw [batches, map_append, mem_append, Registry.mem_batches_rule, Registry.mem_batches_rule,
    own_contains patterns covers plain builtin, selected_iff patterns covers plain builtin]
  simp

/-- The built-in rules that an audit made from a text runs on every file, which are its active ones, are
    those that the text asks for, but for the ones that it names by their codes only: the registry holds
    these under their names, and there the codes are looked up in vain. -/
theorem ofToml_runs_named {text : String} {tools : Tools} {audit : Audit} (made : ofToml text tools = .ok audit) :
    Config.parse? text tools.read = some audit.config ∧
    ∀ builtin : Builtin,
      (builtin.name ∈ audit.activeRules ↔
        builtin ∈ audit.config.requested ∧ audit.config.CallsByName builtin) ∧
      ∀ source file, audit.Runs source file →
        (audit.analyze source file).findings =
          audit.apply source ((audit.batches source file).flatMap Batch.findings) ∧
        (builtin.name ∈ (audit.batches source file).map (·.rule) ↔
          builtin ∈ audit.config.requested ∧ audit.config.CallsByName builtin) := by
  obtain ⟨config, patterns, parsed, rfl⟩ := ofToml_eq_ok made
  have plain : (Setup.ofText config text tools.tests).OfConfig tools.tests := ⟨rfl, rfl, rfl⟩
  refine ⟨parsed, fun builtin => ⟨mem_activeRules_iff patterns tools.covers plain builtin, ?_⟩⟩
  intro source file runs
  exact ⟨analyze_findings runs, mem_batches_iff patterns tools.covers plain builtin source file⟩

def mixedSelection : String :=
  "[analyzer]\nrules = [\"xss\", \"ps001\", \"bogus\", \"ssrf\"]\n[rules.ssrf]\nenabled = false\n"

def mixedConfig : Config where
  analyzer := { rules := ["xss", "ps001", "bogus", "ssrf"] }
  rules := [("ssrf", { enabled := some false })]

theorem ofToml_mixedSelection :
    ofToml mixedSelection = .ok ((Setup.ofText mixedConfig mixedSelection).audit [⟨[]⟩]) := by
  have parsed : Config.parse? mixedSelection = some mixedConfig := by decide +kernel
  have loaded : PatternRule.load mixedSelection = .ok ⟨[]⟩ := by decide +kernel
  exact ofToml_of_parsed parsed loaded

theorem ofToml_runs_named_mixed :
    ∃ audit, ofToml mixedSelection = .ok audit ∧ audit.Runs "x" "a.py" ∧
      Builtin.xss.name ∈ (audit.batches "x" "a.py").map (·.rule) ∧
      Builtin.sqlInjection ∈ audit.config.requested ∧
      Builtin.sqlInjection.name ∉ (audit.batches "x" "a.py").map (·.rule) ∧
      Builtin.ssrf.name ∉ audit.activeRules := by
  obtain ⟨_, named⟩ := ofToml_runs_named ofToml_mixedSelection
  refine ⟨_, ofToml_mixedSelection, .inr rfl, ?_, ?_, ?_, ?_⟩
  · have xss : Builtin.xss ∈ mixedConfig.requested ∧ mixedConfig.CallsByName .xss := by decide
    exact ((named .xss).2 _ _ (.inr rfl)).2.mpr xss
  · show Builtin.sqlInjection ∈ mixedConfig.requested
    decide
  · intro member
    have unnamed : ¬ mixedConfig.CallsByName .sqlInjection := by decide
    exact unnamed (((named .sqlInjection).2 _ _ (.inr rfl)).2.mp member).2
  · intro member
    have disabled : Builtin.ssrf ∉ mixedConfig.requested := by decide
    exact disabled ((named .ssrf).1.mp member).1

def codedSelection : String := "[analyzer]\nrules = [\"PS001\"]\n"

def codedConfig : Config where
  analyzer := { rules := ["PS001"] }

theorem ofToml_codedSelection :
    ofToml codedSelection = .ok ((Setup.ofText codedConfig codedSelection).audit [⟨[]⟩]) := by
  have parsed : Config.parse? codedSelection = some codedConfig := by decide +kernel
  have loaded : PatternRule.load codedSelection = .ok ⟨[]⟩ := by decide +kernel
  exact ofToml_of_parsed parsed loaded

/-- So a rule that is asked for need not run. -/
theorem ofToml_not_all_requested :
    ¬ ∀ (text : String) (audit : Audit), ofToml text = .ok audit → ∀ builtin : Builtin,
      (builtin.name ∈ audit.activeRules ↔ builtin ∈ audit.config.requested) ∧
      ∀ source file, audit.Runs source file →
        (builtin.name ∈ (audit.batches source file).map (·.rule) ↔ builtin ∈ audit.config.requested) := by
  intro all
  have asked : Builtin.sqlInjection ∈ codedConfig.requested := by decide
  have unnamed : ¬ codedConfig.CallsByName .sqlInjection := by decide
  have active := (all _ _ ofToml_codedSelection .sqlInjection).1.mpr asked
  exact unnamed ((mem_activeRules_iff _ _ ⟨rfl, rfl, rfl⟩ _).mp active).2

end Audit
end SourceAudit
