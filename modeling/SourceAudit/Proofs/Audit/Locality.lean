import Mathlib.Data.List.Forall2
import SourceAudit.Proofs.Audit.Scheduling

open List

namespace SourceAudit

structure Config.DiffersAt (name : String) (config other : Config) : Prop where
  preset : config.preset = other.preset
  failOn : config.failOn = other.failOn
  analyzer : config.analyzer = other.analyzer
  rule? : ∀ rule, rule ≠ name → config.rule? rule = other.rule? rule

/-- Rules with one name that are the same rule, unless they have the given name. -/
structure Rule.AgreeOff (name : String) (rule other : Rule) : Prop where
  name_eq : rule.name = other.name
  eq : rule.name ≠ name → rule = other

theorem filter_eraseDups (test : String → Bool) (names : List String) :
    names.eraseDups.filter test = (names.filter test).eraseDups := by
  match names with
  | [] => rfl
  | first :: rest =>
    have later := filter_eraseDups test (rest.filter fun name => !name == first)
    rw [eraseDups_cons, filter_cons, filter_cons, later, filter_comm]
    cases kept : test first with
    | true => rw [if_pos rfl, if_pos rfl, eraseDups_cons]
    | false =>
      have apart : ∀ name ∈ rest.filter test, (!name == first) = true := by
        rintro name member
        have passes := (mem_filter.mp member).2
        simp only [Bool.not_eq_true', beq_eq_false_iff_ne]
        rintro rfl
        simp [passes] at kept
      rw [if_neg (by simp), if_neg (by simp), filter_eq_self.mpr apart]
termination_by names.length
decreasing_by exact Nat.lt_succ_of_le (length_filter_le _ _)

namespace Registry

variable {name : String}

theorem place_agree {rule other : Rule} {rules others : List Rule} (first : rule.AgreeOff name other)
    (agree : List.Forall₂ (Rule.AgreeOff name) rules others) :
    List.Forall₂ (Rule.AgreeOff name) (place rule rules) (place other others) := by
  induction agree with
  | nil => exact .cons first .nil
  | cons head tail ih =>
    unfold place
    rw [first.name_eq, head.name_eq]
    split
    · exact .cons first tail
    · split
      · exact .cons first (.cons head tail)
      · exact .cons head ih

theorem ofRules_agree {rules others : List Rule} (agree : List.Forall₂ (Rule.AgreeOff name) rules others) :
    List.Forall₂ (Rule.AgreeOff name) (ofRules rules).rules (ofRules others).rules :=
  rel_foldl (P := fun registry registry' : Registry =>
      List.Forall₂ (Rule.AgreeOff name) registry.rules registry'.rules)
    (fun _ _ before rule other next => @place_agree _ rule other _ _ next before) .nil agree

variable {registry other : Registry}

theorem names_agree (agree : List.Forall₂ (Rule.AgreeOff name) registry.rules other.rules) :
    registry.names = other.names := by
  unfold names
  generalize registry.rules = rules, other.rules = others at agree
  induction agree with
  | nil => rfl
  | cons head _ ih => rw [map_cons, map_cons, head.name_eq, ih]

theorem find?_agree (agree : List.Forall₂ (Rule.AgreeOff name) registry.rules other.rules) {wanted : String}
    (apart : wanted ≠ name) : registry.find? wanted = other.find? wanted := by
  unfold find?
  generalize registry.rules = rules, other.rules = others at agree
  induction agree with
  | nil => rfl
  | cons head _ ih =>
    rw [List.find?_cons, List.find?_cons, head.name_eq, ih]
    split
    · rename_i found
      have named := (beq_iff_eq.mp found) ▸ head.name_eq
      rw [head.eq (named ▸ apart)]
    · rfl

theorem filter_select (registry : Registry) (names : List String) (name : String) :
    (registry.select names).filter (·.name != name) = registry.select (names.filter (· != name)) := by
  unfold select
  rw [← filter_eraseDups, filter_filterMap, filterMap_filter]
  congr 1
  funext wanted
  cases found : registry.find? wanted with
  | none => simp
  | some rule =>
    have named := name_of_find? found
    simp [Option.filter, named]

theorem select_agree (agree : List.Forall₂ (Rule.AgreeOff name) registry.rules other.rules) {names : List String}
    (apart : name ∉ names) : registry.select names = other.select names := by
  unfold select
  apply filterMap_congr
  intro wanted member
  apply find?_agree agree
  rintro rfl
  exact apart (mem_eraseDups.mp member)

end Registry

theorem filter_findings_of_signs (program : Program) (name : String) {rules : List Rule}
    (signs : ∀ rule ∈ rules, rule.Signs) :
    ((rules.map (.ofRule program)).flatMap Batch.findings).filter (·.rule != name) =
      ((rules.filter (·.name != name)).map (.ofRule program)).flatMap Batch.findings := by
  induction rules with
  | nil => rfl
  | cons rule rest ih =>
    obtain ⟨here, later⟩ := forall_mem_cons.mp signs
    have named : ∀ finding ∈ (Batch.ofRule program rule).findings, finding.rule = rule.name := by
      intro finding member
      cases result : rule.check program with
      | ok findings =>
        simp only [Batch.ofRule, Batch.findings, result] at member
        exact here program findings result finding member
      | error message => simp [Batch.ofRule, Batch.findings, result] at member
    rw [map_cons, flatMap_cons, filter_append, ih later, filter_cons]
    split
    · rename_i other
      rw [map_cons, flatMap_cons, filter_eq_self.mpr]
      intro finding member
      rwa [named finding member]
    · rename_i same
      rw [filter_eq_nil_iff.mpr, nil_append]
      intro finding member
      rwa [named finding member]

namespace Config.DiffersAt

variable {name : String} {config other : Config} (differs : config.DiffersAt name other)

include differs

theorem isEnabled {rule : String} (apart : rule ≠ name) : config.isEnabled rule = other.isEnabled rule := by
  unfold Config.isEnabled
  rw [differs.rule? rule apart]

theorem severity? {rule : String} (apart : rule ≠ name) : config.severity? rule = other.severity? rule := by
  unfold Config.severity?
  rw [differs.rule? rule apart]

theorem filter_isEnabled (names : List String) :
    (names.filter config.isEnabled).filter (· != name) = (names.filter other.isEnabled).filter (· != name) := by
  rw [filter_filter, filter_filter]
  apply filter_congr
  intro rule _
  by_cases same : rule = name
  · simp [same]
  · rw [differs.isEnabled same]

theorem rulePreset : config.rulePreset = other.rulePreset := by
  unfold Config.rulePreset
  rw [differs.preset]

theorem builtins : config.builtins = other.builtins := by
  unfold Config.builtins
  rw [differs.analyzer, differs.rulePreset]

theorem registry (tests : Builtin.Tests) :
    List.Forall₂ (Rule.AgreeOff name) (config.registry tests).rules (other.registry tests).rules := by
  apply Registry.ofRules_agree
  unfold selectedRules
  rw [differs.builtins, differs.rulePreset, forall₂_map_left_iff, forall₂_map_right_iff,
    forall₂_same]
  intro builtin _
  refine ⟨by rw [Builtin.rule_name, Builtin.rule_name], fun apart => ?_⟩
  rw [Builtin.rule_name] at apart
  rw [differs.rule? _ apart]

end Config.DiffersAt

namespace Audit

/-- Audits that differ at most in the settings of one rule, which is none of their own. -/
structure DiffersAt (name : String) (audit other : Audit) : Prop where
  config : audit.config.DiffersAt name other.config
  shared : List.Forall₂ (Rule.AgreeOff name) audit.shared.rules other.shared.rules
  selection : audit.selection.filter (· != name) = other.selection.filter (· != name)
  own : audit.own = other.own
  ownSelection : audit.ownSelection = other.ownSelection
  analyzePartial : audit.analyzePartial = other.analyzePartial

variable {name : String} {audit other : Audit} {source file : String}

theorem syntaxErrors_analyze (audit : Audit) (source file : String) :
    (audit.analyze source file).syntaxErrors = (Program.ofSource file source).2 := by
  by_cases runs : audit.Runs source file
  · rw [analyze_of_runs runs]
    rfl
  · rw [analyze_of_stops runs]

theorem load_of_ofToml {text : String} {tools : Tools} (made : ofToml text tools = .ok audit) :
    ∃ patterns, PatternRule.load text tools.read = .ok patterns := by
  cases loaded : PatternRule.load text tools.read with
  | ok patterns => exact ⟨patterns, rfl⟩
  | error error =>
    unfold ofToml build ofSetup at made
    cases parsed : Config.parse text tools.read <;> simp [parsed, loaded, bind, Except.bind, mapM_cons] at made

namespace DiffersAt

variable (differs : audit.DiffersAt name other)

include differs

theorem keeps {finding : Finding} (apart : finding.rule ≠ name) :
    audit.keeps source finding = other.keeps source finding := by
  unfold Audit.keeps
  rw [differs.config.analyzer, differs.config.isEnabled apart]

theorem overridden {finding : Finding} (apart : finding.rule ≠ name) :
    audit.overridden finding = other.overridden finding := by
  unfold Audit.overridden
  rw [differs.config.severity? apart]

theorem apply {findings findings' : List Finding}
    (same : findings.filter (·.rule != name) = findings'.filter (·.rule != name)) :
    (audit.apply source findings).filter (·.rule != name) =
      (other.apply source findings').filter (·.rule != name) := by
  have sorts : ∀ (audit : Audit) (findings : List Finding),
      (audit.apply source findings).filter (·.rule != name) =
        Finding.sortByPlace
          (((findings.filter (·.rule != name)).filter (audit.keeps source)).map audit.overridden) := by
    intro audit findings
    change (Finding.sortByPlace ((findings.filter (audit.keeps source)).map audit.overridden)).filter _ = _
    unfold Finding.sortByPlace
    rw [Finding.ranks_place.filter_mergeSort, filter_map, filter_comm]
    congr 3
    apply filter_congr
    intro finding _
    rw [Function.comp_apply, rule_overridden]
  rw [sorts, sorts, same]
  have apart : ∀ finding ∈ findings'.filter (·.rule != name), finding.rule ≠ name := by
    intro finding member
    exact bne_iff_ne.mp (mem_filter.mp member).2
  congr 1
  rw [filter_congr fun finding member => differs.keeps (apart finding member)]
  apply map_congr_left
  intro finding member
  exact differs.overridden (apart finding (mem_filter.mp member).1)

theorem batches (signs : ∀ rule ∈ audit.shared.select audit.selection, rule.Signs)
    (signs' : ∀ rule ∈ other.shared.select other.selection, rule.Signs) :
    ((audit.batches source file).flatMap Batch.findings).filter (·.rule != name) =
      ((other.batches source file).flatMap Batch.findings).filter (·.rule != name) := by
  unfold Audit.batches Registry.batches
  have apart : name ∉ other.selection.filter (· != name) := by simp
  rw [flatMap_append, flatMap_append, filter_append, filter_append,
    filter_findings_of_signs _ _ signs, filter_findings_of_signs _ _ signs', Registry.filter_select,
    Registry.filter_select, differs.selection, Registry.select_agree differs.shared apart, differs.own,
    differs.ownSelection]

theorem runs_iff : audit.Runs source file ↔ other.Runs source file := by
  unfold Runs
  rw [differs.analyzePartial]

theorem analyze (separate : audit.Separate) (separate' : other.Separate) :
    (audit.analyze source file).findings.filter (·.rule != name) =
      (other.analyze source file).findings.filter (·.rule != name) := by
  by_cases runs : audit.Runs source file
  · rw [analyze_findings runs, analyze_findings (differs.runs_iff.mp runs)]
    exact differs.apply (differs.batches separate.shared separate'.shared)
  · rw [analyze_of_stops runs, analyze_of_stops fun runs' => runs (differs.runs_iff.mpr runs')]

end DiffersAt

theorem Setup.OfConfig.differsAt {setup setup' : Setup} {tests : Builtin.Tests} (plain : setup.OfConfig tests)
    (plain' : setup'.OfConfig tests) (differs : setup.config.DiffersAt name setup'.config)
    (partially : setup.analyzePartial = setup'.analyzePartial) (apart : name ≠ PatternRule.id.name)
    (patterns : List PatternRule) (covers : FilePattern → String → Bool) :
    (setup.audit patterns covers).DiffersAt name (setup'.audit patterns covers) where
  config := differs
  shared := by
    change List.Forall₂ _ setup.shared.rules setup'.shared.rules
    rw [plain.shared, plain'.shared]
    exact differs.registry tests
  selection := by
    have chosen : setup.chosen = setup'.chosen := by
      unfold Setup.chosen
      rw [plain.selection, plain'.selection, plain.shared, plain'.shared]
      dsimp only
      rw [differs.analyzer, Registry.names_agree (differs.registry tests)]
    change (setup.chosen.filter setup.config.isEnabled).filter _ = (setup'.chosen.filter setup'.config.isEnabled).filter _
    rw [differs.filter_isEnabled, chosen]
  own := by
    unfold Setup.audit
    rw [plain.rules, plain'.rules]
  ownSelection := by
    unfold Setup.audit
    dsimp only
    rw [plain.rules, plain'.rules, nil_append]
    apply filter_congr
    intro rule member
    obtain ⟨made, registered, rfl⟩ := (Registry.contains_ofRules _ _).mp (Registry.mem_names.mp member)
    rw [PatternRule.name_of_mem_rules registered]
    exact differs.isEnabled apart.symm
  analyzePartial := by
    unfold Setup.audit
    dsimp only
    rw [differs.analyzer, partially]

/-- Where two texts differ only in the table of one rule, which is not the one of all pattern rules, the
    audits that they make report the same errors of every source text, and the same findings but for those
    under the name of that rule. -/
theorem ofToml_local {tools : Tools} {first second : String} {config config' : Config}
    (parsed : Config.parse? first tools.read = some config) (parsed' : Config.parse? second tools.read = some config')
    (differs : config.DiffersAt name config')
    (loads : PatternRule.load first tools.read = PatternRule.load second tools.read)
    (apart : name ≠ PatternRule.id.name) (made : ofToml first tools = .ok audit) :
    ∃ other, ofToml second tools = .ok other ∧ ∀ source file,
      (audit.analyze source file).syntaxErrors = (other.analyze source file).syntaxErrors ∧
      (audit.analyze source file).findings.filter (·.rule != name) =
        (other.analyze source file).findings.filter (·.rule != name) := by
  obtain ⟨patterns, loaded⟩ := load_of_ofToml made
  have same := ofToml_of_parsed parsed loaded
  rw [made] at same
  cases same
  refine ⟨_, ofToml_of_parsed parsed' (loads ▸ loaded), fun source file => ⟨?_, ?_⟩⟩
  · rw [syntaxErrors_analyze, syntaxErrors_analyze]
  · have plain : (Setup.ofText config first tools.tests).OfConfig tools.tests := ⟨rfl, rfl, rfl⟩
    have plain' : (Setup.ofText config' second tools.tests).OfConfig tools.tests := ⟨rfl, rfl, rfl⟩
    exact (plain.differsAt plain' differs rfl apart [patterns] tools.covers).analyze (plain.separate _ _)
      (plain'.separate _ _)

def quietXss : String := "[rules.xss]\nenabled = false\n[rules.ssrf]\nseverity = \"info\"\n"

def eagerXss : String := "[rules.ssrf]\nseverity = \"info\"\n[rules.xss]\nsinks = [\"send\"]\n"

def quietConfig : Config where
  rules := [("xss", { enabled := some false }), ("ssrf", { severity := some .info })]

def eagerConfig : Config where
  rules := [("ssrf", { severity := some .info }), ("xss", { options := [("sinks", .array [.string "send"])] })]

theorem quietConfig_differsAt : quietConfig.DiffersAt "xss" eagerConfig where
  preset := rfl
  failOn := rfl
  analyzer := rfl
  rule? := by
    intro rule apart
    have other : (rule == "xss") = false := beq_eq_false_iff_ne.mpr apart
    simp [Config.rule?, quietConfig, eagerConfig, List.lookup_cons, other]

theorem ofToml_local_xss :
    ∃ audit other, ofToml quietXss = .ok audit ∧ ofToml eagerXss = .ok other ∧
      "xss" ∉ audit.activeRules ∧ "xss" ∈ other.activeRules ∧ ∀ source file,
        (audit.analyze source file).syntaxErrors = (other.analyze source file).syntaxErrors ∧
        (audit.analyze source file).findings.filter (·.rule != "xss") =
          (other.analyze source file).findings.filter (·.rule != "xss") := by
  have parsed : Config.parse? quietXss = some quietConfig := by decide +kernel
  have parsed' : Config.parse? eagerXss = some eagerConfig := by decide +kernel
  have loaded : PatternRule.load quietXss = .ok ⟨[]⟩ := by decide +kernel
  have loaded' : PatternRule.load eagerXss = .ok ⟨[]⟩ := by decide +kernel
  have made : ofToml quietXss = .ok _ := ofToml_of_parsed parsed loaded
  have made' : ofToml eagerXss = .ok _ := ofToml_of_parsed parsed' loaded'
  obtain ⟨other, found, alike⟩ := ofToml_local parsed parsed' quietConfig_differsAt
    (loaded.trans loaded'.symm) (by decide) made
  rw [made'] at found
  cases found
  refine ⟨_, _, made, made', ?_, ?_, alike⟩
  · intro active
    have off : Builtin.xss ∉ quietConfig.requested := by decide
    exact off ((mem_activeRules_iff _ _ ⟨rfl, rfl, rfl⟩ .xss).mp active).1
  · have on : Builtin.xss ∈ eagerConfig.requested ∧ eagerConfig.CallsByName .xss := by decide
    exact (mem_activeRules_iff _ _ ⟨rfl, rfl, rfl⟩ .xss).mpr on

end Audit
end SourceAudit
