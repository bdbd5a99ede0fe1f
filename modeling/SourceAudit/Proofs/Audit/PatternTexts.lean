import Mathlib.Data.List.Forall2
import Mathlib.Data.List.Perm.Basic
import SourceAudit.Proofs.Audit.Selection

open List

namespace SourceAudit

theorem mapM_eq_ok {ε α β : Type} {f : α → Except ε β} {items : List α} {values : List β}
    (each : List.Forall₂ (fun item value => f item = .ok value) items values) :
    items.mapM f = .ok values := by
  induction each with
  | nil => rfl
  | cons first _ ih => simp [mapM_cons, first, ih, bind, Except.bind, pure, Except.pure]

theorem exists_mapM_eq_ok {ε α β : Type} {f : α → Except ε β} {items : List α}
    (each : ∀ item ∈ items, ∃ value, f item = .ok value) :
    ∃ values, List.Forall₂ (fun item value => f item = .ok value) items values := by
  induction items with
  | nil => exact ⟨[], .nil⟩
  | cons item rest ih =>
    obtain ⟨value, first⟩ := each item mem_cons_self
    obtain ⟨values, others⟩ := ih fun other member => each other (mem_cons_of_mem _ member)
    exact ⟨value :: values, .cons first others⟩

namespace Registry

theorem ofRules_append (front back : List Rule) :
    ofRules (front ++ back) = back.foldl insert (ofRules front) :=
  foldl_append

theorem foldl_insert_last {rules : List Rule} {last : Rule} (same : ∀ rule ∈ rules, rule.name = last.name)
    (registry : Registry) : (rules ++ [last]).foldl insert registry = registry.insert last := by
  induction rules generalizing registry with
  | nil => rfl
  | cons rule rest ih =>
    rw [cons_append, foldl_cons, ih fun other member => same other (mem_cons_of_mem _ member)]
    exact insert_insert (same rule mem_cons_self) registry

end Registry

namespace PatternRule

variable {rule : PatternRule} (covers : FilePattern → String → Bool)

theorem rules_of_filled (filled : rule.isEmpty = false) : rule.rules covers = [rule.toRule covers] := by
  simp [rules, filled]

theorem flatMap_rules_bare {back : List PatternRule} (bare : ∀ other ∈ back, other.isEmpty = true) :
    back.flatMap (·.rules covers) = [] := by
  rw [flatMap_eq_nil_iff]
  intro other member
  simp [rules, bare other member]

end PatternRule

namespace Audit

variable {setup : Setup} {rule : PatternRule} {covers : FilePattern → String → Bool}

theorem audit_last (front : List PatternRule) {back : List PatternRule} (filled : rule.isEmpty = false)
    (bare : ∀ other ∈ back, other.isEmpty = true) :
    setup.audit (front ++ rule :: back) covers = setup.audit [rule] covers := by
  have own : Registry.ofRules (setup.rules ++ (front ++ rule :: back).flatMap (·.rules covers)) =
      Registry.ofRules (setup.rules ++ [rule].flatMap (·.rules covers)) := by
    rw [flatMap_append, flatMap_cons, PatternRule.flatMap_rules_bare covers bare, flatMap_singleton,
      PatternRule.rules_of_filled covers filled, append_nil, Registry.ofRules_append, Registry.ofRules_append,
      Registry.foldl_insert_last]
    · rfl
    · intro other member
      exact PatternRule.name_of_mem_rules member
  unfold Setup.audit
  rw [own]

def keeps (audit : Audit) (source : String) (finding : Finding) : Bool :=
  let suppressions :=
    if audit.config.analyzer.respectSuppressions then Suppressions.ofSource source else ⟨[]⟩
  audit.config.isEnabled finding.rule && !suppressions.isAllowed finding.line finding.rule

theorem apply_perm (audit : Audit) (source : String) (findings : List Finding) :
    (audit.apply source findings).Perm ((findings.filter (audit.keeps source)).map audit.overridden) :=
  mergeSort_perm _ _

theorem subperm_apply {audit : Audit} {source : String} {part findings : List Finding}
    (within : part.Sublist findings) (kept : ∀ finding ∈ part, audit.keeps source finding = true) :
    (part.map audit.overridden).Subperm (audit.apply source findings) := by
  have same : part.filter (audit.keeps source) = part := filter_eq_self.mpr kept
  refine List.Subperm.trans ?_ (audit.apply_perm source findings).symm.subperm
  rw [← same]
  exact ((within.filter _).map _).subperm

theorem find?_own (setup : Setup) (covers : FilePattern → String → Bool) (filled : rule.isEmpty = false) :
    (setup.audit [rule] covers).own.find? PatternRule.id.name = some (rule.toRule covers) := by
  change (Registry.ofRules (setup.rules ++ [rule].flatMap (·.rules covers))).find? _ = _
  rw [flatMap_singleton, PatternRule.rules_of_filled covers filled, Registry.ofRules_append, foldl_cons,
    foldl_nil, Registry.find?_insert, if_pos]
  rfl

theorem check_sublist_batches (filled : rule.isEmpty = false)
    (enabled : setup.config.isEnabled PatternRule.id.name = true) (source file : String) :
    (rule.check (Program.ofSource file source).1 covers).Sublist
      (((setup.audit [rule] covers).batches source file).flatMap Batch.findings) := by
  have found := find?_own setup covers filled
  have registered : PatternRule.id.name ∈ (setup.audit [rule] covers).own.names :=
    Registry.mem_names.mpr (by simp [Registry.contains, found])
  have chosen : PatternRule.id.name ∈ (setup.audit [rule] covers).ownSelection :=
    mem_filter.mpr ⟨registered, enabled⟩
  have batch := Registry.batch_mem (Program.ofSource file source).1 chosen found
  rw [flatMap_def]
  exact sublist_flatten_of_mem (mem_map_of_mem (mem_append_right _ batch))

theorem batches_alone (shared : setup.shared = {}) (alone : setup.rules = []) (filled : rule.isEmpty = false)
    (enabled : setup.config.isEnabled PatternRule.id.name = true) (source file : String) :
    ((setup.audit [rule] covers).batches source file).flatMap Batch.findings =
      rule.check (Program.ofSource file source).1 covers := by
  have own : (setup.audit [rule] covers).own = ⟨[rule.toRule covers]⟩ := by
    change Registry.ofRules (setup.rules ++ [rule].flatMap (·.rules covers)) = _
    rw [alone, flatMap_singleton, PatternRule.rules_of_filled covers filled]
    rfl
  have chosen : (setup.audit [rule] covers).ownSelection = [PatternRule.id.name] := by
    change (setup.audit [rule] covers).own.names.filter setup.config.isEnabled = _
    rw [own]
    exact filter_cons_of_pos enabled
  have none : (setup.audit [rule] covers).shared = {} := shared
  have nothing : Registry.select {} (setup.audit [rule] covers).selection = [] :=
    filterMap_eq_nil_iff.mpr fun _ _ => rfl
  have selected : Registry.select ⟨[rule.toRule covers]⟩ [PatternRule.id.name] = [rule.toRule covers] := rfl
  rw [batches, own, chosen, none, Registry.batches, Registry.batches, nothing, selected]
  exact append_nil _

/-- Of the texts with pattern rules only the last one that has entries counts: the audit is the one of
    that text alone. Its findings, with the severities of the configuration, are in the report of every
    file, unless a setting or a comment drops them. -/
theorem ofSetup_last_text (setup : Setup) (tools : Tools) {front back : List String} {text : String}
    {rule : PatternRule} (valid : ∀ other ∈ front, ∃ patterns, PatternRule.load other tools.read = .ok patterns)
    (loaded : PatternRule.load text tools.read = .ok rule) (filled : rule.isEmpty = false)
    (bare : ∀ other ∈ back, PatternRule.load other tools.read = .ok ⟨[]⟩) :
    ∃ audit, ofSetup { setup with patterns := front ++ text :: back } tools = .ok audit ∧
      ofSetup { setup with patterns := [text] } tools = .ok audit ∧
      ∀ source file, audit.Runs source file → audit.config.isEnabled PatternRule.id.name = true →
        (∀ finding ∈ rule.check (Program.ofSource file source).1 tools.covers, audit.keeps source finding = true) →
        ((rule.check (Program.ofSource file source).1 tools.covers).map audit.overridden).Subperm
          (audit.analyze source file).findings := by
  obtain ⟨first, before⟩ := exists_mapM_eq_ok valid
  have after : List.Forall₂ (fun other patterns => PatternRule.load other tools.read = .ok patterns) back
      (back.map fun _ => ⟨[]⟩) := by
    rw [forall₂_map_right_iff, forall₂_same]
    exact bare
  have empty : ∀ other ∈ back.map fun _ => (⟨[]⟩ : PatternRule), other.isEmpty = true := by
    simp [PatternRule.isEmpty]
  have all := mapM_eq_ok (rel_append before (.cons loaded after))
  have alone := mapM_eq_ok (List.Forall₂.cons loaded .nil)
  refine ⟨setup.audit [rule] tools.covers, ofSetup_eq_ok.mpr ⟨_, all, ?_⟩, ofSetup_eq_ok.mpr ⟨_, alone, rfl⟩, ?_⟩
  · exact audit_last first filled empty
  · intro source file runs enabled kept
    rw [analyze_findings runs]
    exact subperm_apply (check_sublist_batches filled enabled source file) kept

def execText : String :=
  "[[pattern-rule]]\nname = \"no-exec\"\nsinks = [\"exec\"]\nmessage = \"Runs data\"\n"

def evalText : String :=
  "[[pattern-rule]]\nname = \"no-eval\"\nsinks = [\"eval\"]\nmessage = \"Reads data\"\n"

def execRule : PatternRule :=
  ⟨[⟨⟨"no-exec"⟩, "PSD001", [⟨"exec"⟩], ⟨[], []⟩, [], "Runs data", .error⟩]⟩

def evalRule : PatternRule :=
  ⟨[⟨⟨"no-eval"⟩, "PSD001", [⟨"eval"⟩], ⟨[], []⟩, [], "Reads data", .error⟩]⟩

def bothCalls : String := "exec()\neval()\n"

theorem load_texts : PatternRule.load execText = .ok execRule ∧ PatternRule.load evalText = .ok evalRule ∧
    PatternRule.load "" = .ok ⟨[]⟩ := by decide +kernel

theorem covers_standard : Tools.standard.covers = FilePattern.isMatch := rfl

theorem check_bothCalls :
    execRule.check (Program.ofSource "a.py" bothCalls).1 =
      [⟨"no-exec", "PSD001", "Runs data: `exec`", .error, ⟨"a.py", 1⟩, none⟩] ∧
    evalRule.check (Program.ofSource "a.py" bothCalls).1 =
      [⟨"no-eval", "PSD001", "Reads data: `eval`", .error, ⟨"a.py", 2⟩, none⟩] := by decide +kernel

theorem bothCalls_plain :
    (Program.ofSource "a.py" bothCalls).2 = [] ∧ Suppressions.ofSource bothCalls = ⟨[]⟩ := by decide +kernel

theorem bothCalls_runs (audit : Audit) : audit.Runs bothCalls "a.py" := .inl bothCalls_plain.1

theorem keeps_bothCalls {setup : Setup} (plain : setup.config = {}) (patterns : List PatternRule)
    (covers : FilePattern → String → Bool) (finding : Finding) :
    (setup.audit patterns covers).keeps bothCalls finding = true := by
  have config : (setup.audit patterns covers).config = {} := plain
  unfold keeps
  rw [config, bothCalls_plain.2]
  rfl

theorem ofSetup_last_text_eval :
    ∃ audit, ofSetup { patterns := [execText, evalText, ""] } = .ok audit ∧
      audit.Runs bothCalls "a.py" ∧
      [⟨"no-eval", "PSD001", "Reads data: `eval`", .error, ⟨"a.py", 2⟩, none⟩].Subperm
        (audit.analyze bothCalls "a.py").findings := by
  have valid : ∀ other ∈ [execText], ∃ patterns, PatternRule.load other = .ok patterns := by
    simp [load_texts.1]
  have bare : ∀ other ∈ [""], PatternRule.load other = .ok ⟨[]⟩ := by
    simp [load_texts.2.2]
  obtain ⟨audit, made, alone, reported⟩ := ofSetup_last_text {} .standard valid load_texts.2.1 rfl bare
  obtain ⟨patterns, _, rfl⟩ := ofSetup_eq_ok.mp alone
  have contained := reported bothCalls "a.py" (bothCalls_runs _) rfl fun finding _ =>
    keeps_bothCalls rfl patterns _ finding
  rw [covers_standard, check_bothCalls.2] at contained
  exact ⟨_, made, bothCalls_runs _, contained⟩

/-- So a text may have findings that no report shows. -/
theorem ofSetup_not_every_text :
    ¬ ∀ (setup : Setup) (loaded : List PatternRule) (audit : Audit),
      setup.patterns.mapM PatternRule.load = .ok loaded → ofSetup setup = .ok audit →
      ∀ source file, audit.Runs source file → audit.config.isEnabled PatternRule.id.name = true →
        (∀ rule ∈ loaded, ∀ finding ∈ rule.check (Program.ofSource file source).1,
          audit.keeps source finding = true) →
        ∀ rule ∈ loaded, ((rule.check (Program.ofSource file source).1).map audit.overridden).Subperm
          (audit.analyze source file).findings := by
  intro every
  have loaded : [execText, evalText].mapM (PatternRule.load ·) = .ok [execRule, evalRule] :=
    mapM_eq_ok (.cons load_texts.1 (.cons load_texts.2.1 .nil))
  have contained := every { patterns := [execText, evalText] } _ _ loaded (ofSetup_eq_ok.mpr ⟨_, loaded, rfl⟩)
    bothCalls "a.py" (bothCalls_runs _) rfl (fun _ _ finding _ => keeps_bothCalls rfl _ _ finding) execRule
    mem_cons_self
  have last : Setup.audit { patterns := [execText, evalText] } [execRule, evalRule] =
      Setup.audit { patterns := [execText, evalText] } [evalRule] :=
    audit_last [execRule] rfl (forall_mem_nil _)
  rw [covers_standard, last, analyze_findings (bothCalls_runs _), batches_alone rfl rfl rfl rfl,
    check_bothCalls.1, check_bothCalls.2] at contained
  have member := (apply_perm _ _ _).subset (contained.subset mem_cons_self)
  simp [overridden, Config.severity?, Config.rule?, Setup.audit] at member

end Audit
end SourceAudit
