import Mathlib.Algebra.Order.BigOperators.Group.List
import Mathlib.Algebra.Order.Group.Nat
import Mathlib.Data.List.Nodup
import SourceAudit.Export.Text
import SourceAudit.Proofs.Audit.Scheduling
import SourceAudit.Proofs.Text.Splitting

open List

namespace SourceAudit

theorem Builtin.rules_registry : registry.rules =
    [csrf, dangerousIo, fileInclusion, sensitiveInfo, sqlInjection, ssrf, xss].map defaultRule := rfl

theorem Builtin.file_of_runAll {program : Program} {finding : Finding}
    (member : finding ∈ (registry.runAll program).findings) : finding.file = program.file := by
  obtain ⟨batch, ran, found⟩ := mem_flatMap.mp member
  obtain ⟨rule, registered, rfl⟩ := mem_map.mp ran
  rw [rules_registry] at registered
  obtain ⟨builtin, _, rfl⟩ := mem_map.mp registered
  obtain ⟨findings, checked, _, places⟩ := builtin.rule_locates {} false .standard program
  change finding ∈ Batch.findings ⟨_, (builtin.rule {} false).check program⟩ at found
  rw [checked] at found
  exact (places finding found).file

theorem Finding.count_display (finding : Finding) :
    finding.display.toList.count '\n' = finding.file.toList.count '\n' + finding.message.toList.count '\n' := by
  have digits : (toString finding.line).toList.count '\n' = 0 := by
    refine count_eq_zero.mpr fun member => ?_
    rw [Nat.toString_eq_repr, Nat.repr, String.toList_ofList] at member
    exact absurd (Nat.isDigit_of_mem_toDigits (by decide) (by decide) member) (by decide)
  have marks : (":".toList.count '\n' = 0) ∧ (": ".toList.count '\n' = 0) := by decide
  simp only [display, String.toList_append, count_append, digits, marks, Nat.add_zero]

namespace Collector

theorem toList_toText (collector : Collector) :
    collector.toText.toList = collector.findings.flatMap fun finding => finding.display.toList ++ ['\n'] := by
  simp [toText, String.toList_join, flatMap_map]

theorem count_toText (collector : Collector) : collector.toText.toList.count '\n' =
    collector.findings.length + (collector.findings.map fun finding => finding.display.toList.count '\n').sum := by
  rw [toList_toText]
  induction collector.findings with
  | nil => rfl
  | cons finding findings ih =>
    rw [flatMap_cons, count_append, ih]
    simp
    omega

theorem split_toText {collector : Collector} (lines : ∀ finding ∈ collector.findings, '\n' ∉ finding.display.toList) :
    Text.split (· == '\n') collector.toText.toList = collector.findings.map (·.display.toList) ++ [[]] := by
  rw [toList_toText]
  generalize collector.findings = findings at lines
  induction findings with
  | nil => rfl
  | cons finding findings ih =>
    obtain ⟨first, others⟩ := forall_mem_cons.mp lines
    rw [flatMap_cons, append_assoc, singleton_append, Text.split_append, Text.split_of_not_mem first,
      ih others]
    rfl

theorem split_toText_iff {collector : Collector} (files : ∀ finding ∈ collector.findings, '\n' ∉ finding.file.toList) :
    Text.split (· == '\n') collector.toText.toList = collector.findings.map (·.display.toList) ++ [[]] ↔
      ∀ finding ∈ collector.findings, '\n' ∉ finding.message.toList := by
  have shown : ∀ finding ∈ collector.findings,
      finding.display.toList.count '\n' = finding.message.toList.count '\n' := by
    intro finding member
    rw [finding.count_display, count_eq_zero.mpr (files finding member), Nat.zero_add]
  constructor
  · intro lines finding member
    have pieces := congrArg List.length lines
    rw [Text.length_split, count_toText, length_append, length_map, length_singleton] at pieces
    have least := single_le_sum (by simp) _ (mem_map_of_mem (f := fun finding => finding.display.toList.count '\n') member)
    rw [← count_eq_zero, ← shown finding member]
    omega
  · intro messages
    refine split_toText fun finding member => ?_
    rw [← count_eq_zero, shown finding member]
    exact count_eq_zero.mpr (messages finding member)

/-- All findings of the built-in rules are in the file that is given. Their report has a line for each of them and one
    more for each line break in a message, so its lines are the findings exactly if no message has a line break. -/
theorem toText_lines {path : String} (plain : '\n' ∉ path.toList) (source : String) :
    let findings := (Builtin.registry.runAll (Program.ofSource path source).1).findings
    let text := (Collector.mk findings).toText.toList
    text.count '\n' = findings.length + (findings.map fun finding => finding.message.toList.count '\n').sum ∧
    (Text.split (· == '\n') text = findings.map (fun finding =>
        path.toList ++ ":".toList ++ (toString finding.line).toList ++ ": ".toList ++ finding.message.toList) ++ [[]] ↔
      ∀ finding ∈ findings, '\n' ∉ finding.message.toList) := by
  intro findings text
  have files : ∀ finding ∈ findings, finding.file = path := fun finding => Builtin.file_of_runAll
  have bare : ∀ finding ∈ findings, '\n' ∉ finding.file.toList := fun finding member => files finding member ▸ plain
  have shown : findings.map (fun finding =>
      path.toList ++ ":".toList ++ (toString finding.line).toList ++ ": ".toList ++ finding.message.toList) =
        findings.map (·.display.toList) := by
    refine map_congr_left fun finding member => ?_
    simp only [Finding.display, String.toList_append, files finding member]
  refine ⟨?_, ?_⟩
  · refine (count_toText ⟨findings⟩).trans (congrArg (_ + List.sum ·) (map_congr_left fun finding member => ?_))
    rw [finding.count_display, count_eq_zero.mpr (bare finding member), Nat.zero_add]
  · rw [shown]
    exact @split_toText_iff ⟨findings⟩ bare

/-- A command with an option in which a line break is written as an escape. -/
def quotedOption : String := "subprocess.run('ls', '-a\\nb')\n"

theorem runAll_quotedOption : ∃ finding ∈ (Builtin.registry.runAll (Program.ofSource "a.py" quotedOption).1).findings,
    '\n' ∈ finding.message.toList := by
  have quoted : ∃ finding ∈ DangerousIo.default.check (Program.ofSource "a.py" quotedOption).1,
      '\n' ∈ finding.message.toList := by decide +kernel
  obtain ⟨finding, found, broken⟩ := quoted
  refine ⟨finding, mem_flatMap.mpr ⟨_, mem_map_of_mem (a := Builtin.dangerousIo.defaultRule) ?_, found⟩, broken⟩
  simp [Builtin.rules_registry]

theorem toText_lines_quotedOption :
    '\n' ∉ "a.py".toList ∧
    let findings := (Builtin.registry.runAll (Program.ofSource "a.py" quotedOption).1).findings
    (Collector.mk findings).toText.toList.count '\n' =
      findings.length + (findings.map fun finding => finding.message.toList.count '\n').sum :=
  ⟨by decide, (toText_lines (by decide) quotedOption).1⟩

/-- A text that the source quotes can add lines to the report. -/
theorem toText_breaks_message : ¬ ∀ path source : String, '\n' ∉ path.toList →
    let findings := (Builtin.registry.runAll (Program.ofSource path source).1).findings
    Text.split (· == '\n') (Collector.mk findings).toText.toList = findings.map (·.display.toList) ++ [[]] := by
  intro lines
  obtain ⟨finding, member, broken⟩ := runAll_quotedOption
  refine (split_toText_iff fun finding found => ?_).mp (lines "a.py" quotedOption (by decide)) finding member broken
  rw [Builtin.file_of_runAll found]
  exact (by decide : '\n' ∉ "a.py".toList)

end Collector

end SourceAudit
