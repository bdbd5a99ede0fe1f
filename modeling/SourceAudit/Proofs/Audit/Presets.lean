import Mathlib.Data.List.Flatten
import SourceAudit.Proofs.Audit.Selection
import SourceAudit.Proofs.Audit.StableSort

namespace SourceAudit

theorem filterMap_sublist {α β : Type} {f g : α → Option β} (keeps : ∀ a b, f a = some b → g a = some b)
    (list : List α) : (list.filterMap f).Sublist (list.filterMap g) := by
  rw [List.filterMap_eq_flatMap_toList, List.filterMap_eq_flatMap_toList]
  refine List.Sublist.flatMap_right list fun a _ => ?_
  cases yields : f a with
  | none => exact List.nil_sublist _
  | some b =>
    rw [keeps a b yields]

namespace SensitiveInfo

namespace Tests

variable {Amount : Type} (tests : Tests Amount) {low high : SensitiveInfo Amount}

/-- The first rule differs from the second one in its thresholds only, which are not above those of the second. -/
structure Lowers (low high : SensitiveInfo Amount) : Prop where
  weak : low.weakPasswords = high.weakPasswords
  severity : low.severity = high.severity
  entropy : tests.le low.minEntropy high.minEntropy = true
  length : low.minLength ≤ high.minLength

variable {tests}

theorem Lowers.isRandom (lowers : tests.Lowers low high) {text : String} (random : high.isRandom tests text = true) :
    low.isRandom tests text = true := by
  simp only [SensitiveInfo.isRandom, Bool.and_eq_true, decide_eq_true_eq] at random ⊢
  obtain ⟨⟨⟨long, solid⟩, plain⟩, mixed⟩ := random
  exact ⟨⟨⟨Nat.le_trans lowers.length long, solid⟩, plain⟩, tests.le_trans lowers.entropy mixed⟩

theorem Lowers.literalMessage? (lowers : tests.Lowers low high) {text message : String}
    (reported : high.literalMessage? tests text = some message) : low.literalMessage? tests text = some message := by
  -- the tests that come before the entropy are the same
  unfold SensitiveInfo.literalMessage? at reported ⊢
  split at reported
  · cases reported
  · rename_i real
    rw [if_neg real]
    split at reported
    · exact reported
    · split at reported
      · rename_i random
        rw [if_pos (lowers.isRandom random)]
        exact reported
      · cases reported

theorem Lowers.literals (lowers : tests.Lowers low high) (program : Program) :
    (high.literals tests program).Sublist (low.literals tests program) := by
  -- what the names have settled does not depend on the thresholds, so both searches see the same literals
  refine filterMap_sublist ?_ _
  intro node reported found
  simp only [Option.bind_eq_bind, Option.bind_eq_some_iff] at found ⊢
  obtain ⟨text, read, found⟩ := found
  refine ⟨text, read, ?_⟩
  split at found
  · cases found
  · rename_i open_
    obtain ⟨message, same, written⟩ := Option.bind_eq_some_iff.mp found
    rw [if_neg open_, lowers.literalMessage? same]
    exact written

theorem Lowers.named (lowers : tests.Lowers low high) (program : Program) :
    low.named tests program = high.named tests program := by
  have weak : low.isWeak = high.isWeak := by
    unfold isWeak
    rw [lowers.weak]
  unfold SensitiveInfo.named namedMessage?
  rw [weak]

theorem Lowers.check (lowers : tests.Lowers low high) (program : Program) :
    (high.check tests program).Sublist (low.check tests program) := by
  unfold SensitiveInfo.check
  rw [lowers.named, lowers.severity]
  exact Finding.ranks_line.mergeSort_sublist (((List.Sublist.refl _).append (lowers.literals program)).map _)

end Tests

theorem withOptions_none (rule : SensitiveInfo Binary64) : rule.withOptions {} = rule := by
  have length : ¬ ((rule.minLength : Int) < 0) := by omega
  simp [withOptions, RuleOptions.strings, RuleOptions.float, RuleOptions.int, RuleOptions.get?, Text.extendUnique, length]

theorem strict_lowers_default : Tests.standard.Lowers strict default := ⟨rfl, rfl, by decide, by decide⟩

end SensitiveInfo

theorem Builtin.rule_grows {narrow wide : Bool} (grows : narrow = true → wide = true) (builtin : Builtin)
    (program : Program) :
    ∃ found more, (builtin.rule {} narrow).check program = .ok found ∧
      (builtin.rule {} wide).check program = .ok more ∧ found.Sublist more := by
  cases builtin with
  | sensitiveInfo =>
    refine ⟨_, _, rfl, rfl, ?_⟩
    rw [SensitiveInfo.withOptions_none, SensitiveInfo.withOptions_none]
    cases narrow with
    | true =>
      have both := grows rfl
      subst both
      exact .refl _
    | false =>
      cases wide with
      | false => exact .refl _
      | true => exact SensitiveInfo.strict_lowers_default.check program
  | sqlInjection | xss | csrf | ssrf | fileInclusion | dangerousIo => exact ⟨_, _, rfl, rfl, .refl _⟩

namespace Preset

def findings (preset : Preset) (program : Program) : List Finding :=
  preset.rules.flatMap fun rule => (Batch.ofRule program rule).findings

/-- A preset finds all that another one does. Each rule of the narrower preset has its like in the wider one;
    both finish, and the findings of the first are found by the second in the same order. So it is for the
    findings of all rules together. -/
structure Includes (program : Program) (narrow wide : Preset) : Prop where
  each : ∀ rule ∈ narrow.rules, ∃ like ∈ wide.rules, like.name = rule.name ∧ ∃ found more,
    rule.check program = .ok found ∧ like.check program = .ok more ∧ found.Sublist more
  all : (narrow.findings program).Sublist (wide.findings program)

theorem includes_of_sublist {narrow wide : Preset} (part : narrow.builtins.Sublist wide.builtins)
    (grows : (narrow == strict) = true → (wide == strict) = true) (program : Program) :
    Includes program narrow wide := by
  constructor
  · intro rule member
    obtain ⟨builtin, chosen, rfl⟩ := List.mem_map.mp member
    refine ⟨_, List.mem_map_of_mem (part.subset chosen), ?_, builtin.rule_grows grows program⟩
    rw [Builtin.rule_name, Builtin.rule_name]
  · unfold findings rules
    rw [List.flatMap_map, List.flatMap_map]
    refine .trans (part.flatMap _) (List.Sublist.flatMap_right _ fun builtin _ => ?_)
    obtain ⟨found, more, finds, finds', part⟩ := builtin.rule_grows grows program
    unfold Batch.findings Batch.ofRule
    rw [finds, finds']
    exact part

/-- The minimal preset finds no more than the recommended one, and that one no more than the strict one. What
    counts as a name of a secret, a placeholder or a known token does not matter for this, nor does the measure
    of randomness: the search for secrets finds no less with lower thresholds, whatever its tests are. -/
theorem findings_grow :
    (∀ program, Includes program .minimal .recommended ∧ Includes program .recommended .strict) ∧
    ∀ {Amount : Type} (tests : SensitiveInfo.Tests Amount) {low high : SensitiveInfo Amount},
      tests.Lowers low high → ∀ program, (high.check tests program).Sublist (low.check tests program) := by
  refine ⟨fun program => ⟨?_, ?_⟩, fun tests _ _ lowers => lowers.check⟩
  · exact includes_of_sublist (by decide) (by decide) program
  · have same : recommended.builtins.Sublist strict.builtins := .refl _
    exact includes_of_sublist same (by decide) program

def digitTests : SensitiveInfo.Tests Nat where
  isSensitive name := name == "key"
  isPlaceholder text := text == ""
  provider? _ := none
  entropy text := text.toList.countP Char.isDigit
  le first second := decide (first ≤ second)
  le_trans := by
    intro a b c
    simp only [decide_eq_true_eq]
    exact Nat.le_trans

def threeLiterals : Program where
  file := "lib"
  statements :=
    [⟨1, .expr ⟨1, .string "a1"⟩⟩,
     ⟨2, .assign ⟨[⟨2, .identifier "key"⟩], some ⟨2, .string "a1"⟩, none, none⟩⟩,
     ⟨3, .expr ⟨3, .string "a1b2"⟩⟩]

def watchful : SensitiveInfo Nat := ⟨["admin"], 1, 2, .error⟩

def lenient : SensitiveInfo Nat := { watchful with minEntropy := 2, minLength := 3 }

theorem findings_grow_threeLiterals :
    digitTests.Lowers watchful lenient ∧
    (lenient.named digitTests threeLiterals).map Prod.fst = [2] ∧
    (lenient.literals digitTests threeLiterals).map Prod.fst = [3] ∧
    (watchful.literals digitTests threeLiterals).map Prod.fst = [1, 3] ∧
    (lenient.check digitTests threeLiterals).Sublist (watchful.check digitTests threeLiterals) ∧
    Includes threeLiterals .minimal .recommended ∧ Includes threeLiterals .recommended .strict := by
  have lowers : digitTests.Lowers watchful lenient := ⟨rfl, rfl, by decide, by decide⟩
  exact ⟨lowers, by decide +kernel, by decide +kernel, by decide +kernel,
    findings_grow.2 digitTests lowers _, findings_grow.1 threeLiterals⟩

end Preset
end SourceAudit
