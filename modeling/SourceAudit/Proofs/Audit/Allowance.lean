import Mathlib.Data.List.Infix
import Mathlib.Data.Option.Basic
import SourceAudit.Proofs.Audit.Directives
import SourceAudit.Proofs.Audit.Scheduling
import SourceAudit.Proofs.Text.Splitting

open List

namespace SourceAudit

open Token

namespace Text

theorem splitOnce_of_not_mem {c : Char} {front : List Char} (absent : c ∉ front) (back : List Char) :
    splitOnce [c] (front ++ c :: back) = some (front, back) := by
  induction front with
  | nil => simp [splitOnce]
  | cons d front ih =>
    have other : c ≠ d := fun same => absent (same ▸ mem_cons_self)
    rw [cons_append, splitOnce, ih fun member => absent (mem_cons_of_mem d member)]
    simp [List.isPrefixOf, other]

theorem trimEnd_concat {c : Char} (visible : isBlank c = false) (text : List Char) :
    trimEnd (text ++ [c]) = text ++ [c] := by
  unfold trimEnd
  rw [reverse_append, reverse_singleton, singleton_append,
    dropWhile_cons_of_neg (by simp [visible]), reverse_cons, reverse_reverse]

theorem length_trimEnd_le (text : List Char) : (trimEnd text).length ≤ text.length := by
  have shorter := (dropWhile_sublist isBlank (l := text.reverse)).length_le
  rw [length_reverse] at shorter
  unfold trimEnd
  rwa [length_reverse]

theorem trimStart_of_trim {text : List Char} (trimmed : trim text = text) : trimStart text = text := by
  have short := length_trimEnd_le (trimStart text)
  rw [show trimEnd (trimStart text) = text from trimmed] at short
  exact (dropWhile_suffix isBlank).eq_of_length_le short

end Text

structure Listable (name : String) : Prop where
  nonempty : name ≠ ""
  plain : ∀ c ∈ name.toList, c ≠ ',' ∧ c ≠ ')' ∧ c ≠ '\n'
  trimmed : Text.trim name.toList = name.toList

theorem isBlank_of_isNameChar {c : Char} (passes : PatternName.isNameChar c = true) : Text.isBlank c = false := by
  have code : c.toNat = 45 ∨ 48 ≤ c.toNat ∧ c.toNat ≤ 57 ∨ 97 ≤ c.toNat ∧ c.toNat ≤ 122 := by
    simp only [PatternName.isNameChar, Bool.or_eq_true, beq_iff_eq] at passes
    rcases passes with (lower | digit) | rfl
    · obtain ⟨low, high⟩ := Bool.and_eq_true_iff.mp lower
      exact .inr (.inr ⟨of_decide_eq_true low, of_decide_eq_true high⟩)
    · obtain ⟨low, high⟩ := Bool.and_eq_true_iff.mp digit
      exact .inr (.inl ⟨of_decide_eq_true low, of_decide_eq_true high⟩)
    · exact .inl rfl
  simp only [Text.isBlank, Bool.or_eq_false_iff, Bool.and_eq_false_iff, decide_eq_false_iff_not, beq_eq_false_iff_ne]
  omega

theorem listable_of_isNameChar {name : String} (some : name ≠ "")
    (plain : name.toList.all PatternName.isNameChar = true) : Listable name where
  nonempty := some
  plain c member := by
    have passes := all_eq_true.mp plain c member
    refine ⟨?_, ?_, ?_⟩ <;> rintro rfl <;> cases passes
  trimmed := Text.trim_of_visible fun c member => isBlank_of_isNameChar (all_eq_true.mp plain c member)

def allowance (name : String) : List Char := ("  # pysast: allow(" ++ name ++ ")").toList

variable {name : String} {text : List Char}

theorem allowance_eq (name : String) :
    allowance name = ' ' :: ' ' :: ("# pysast:".toList ++ (" allow(".toList ++ (name.toList ++ [')']))) := by
  have start : "  # pysast: allow(".toList = ' ' :: ' ' :: ("# pysast:".toList ++ " allow(".toList) := by decide
  have final : ")".toList = [')'] := by decide
  unfold allowance
  rw [String.toList_append, String.toList_append, start, final]
  simp only [cons_append, append_assoc]

theorem Listable.note (listable : Listable name) : Note (allowance name) where
  blank := ⟨' ', _, allowance_eq name, by decide⟩
  hash := by
    have mark : "# pysast:".toList = '#' :: " pysast:".toList := by decide
    rw [allowance_eq, mark]
    exact ⟨_, rfl⟩
  inner := by
    have mark : '\n' ∉ "# pysast:".toList := by decide
    have start : '\n' ∉ " allow(".toList := by decide
    have listed : '\n' ∉ name.toList := fun member => (listable.plain _ member).2.2 rfl
    rw [allowance_eq]
    simp only [mem_cons, mem_append, not_or]
    exact ⟨by decide, by decide, mark, start, listed, by decide, by simp⟩

namespace Directive

theorem ruleNames_listable (listable : Listable name) : ruleNames name.toList = [name] := by
  have single : Text.split (· == ',') name.toList = [name.toList] :=
    Text.split_of_not_mem fun member => (listable.plain _ member).1 rfl
  unfold ruleNames
  rw [single, map_singleton, listable.trimmed, String.ofList_toList]
  simp [listable.nonempty]

theorem splitOnce_allowance (unmarked : ¬ keyword <:+: text) (back : List Char) :
    Text.splitOnce "# pysast:".toList (text ++ ' ' :: ' ' :: ("# pysast:".toList ++ back)) =
      some (text ++ [' ', ' '], back) := by
  induction text with
  | nil => rfl
  | cons c text ih =>
    have inner : ¬ keyword <:+: text := fun within => unmarked (within.trans (suffix_cons c text).isInfix)
    have other : "# pysast:".toList.isPrefixOf (c :: (text ++ ' ' :: ' ' :: ("# pysast:".toList ++ back))) = false := by
      rw [← Bool.not_eq_true]
      intro starts
      change ('#' == c && (' ' :: keyword).isPrefixOf (text ++ ' ' :: ' ' :: ("# pysast:".toList ++ back))) = true at starts
      have starts := (Bool.and_eq_true_iff.mp starts).2
      cases text with
      | nil => cases starts
      | cons d text =>
        change (' ' == d && keyword.isPrefixOf (text ++ ' ' :: ' ' :: ("# pysast:".toList ++ back))) = true at starts
        have starts := (Bool.and_eq_true_iff.mp starts).2
        rw [Text.isPrefixOf_concat (by decide)] at starts
        apply inner
        exact (List.isPrefixOf_iff_prefix.mp starts).isInfix.trans (suffix_cons d text).isInfix
    rw [cons_append, Text.splitOnce, other, ih inner]
    rfl

theorem ofLine?_allowance (listable : Listable name) (unmarked : ¬ keyword <:+: text) :
    ofLine? (text ++ allowance name) = some ⟨[name], none⟩ := by
  have marked : marked? (text ++ allowance name) = some (" allow(".toList ++ (name.toList ++ [')'])) := by
    unfold marked?
    rw [allowance_eq, splitOnce_allowance unmarked]
    rfl
  have visible : Text.isBlank ')' = false := by decide
  have content : Text.trim (" allow(".toList ++ (name.toList ++ [')'])) = "allow(".toList ++ (name.toList ++ [')']) := by
    have start : Text.trimStart " allow(".toList = "allow(".toList := by decide
    have word : Text.trimStart (" allow(".toList ++ (name.toList ++ [')'])) =
        "allow(".toList ++ (name.toList ++ [')']) := by
      unfold Text.trimStart at start ⊢
      rw [dropWhile_visible (by rw [start]; decide), start]
    rw [Text.trim, word, ← append_assoc, Text.trimEnd_concat visible]
  have listed : Text.trim (name.toList ++ [')']) = name.toList ++ [')'] := by
    have start : Text.trimStart (name.toList ++ [')']) = name.toList ++ [')'] := by
      have whole := Text.trimStart_of_trim listable.trimmed
      have some : name.toList ≠ [] := fun none => listable.nonempty (String.toList_eq_nil_iff.mp none)
      unfold Text.trimStart at whole ⊢
      rw [dropWhile_visible (by rwa [whole]), whole]
    rw [Text.trim, start, Text.trimEnd_concat visible]
  have names : Text.splitOnce [')'] (name.toList ++ [')']) = some (name.toList, []) :=
    Text.splitOnce_of_not_mem (fun member => (listable.plain _ member).2.1 rfl) []
  have reasonless : reason? [] = none := by decide
  have inside : Text.dropPrefix? "allow(" ("allow(".toList ++ (name.toList ++ [')'])) = some (name.toList ++ [')']) :=
    Text.dropPrefix?_append ..
  unfold ofLine?
  rw [marked]
  simp only [Option.bind_eq_bind, Option.bind_some, content, inside, listed, names, ruleNames_listable listable,
    reasonless]
  rfl

end Directive

namespace SourceLine

variable (line : SourceLine)

/-- The source text with a comment that allows a rule at the end of the line. -/
def allowing (listable : Listable name) : SourceLine :=
  line.rewritten (line.text ++ allowance name) fun member =>
    (mem_append.mp member).elim line.inner listable.note.inner

/-- Whether the line ends outside of string literals and without a backslash that joins it to the next one. -/
def EndsFree : Prop :=
  ∀ role ∈ Scanner.roleAt line.source.toList (line.before ++ line.text).length,
    role ≠ .literal ∧ role ≠ .unclosed ∧ role ≠ .joint

variable {line}

theorem ofText_allowing (free : line.EndsFree) (listable : Listable name) :
    Token.ofText (line.allowing listable).source 1 = Token.ofText line.source 1 := by
  have outside : ((Scanner.start (line.before ++ line.text) 1).onto line.after).Free (line.before ++ line.text).length := by
    intro stretch found
    apply free
    unfold source
    rw [String.toList_ofList]
    exact Option.mem_map_of_mem _ found
  have same := Scanner.tokens_note listable.note line.last outside
  unfold Token.ofText source
  rw [String.toList_ofList, String.toList_ofList]
  unfold Scanner.onto Scanner.start at same
  dsimp only at same
  rw [← append_assoc, append_assoc line.before] at same
  exact same

theorem isAllowed_allowing (unmarked : ¬ Directive.keyword <:+: line.text) (listable : Listable name) (number : Nat)
    (rule : String) :
    (Suppressions.ofSource (line.allowing listable).source).isAllowed number rule = true ↔
      (Suppressions.ofSource line.source).isAllowed number rule = true ∨
        (number = line.number ∨ number = line.number + 1) ∧ (name = "all" ∨ rule = name) := by
  have lookup := line.lookup_rewritten (line.text ++ allowance name) fun member =>
    (mem_append.mp member).elim line.inner listable.note.inner
  have here := line.lookup_number
  rw [Directive.ofLine?_eq_none unmarked] at here
  rw [Directive.ofLine?_allowance listable unmarked] at lookup
  have allows : Directive.allows ⟨[name], none⟩ rule = true ↔ name = "all" ∨ rule = name := by
    simp only [Directive.allows, Bool.or_eq_true, contains_iff_mem, mem_singleton]
    exact or_comm.trans (or_congr eq_comm Iff.rfl)
  rw [Suppressions.isAllowed_iff, Suppressions.isAllowed_iff]
  unfold allowing
  simp only [lookup]
  constructor
  · rintro ⟨found, directive, place, read, allowed⟩
    by_cases same : found = line.number
    · rw [if_pos same] at read
      cases read
      exact .inr ⟨by omega, allows.mp allowed⟩
    · rw [if_neg same] at read
      exact .inl ⟨found, directive, place, read, allowed⟩
  · rintro (⟨found, directive, place, read, allowed⟩ | ⟨place, named⟩)
    · have other : found ≠ line.number := by
        rintro rfl
        rw [here] at read
        cases read
      exact ⟨found, directive, place, (if_neg other).trans read, allowed⟩
    · exact ⟨line.number, ⟨[name], none⟩, by omega, if_pos rfl, allows.mpr named⟩

end SourceLine

namespace Audit

theorem line_overridden (audit : Audit) (finding : Finding) : (audit.overridden finding).line = finding.line := by
  unfold overridden
  split <;> rfl

theorem apply_filter {audit : Audit} {source other : String} {test : Finding → Bool}
    (keeps : ∀ finding, audit.keeps other finding = (audit.keeps source finding && test finding))
    (stable : ∀ finding, test (audit.overridden finding) = test finding) (findings : List Finding) :
    audit.apply other findings = (audit.apply source findings).filter test := by
  change Finding.sortByPlace ((findings.filter (audit.keeps other)).map audit.overridden) =
    (Finding.sortByPlace ((findings.filter (audit.keeps source)).map audit.overridden)).filter test
  unfold Finding.sortByPlace
  rw [Finding.ranks_place.filter_mergeSort, filter_map, filter_filter]
  congr 2
  apply filter_congr
  intro finding _
  rw [keeps, Function.comp_apply, stable, Bool.and_comm]

/-- A comment that allows a rule, at the end of a line without a directive, hides the findings of that rule on
    the line and on the next one, or all findings there, and changes nothing else in the report. -/
theorem analyze_allowing {audit : Audit} (respects : audit.config.analyzer.respectSuppressions = true)
    {line : SourceLine} (free : line.EndsFree) (unmarked : ¬ Directive.keyword <:+: line.text)
    {name : String} (listable : Listable name) (file : String) :
    audit.analyze (line.allowing listable).source file =
      { audit.analyze line.source file with
        findings := (audit.analyze line.source file).findings.filter fun finding =>
          ¬ ((finding.line = line.number ∨ finding.line = line.number + 1) ∧
            (name = "all" ∨ finding.rule = name)) } := by
  have program : Program.ofSource file (line.allowing listable).source = Program.ofSource file line.source := by
    unfold Program.ofSource
    rw [line.ofText_allowing free listable]
  by_cases runs : audit.Runs line.source file
  · have runs' : audit.Runs (line.allowing listable).source file := by
      unfold Runs at runs ⊢
      rwa [program]
    rw [analyze_of_runs runs, analyze_of_runs runs', program]
    unfold reportOf
    dsimp only
    rw [apply_filter]
    · intro finding
      have allowed := line.isAllowed_allowing unmarked listable finding.line finding.rule
      unfold keeps
      rw [respects, if_pos rfl, if_pos rfl, Bool.and_assoc]
      rw [Bool.eq_iff_iff]
      simp only [Bool.not_eq_true', Bool.and_eq_true, ← Bool.not_eq_true, decide_eq_true_eq, allowed, not_or]
    · intro finding
      rw [rule_overridden, line_overridden]
  · have stops : ¬ audit.Runs (line.allowing listable).source file := by
      unfold Runs at runs ⊢
      rwa [program]
    rw [analyze_of_stops runs, analyze_of_stops stops, program]
    rfl

def evalLine : SourceLine where
  before := "exec()\n".toList
  text := "eval()".toList
  after := ['\n']
  first := .inr (by decide)
  inner := by decide
  last := .inr (.inl (prefix_refl _))

theorem evalLine_source : evalLine.source = bothCalls := rfl

theorem evalLine_endsFree : evalLine.EndsFree := by
  have outside : Scanner.roleAt evalLine.source.toList (evalLine.before ++ evalLine.text).length = none := by
    decide +kernel
  intro role found
  rw [outside] at found
  cases found

theorem listable_noEval : Listable "no-eval" := listable_of_isNameChar (by decide) (by decide)

theorem analyze_allowing_eval :
    let audit := Setup.audit { patterns := [evalText] } [evalRule]
    (audit.analyze bothCalls "a.py").findings =
      [⟨"no-eval", "PSD001", "Reads data: `eval`", .error, ⟨"a.py", 2⟩, none⟩] ∧
    (evalLine.allowing listable_noEval).source = "exec()\neval()  # pysast: allow(no-eval)\n" ∧
    (audit.analyze (evalLine.allowing listable_noEval).source "a.py").findings = [] := by
  intro audit
  have found : (audit.analyze bothCalls "a.py").findings =
      [⟨"no-eval", "PSD001", "Reads data: `eval`", .error, ⟨"a.py", 2⟩, none⟩] := by
    have kept : ∀ finding, audit.keeps bothCalls finding = true := keeps_bothCalls rfl [evalRule] _
    have plain : ∀ finding, audit.overridden finding = finding := fun _ => rfl
    rw [analyze_findings (bothCalls_runs _), batches_alone rfl rfl rfl rfl, check_bothCalls.2]
    change Finding.sortByPlace (List.map audit.overridden (List.filter (audit.keeps bothCalls) _)) = _
    rw [filter_eq_self.mpr fun finding _ => kept finding, map_singleton, plain]
    exact mergeSort_singleton _
  have unmarked : ¬ Directive.keyword <:+: evalLine.text := by decide
  have hidden := @analyze_allowing audit rfl evalLine evalLine_endsFree unmarked _ listable_noEval "a.py"
  refine ⟨found, by decide, ?_⟩
  rw [hidden, evalLine_source, found]
  decide

end Audit
end SourceAudit
