import SourceAudit.Proofs.Audit.PatternFindings
import SourceAudit.Proofs.Text.Segments

open List

namespace SourceAudit

open Dotted (parts)

/-- A name whose segments are made of letters, digits and underscores. None starts with a digit, the given ones apart. -/
def Dotted.IsCallee (own : List (List Char)) (name : String) : Prop :=
  ∀ part ∈ parts name,
    part ≠ [] ∧ (∀ c ∈ part, Text.isIdentifierChar c) ∧ (part.head?.any Text.isNumeric → part ∈ own)

namespace CallPattern

variable {text : String} {pattern : CallPattern}

/-- What has to stand at the end of a name: the pattern without a star and a dot in front. -/
def stem (pattern : CallPattern) : String :=
  String.ofList ((Text.dropPrefix? "*." pattern.text.toList).getD pattern.text.toList)

def IsLive (pattern : CallPattern) : Prop := ∀ part ∈ parts pattern.stem, '*' ∉ part

theorem stem_cases (pattern : CallPattern) :
    pattern.text = "*." ++ pattern.stem ∨ ¬ "*.".toList <+: pattern.text.toList ∧ pattern.stem = pattern.text := by
  by_cases star : "*.".toList <+: pattern.text.toList
  · obtain ⟨method, whole⟩ := star
    have dropped := Text.dropPrefix?_append "*." method
    rw [whole] at dropped
    exact .inl (String.toList_inj.mp (by rw [stem, dropped, ← whole]; simp))
  · refine .inr ⟨star, ?_⟩
    simp [stem, Text.dropPrefix?_eq_none.mpr star]

theorem stem_isSuffix (pattern : CallPattern) : parts pattern.stem <:+ parts pattern.text := by
  obtain lead | ⟨_, same⟩ := pattern.stem_cases
  · refine (Dotted.endsWith_iff ..).mp ?_
    simp [Dotted.endsWith, lead, isSuffixOf_iff_suffix]
  · simp only [same, suffix_rfl]

theorem isMatch_stem (pattern : CallPattern) : pattern.isMatch pattern.stem := by
  obtain lead | ⟨plain, same⟩ := pattern.stem_cases
  · exact (isMatch_star lead _).mpr suffix_rfl
  · exact (isMatch_plain plain _).mpr (.inl same)

theorem suffix_of_isMatch {callee : String} (found : pattern.isMatch callee) : parts pattern.stem <:+ parts callee := by
  obtain lead | ⟨plain, same⟩ := pattern.stem_cases
  · exact (isMatch_star lead _).mp found
  · obtain whole | ⟨_, ends⟩ := (isMatch_plain plain _).mp found
    · simp only [whole, same, suffix_rfl]
    · rwa [same]

theorem live_of_isMatch {own : List (List Char)} {callee : String} (named : Dotted.IsCallee own callee)
    (found : pattern.isMatch callee) : pattern.IsLive := by
  intro part member star
  have letter := (named part ((suffix_of_isMatch found).subset member)).2.1 '*' star
  exact absurd letter (by decide)

theorem isCallee_stem (accepted : parse text = .ok pattern) (live : pattern.IsLive) :
    Dotted.IsCallee (parts pattern.text) pattern.stem := by
  obtain ⟨rfl, _, segments⟩ := parse_eq_ok.mp accepted
  intro part member
  have inside := pattern.stem_isSuffix.subset member
  have segment := all_eq_true.mp segments part inside
  simp only [isSegment, Bool.and_eq_true, bne_iff_ne, all_eq_true, Bool.or_eq_true, beq_iff_eq] at segment
  refine ⟨segment.1, fun c letter => ?_, fun _ => inside⟩
  have other : c ≠ '*' := fun star => live part member (star ▸ letter)
  simpa [Text.isIdentifierChar, other] using segment.2 c letter

end CallPattern

namespace Expr

theorem dottedName_foldl {value : Expr} {base : String} (named : value.dottedName = some base) (others : List String) :
    (others.foldl (fun value name => (⟨1, .attribute value name⟩ : Expr)) value).dottedName =
      some (".".intercalate (base :: others)) := by
  induction others generalizing value base with
  | nil => simpa using named
  | cons name others ih =>
    rw [foldl_cons, @ih _ (base ++ "." ++ name) (by simp [dottedName, named]), String.intercalate_cons_append,
      String.intercalate_cons_cons]

/-- The expression that is written as the name. -/
def ofName (name : String) : Expr :=
  match (Dotted.parts name).map String.ofList with
  | [] => ⟨1, .identifier name⟩
  | first :: others => others.foldl (fun value name => ⟨1, .attribute value name⟩) ⟨1, .identifier first⟩

theorem dottedName_ofName (name : String) : (ofName name).dottedName = some name := by
  unfold ofName
  split
  · rfl
  · rename_i first others names
    have joined : ".".intercalate (first :: others) = name := by
      apply String.toList_inj.mp
      rw [String.toList_intercalate, ← names]
      simpa [Function.comp_def, Dotted.parts] using Text.intercalate_split '.' name.toList
    exact (dottedName_foldl rfl others).trans (congrArg some joined)

end Expr

/-- The program that consists of a call. -/
def Program.callTo (callee : String) : Program := ⟨"a.py", [⟨1, .expr ⟨1, .call (.ofName callee) []⟩⟩]⟩

theorem Program.mem_calls_callTo (callee : String) : (1, ⟨.ofName callee, []⟩) ∈ (callTo callee).calls := by
  refine mem_filterMap.mpr ⟨.expr ⟨1, .call (.ofName callee) []⟩, ?_, rfl⟩
  rw [nodes, Node.walk, Node.visit, Node.visit.eq_def]
  simp [Node.parts, callTo, Node.visit, Node.ofStmt, Node.exprs]

namespace PatternEntry

variable {entry : PatternEntry}

theorem report_mem_check (all : entry.taint.sources = []) {program : Program} {line : Nat} {callee : String} :
    entry.report program.file line callee ∈ entry.check program ↔
      entry.isSink callee ∧ ∃ call, (line, call) ∈ program.calls ∧ call.callee = some callee := by
  rw [(check_perm all program).mem_iff, sinkFindings, mem_filterMap]
  constructor
  · rintro ⟨⟨place, call⟩, member, given⟩
    obtain ⟨other, found, same⟩ := Option.map_eq_some_iff.mp given
    obtain ⟨called, sink⟩ := Option.filter_eq_some_iff.mp found
    simp only [report, Finding.mk.injEq, Location.mk.injEq, String.append_left_inj, String.append_right_inj, true_and,
      and_true] at same
    obtain ⟨rfl, rfl⟩ := same
    exact ⟨sink, call, member, called⟩
  · rintro ⟨sink, call, member, called⟩
    have given : entry.sinkFinding? program.file line call = some (entry.report program.file line callee) := by
      rw [sinkFinding?, called, Option.filter_some]
      exact congrArg (Option.map _) (if_pos sink)
    exact ⟨(line, call), member, given⟩

end PatternEntry

/-- An accepted pattern matches some name that can be called exactly if it is live. What an entry without sources
    reports of such names it reports for a live sink, and every live sink makes it report a call. -/
theorem PatternEntry.live_sinks (text : String) (pattern : CallPattern) (entry : PatternEntry) :
    (CallPattern.parse text = .ok pattern →
      ((∃ callee, Dotted.IsCallee (parts text) callee ∧ pattern.isMatch callee) ↔ pattern.IsLive)) ∧
    ((∀ sink ∈ entry.sinks, ∃ text, CallPattern.parse text = .ok sink) → entry.taint.sources = [] →
      (∀ own program line callee, Dotted.IsCallee own callee →
        entry.report program.file line callee ∈ entry.check program → ∃ sink ∈ entry.sinks, sink.IsLive) ∧
      ∀ sink ∈ entry.sinks, sink.IsLive → Dotted.IsCallee (parts sink.text) sink.stem ∧
        entry.report "a.py" 1 sink.stem ∈ entry.check (.callTo sink.stem)) := by
  refine ⟨fun accepted => ⟨?_, fun live => ?_⟩, fun accepted all => ⟨?_, fun sink member live => ?_⟩⟩
  · rintro ⟨callee, named, found⟩
    exact CallPattern.live_of_isMatch named found
  · have named := CallPattern.isCallee_stem accepted live
    rw [(CallPattern.parse_eq_ok.mp accepted).1] at named
    exact ⟨pattern.stem, named, pattern.isMatch_stem⟩
  · intro own program line callee named reported
    obtain ⟨found, _⟩ := (report_mem_check all).mp reported
    obtain ⟨sink, member, found⟩ := any_eq_true.mp found
    exact ⟨sink, member, CallPattern.live_of_isMatch named found⟩
  · obtain ⟨text, accepted⟩ := accepted sink member
    have found : entry.isSink sink.stem := any_eq_true.mpr ⟨sink, member, sink.isMatch_stem⟩
    refine ⟨CallPattern.isCallee_stem accepted live, (report_mem_check all).mpr ⟨found, ⟨.ofName sink.stem, []⟩, ?_, ?_⟩⟩
    · exact Program.mem_calls_callTo sink.stem
    · exact Expr.dottedName_ofName sink.stem

theorem PatternEntry.live_sinks_execute :
    (CallPattern.parse "*.execute" = .ok ⟨"*.execute"⟩ ∧ (CallPattern.mk "*.execute").IsLive) ∧
    (∃ callee, Dotted.IsCallee (parts "*.execute") callee ∧ (CallPattern.mk "*.execute").isMatch callee) ∧
    (⟨"no-sql", "PSD001", "m: `execute`", .error, ⟨"a.py", 1⟩, none⟩ : Finding) ∈
      check ⟨⟨"no-sql"⟩, "PSD001", [⟨"*.execute"⟩], ⟨[], []⟩, [], "m", .error⟩ (.callTo "execute") := by
  have accepted : CallPattern.parse "*.execute" = .ok ⟨"*.execute"⟩ :=
    CallPattern.parse_eq_ok.mpr ⟨rfl, by decide, by decide⟩
  have live : (CallPattern.mk "*.execute").IsLive := by
    unfold CallPattern.IsLive
    decide
  let entry : PatternEntry := ⟨⟨"no-sql"⟩, "PSD001", [⟨"*.execute"⟩], ⟨[], []⟩, [], "m", .error⟩
  obtain ⟨found, reported⟩ := live_sinks _ _ entry
  have flagged := (reported (by simpa [entry] using ⟨_, accepted⟩) rfl).2 _ mem_cons_self live
  exact ⟨⟨accepted, live⟩, (found accepted).mpr live, flagged.2⟩

/-- A star in any other place is accepted as well, and such a pattern matches no name that can be called. -/
theorem CallPattern.accepts_dead :
    CallPattern.parse "pickle.*" = .ok ⟨"pickle.*"⟩ ∧
    ¬ ∃ callee, Dotted.IsCallee (parts "pickle.*") callee ∧ (CallPattern.mk "pickle.*").isMatch callee := by
  refine ⟨parse_eq_ok.mpr ⟨rfl, by decide, by decide⟩, ?_⟩
  rintro ⟨callee, named, found⟩
  have live := live_of_isMatch named found
  unfold IsLive at live
  exact absurd live (by decide)

end SourceAudit
