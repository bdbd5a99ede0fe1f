import SourceAudit.PatternRule.Pattern
import SourceAudit.Proofs.Text.Splitting
import SourceAudit.Taint

namespace SourceAudit

namespace Dotted

def parts (name : String) : List (List Char) := Text.split (· == '.') name.toList

theorem endsWith_iff (name ending : String) : endsWith name ending ↔ parts ending <:+ parts name := by
  rw [parts, parts, Text.split_suffix_iff, String.toList_inj]
  simp [endsWith]

theorem isWithin_iff (name base : String) : isWithin name base ↔ parts base <+: parts name := by
  rw [parts, parts, Text.split_isPrefix_iff, String.toList_inj]
  simp [isWithin]

theorem contains_dot_iff (name : String) : name.toList.contains '.' ↔ 2 ≤ (parts name).length := by
  rw [parts, Text.length_split, List.contains_iff_mem, ← List.count_pos_iff]
  omega

end Dotted

open Dotted (parts)

namespace CallPattern

variable {text : String} {pattern : CallPattern}

theorem parse_eq_ok : parse text = .ok pattern ↔ pattern.text = text ∧ text ≠ "" ∧ (parts text).all isSegment := by
  unfold parse
  split
  · simp_all
  · split
    · rename_i filled segments
      constructor
      · rintro ⟨⟩
        exact ⟨rfl, filled, segments⟩
      · rintro ⟨rfl, _⟩
        rfl
    · simp_all [parts]

theorem isMatch_star {method : String} (lead : pattern.text = "*." ++ method) (callee : String) :
    pattern.isMatch callee ↔ parts method <:+ parts callee := by
  have dropped : Text.dropPrefix? "*." pattern.text.toList = some method.toList := by
    rw [lead, String.toList_append, Text.dropPrefix?_append]
  rw [isMatch, dropped, ← Dotted.endsWith_iff]
  simp only [String.ofList_toList]

theorem isMatch_plain (plain : ¬ "*.".toList <+: pattern.text.toList) (callee : String) :
    pattern.isMatch callee ↔
      callee = pattern.text ∨ 2 ≤ (parts pattern.text).length ∧ parts pattern.text <:+ parts callee := by
  rw [isMatch, Text.dropPrefix?_eq_none.mpr plain, ← Dotted.contains_dot_iff, ← Dotted.endsWith_iff]
  simp

end CallPattern

/-- Endings and sanitizers are the last segments of a name, and sources the first ones. A pattern with a star in front
    stands for its other segments at the end of a name; any other pattern stands for the name itself and, if it has a
    dot, for its segments at the end of a name. -/
theorem Dotted.matches_by_segments (callee : String) :
    (∀ ending, endsWith callee ending ↔ parts ending <:+ parts callee) ∧
    (∀ policy : TaintPolicy,
      (policy.isSanitizer callee ↔ ∃ ending ∈ policy.sanitizers, parts ending <:+ parts callee) ∧
      (policy.isSource callee ↔ ∃ base ∈ policy.sources, parts base <+: parts callee)) ∧
    ∀ text pattern, CallPattern.parse text = .ok pattern → (pattern.isMatch callee ↔
      (∃ method, text = "*." ++ method ∧ parts method <:+ parts callee) ∨
      ¬ "*.".toList <+: text.toList ∧
        (callee = text ∨ 2 ≤ (parts text).length ∧ parts text <:+ parts callee)) := by
  refine ⟨endsWith_iff callee, fun policy => ⟨?_, ?_⟩, fun text pattern accepted => ?_⟩
  · simp only [TaintPolicy.isSanitizer, List.any_eq_true, endsWith_iff]
  · simp only [TaintPolicy.isSource, List.any_eq_true, isWithin_iff]
  · obtain ⟨rfl, _, _⟩ := CallPattern.parse_eq_ok.mp accepted
    by_cases star : "*.".toList <+: pattern.text.toList
    · obtain ⟨method, whole⟩ := star
      have lead : pattern.text = "*." ++ String.ofList method := String.toList_inj.mp (by simp [← whole])
      rw [CallPattern.isMatch_star lead]
      constructor
      · exact fun ends => .inl ⟨_, lead, ends⟩
      · rintro (⟨other, same, ends⟩ | ⟨plain, _⟩)
        · rwa [(String.append_right_inj "*.").mp (lead.symm.trans same)]
        · exact absurd ⟨method, whole⟩ plain
    · rw [CallPattern.isMatch_plain star]
      constructor
      · exact fun same => .inr ⟨star, same⟩
      · rintro (⟨method, lead, _⟩ | ⟨_, same⟩)
        · exact absurd ⟨method.toList, by rw [lead, String.toList_append]⟩ star
        · exact same

theorem Dotted.matches_by_segments_execute :
    (CallPattern.parse "*.execute" = .ok ⟨"*.execute"⟩ ∧ parts "execute" <:+ parts "db.cursor.execute") ∧
    (CallPattern.mk "*.execute").isMatch "db.cursor.execute" ∧
    ¬ (CallPattern.mk "*.execute").isMatch "db.cursor.reexecute" := by
  have accepted : CallPattern.parse "*.execute" = .ok ⟨"*.execute"⟩ :=
    CallPattern.parse_eq_ok.mpr ⟨rfl, by decide, by decide⟩
  have ends : parts "execute" <:+ parts "db.cursor.execute" := by decide
  refine ⟨⟨accepted, ends⟩, ?_, fun found => ?_⟩
  · exact ((matches_by_segments "db.cursor.execute").2.2 _ _ accepted).mpr (.inl ⟨"execute", by decide, ends⟩)
  · obtain ⟨method, lead, ends⟩ | ⟨plain, _⟩ :=
      ((matches_by_segments "db.cursor.reexecute").2.2 _ _ accepted).mp found
    · have lead : "*." ++ "execute" = "*." ++ method := lead
      rw [← (String.append_right_inj "*.").mp lead] at ends
      exact absurd ends (by decide)
    · exact plain (by decide)

end SourceAudit
