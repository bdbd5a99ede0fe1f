import Mathlib.Data.List.DropRight
import SourceAudit.Proofs.Grammar.ExpressionReading
import SourceAudit.Proofs.Scanner.LineNumbers

open List

namespace SourceAudit

theorem Text.trimEnd_isPrefix (text : List Char) : trimEnd text <+: text :=
  rdropWhile_prefix isBlank text

namespace Replacement

theorem withoutMarker_isPrefix (text : List Char) : withoutMarker text <+: text := by
  unfold withoutMarker
  split
  · rename_i before same
    have parts : text = before.reverse ++ ['='] := by
      rw [← reverse_reverse text, same, reverse_cons]
    split
    · split
      · exact prefix_rfl
      · rw [parts]
        exact (Text.trimEnd_isPrefix _).trans (prefix_append _ _)
    · exact nil_prefix
  · exact prefix_rfl

theorem Place.ended_step {place : Place} (ended : place.ended = true) (c : Char) (next? : Option Char) :
    (place.step c next?).ended = true := by
  unfold step
  grind

theorem scan_parts {place : Place} {text : List Char} {field : Replacement}
    (found : scan place text = some field) :
    text = field.body ++ '\x7d' :: field.rest ∧ field.expression <+: field.body ∧
      (place.ended = true → field.expression = []) := by
  induction text generalizing place field with
  | nil => simp [scan] at found
  | cons c rest ih =>
    simp only [scan] at found
    split at found
    · rename_i closing
      cases found
      have brace : c = '\x7d' := by
        simp only [Place.isClosing, Bool.and_eq_true, beq_iff_eq] at closing
        exact closing.2
      exact ⟨congrArg (List.cons · rest) brace, prefix_rfl, fun _ => rfl⟩
    · obtain ⟨inner, same, rfl⟩ := Option.map_eq_some_iff.mp found
      obtain ⟨whole, part, done⟩ := ih same
      dsimp only
      refine ⟨congrArg (List.cons c) whole, ?_, fun ended => ?_⟩
      · split
        · rename_i ended
          rw [done ended]
          exact nil_prefix
        · exact cons_prefix_cons.mpr ⟨rfl, part⟩
      · have later := Place.ended_step ended c rest.head?
        rw [if_pos later, done later]

theorem expression_isPrefix (field : Replacement) :
    withoutMarker (Text.trim field.expression) <+: Text.trimStart field.expression :=
  (withoutMarker_isPrefix _).trans (Text.trimEnd_isPrefix _)

end Replacement

namespace Piece

/-- Pieces whose lines climb from one bound to another; a field ends with the line breaks in it. -/
def Climb : Nat → List Piece → Nat → Prop
  | low, [], high => low ≤ high
  | low, .literal _ :: rest, high => Climb low rest high
  | low, .replacement text line :: rest, high => low ≤ line ∧ Climb (line + text.count '\n') rest high
  | low, .broken error :: rest, high => low ≤ error.line ∧ Climb error.line rest high

theorem Climb.lower {low below high : Nat} {pieces : List Piece} (bound : below ≤ low)
    (climb : Climb low pieces high) : Climb below pieces high := by
  induction pieces with
  | nil => exact bound.trans climb
  | cons piece rest ih =>
    cases piece with
    | literal text => exact ih climb
    | replacement text line => exact ⟨bound.trans climb.1, climb.2⟩
    | broken error => exact ⟨bound.trans climb.1, climb.2⟩

theorem Climb.le {low high : Nat} {pieces : List Piece} (climb : Climb low pieces high) : low ≤ high := by
  induction pieces generalizing low with
  | nil => exact climb
  | cons piece rest ih =>
    cases piece with
    | literal text => exact ih climb
    | replacement text line => exact climb.1.trans ((Nat.le_add_right _ _).trans (ih climb.2))
    | broken error => exact climb.1.trans (ih climb.2)

theorem climb_consChar {low high : Nat} {pieces : List Piece} (c : Char) (climb : Climb low pieces high) :
    Climb low (consChar c pieces) high := by
  unfold consChar
  split <;> exact climb

theorem ofBody_climb {line : Nat} {text : List Char} (room : line + text.count '\n' < 0x10000000000000000) :
    Climb line (ofBody line text) (line + text.count '\n') := by
  fun_induction ofBody line text with
  | case1 line => exact Nat.le_refl _
  | case2 line rest ih =>
    rw [count_cons_of_ne (by decide), count_cons_of_ne (by decide)] at room ⊢
    exact climb_consChar _ (ih room)
  | case3 line rest single found => exact ⟨Nat.le_refl _, Nat.le_add_right _ _⟩
  | case4 line rest single field found empty => exact ⟨Nat.le_refl _, Nat.le_add_right _ _⟩
  | case5 line rest single field found expression filled ih =>
    obtain ⟨whole, part, _⟩ := Replacement.scan_parts found
    have count : rest.count '\n' = Replacement.lineBreaks field.body + field.rest.count '\n' := by
      rw [Replacement.lineBreaks, whole, count_append, count_cons_of_ne (by decide)]
    rw [count_cons_of_ne (by decide), count] at room ⊢
    have next : Token.lineAfter line (Replacement.lineBreaks field.body) =
        line + Replacement.lineBreaks field.body := Token.lineAfter_of_lt (by omega)
    rw [next] at ih ⊢
    have short : expression.count '\n' ≤ Replacement.lineBreaks field.body :=
      ((field.expression_isPrefix.sublist.trans (dropWhile_sublist _)).trans part.sublist).count_le _
    refine ⟨Nat.le_refl _, Climb.lower (Nat.add_le_add_left short line) ?_⟩
    rw [← Nat.add_assoc]
    exact ih (by omega)
  | case6 line rest ih =>
    rw [count_cons_of_ne (by decide), count_cons_of_ne (by decide)] at room ⊢
    exact climb_consChar _ (ih room)
  | case7 line rest single => exact ⟨Nat.le_refl _, Nat.le_add_right _ _⟩
  | case8 line c rest doubled opening doubled' closing ih =>
    apply climb_consChar
    by_cases lineBreak : c = '\n'
    · rw [lineBreak, count_cons_self] at room ⊢
      have next : Token.lineAfter line 1 = line + 1 := Token.lineAfter_of_lt (by omega)
      simp only [lineBreak, dif_pos, next] at ih
      rw [if_pos rfl, next]
      have climb := ih (by omega)
      rw [Nat.add_right_comm] at climb
      exact climb.lower (Nat.le_succ _)
    · rw [count_cons_of_ne lineBreak] at room ⊢
      rw [dif_neg lineBreak] at ih
      rw [if_neg lineBreak]
      exact ih room

end Piece
end SourceAudit
