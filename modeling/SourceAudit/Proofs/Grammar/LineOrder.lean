import SourceAudit.Grammar.Cursor
import SourceAudit.Proofs.Scanner.Layout
import SourceAudit.Proofs.Syntax.SourceLines

open List

namespace SourceAudit

namespace Cursor

variable {cursor later : Cursor} {high : Nat}

def line (cursor : Cursor) : Nat := cursor.current.line

/-- The lines of the tokens climb up to the end of input, which is not below the line `high`. -/
structure Ordered (high : Nat) (cursor : Cursor) : Prop where
  climbs : (cursor.rest ++ [cursor.endToken]).Pairwise fun token next => token.lastLine ≤ next.line
  final_le : cursor.final ≤ high
  room : high < 0x10000000000000000

theorem current_mem (cursor : Cursor) : cursor.current ∈ cursor.rest ++ [cursor.endToken] := by
  unfold current
  cases cursor.rest with
  | nil => exact mem_singleton_self _
  | cons token rest => exact mem_cons_self

theorem current_of_cons {token : Token} {more : List Token} (rest : cursor.rest = token :: more) :
    cursor.current = token := by
  rw [current, rest]
  rfl

namespace Ordered

theorem suffix (ordered : cursor.Ordered high) (part : later.rest <:+ cursor.rest)
    (final : later.final = cursor.final) : later.Ordered high ∧ cursor.line ≤ later.line := by
  have same : later.endToken = cursor.endToken := congrArg (Token.mk _ _) final
  obtain ⟨front, split⟩ := part
  have climbs := ordered.climbs
  rw [← split, ← same, append_assoc] at climbs
  refine ⟨⟨(pairwise_append.mp climbs).2.1, final ▸ ordered.final_le, ordered.room⟩, ?_⟩
  cases front with
  | nil =>
    have here : later.current = cursor.current := by
      unfold current
      rw [← split, same]
      rfl
    exact (congrArg Token.line here).ge
  | cons token front =>
    have here : cursor.current = token := current_of_cons split.symm
    have before := (pairwise_cons.mp climbs).1 later.current
      (mem_append_right _ later.current_mem)
    rw [line, here]
    exact token.line_le_lastLine.trans before

theorem drop (ordered : cursor.Ordered high) (count : Nat) :
    (cursor.drop count).Ordered high ∧ cursor.line ≤ (cursor.drop count).line :=
  ordered.suffix (drop_suffix count cursor.rest) rfl

theorem lastLine_le (ordered : cursor.Ordered high) : cursor.current.lastLine ≤ cursor.advance.line := by
  cases rest : cursor.rest with
  | nil =>
    have stays : cursor.advance.current = cursor.current := by
      simp [current, advance, Cursor.drop, rest, endToken]
    rw [line, stays, Token.lastLine_of_plain]
    simp [current, rest, endToken]
  | cons token tokens =>
    have climbs := ordered.climbs
    rw [rest] at climbs
    have tail : cursor.advance.rest = tokens := by
      change cursor.rest.drop 1 = tokens
      rw [rest]
      rfl
    have member := cursor.advance.current_mem
    rw [tail] at member
    rw [current_of_cons rest]
    exact (pairwise_cons.mp climbs).1 _ member

theorem line_le (ordered : cursor.Ordered high) : cursor.line ≤ high := by
  have member := cursor.current_mem
  rcases mem_append.mp member with inside | last
  · have before := (pairwise_append.mp ordered.climbs).2.2 _ inside _ (mem_singleton_self _)
    exact (cursor.current.line_le_lastLine.trans before).trans ordered.final_le
  · rw [line, mem_singleton.mp last]
    exact ordered.final_le

end Ordered

theorem exists_of_few {text : String} {line : Nat} (few : ¬2 ≤ (Token.ofText text line).length) :
    ∃ last, Token.ofText text line = [last] ∧ last.kind = .endOfInput := by
  obtain ⟨front, last, split, ended⟩ := Scanner.exists_last (Scanner.start text.toList line)
  have split : Token.ofText text line = front ++ [last] := split
  have alone : front = [] := by
    rw [split, length_append, length_singleton] at few
    exact length_eq_zero_iff.mp (by omega)
  rw [alone, nil_append] at split
  exact ⟨last, split, ended⟩

section

variable {text : String} {line : Nat} (room : line + text.toList.count '\n' < 0x10000000000000000)

include room

theorem line_ofText : line ≤ (ofTokens (Token.ofText text line)).line := by
  obtain ⟨front, last, split, _⟩ := Scanner.exists_last (Scanner.start text.toList line)
  have split : Token.ofText text line = front ++ [last] := split
  have member : (ofTokens (Token.ofText text line)).current ∈ Token.ofText text line := by
    rw [split]
    cases front <;> simp [current, ofTokens]
  exact ((Token.ofText_numbered room).1 _ member).1

theorem ordered_ofText (several : 2 ≤ (Token.ofText text line).length) :
    (ofTokens (Token.ofText text line)).Ordered (line + text.toList.count '\n') := by
  obtain ⟨bounds, climbs⟩ := Token.ofText_numbered room
  obtain ⟨front, last, split, ended⟩ := Scanner.exists_last (Scanner.start text.toList line)
  have split : Token.ofText text line = front ++ [last] := split
  have final : (ofTokens (Token.ofText text line)).final = last.line := by
    simp only [ofTokens]
    rw [if_neg (by omega), split, List.getLast?_append]
    rfl
  have past : last.lastLine = last.line := Token.lastLine_of_plain (by simp [ended])
  refine ⟨pairwise_append.mpr ⟨climbs, pairwise_singleton _ _, ?_⟩, ?_, room⟩
  · intro token member other ends
    rw [mem_singleton.mp ends]
    change token.lastLine ≤ (ofTokens (Token.ofText text line)).final
    rw [final]
    have member : token ∈ front ++ [last] := split ▸ member
    rw [split] at climbs
    rcases mem_append.mp member with before | same
    · exact (pairwise_append.mp climbs).2.2 token before last (mem_singleton_self _)
    · rw [mem_singleton.mp same, past]
  · rw [final, ← past]
    exact (bounds last (by simp [split])).2

end

end Cursor

/-- What a reader may do about errors: whether it reports none, and how the cursors before and after it are related
    if it reads a value, and if it fails after nodes that start at the line `low`. -/
structure Faults where
  quiet : Bool
  kept : Cursor → Cursor → Prop
  thrown : Nat → Cursor → Cursor → SyntaxError → Prop
  still : ∀ {cursor stop : Cursor}, stop.errors = cursor.errors → cursor.line ≤ stop.line → kept cursor stop
  trans : ∀ {cursor middle stop : Cursor}, kept cursor middle → kept middle stop → kept cursor stop
  here : ∀ {low : Nat} {cursor : Cursor} {error : SyntaxError}, error.line = cursor.line →
    low ≤ cursor.line → thrown low cursor cursor error
  after : ∀ {low : Nat} {cursor middle stop : Cursor} {error : SyntaxError}, kept cursor middle →
    thrown low middle stop error → thrown low cursor stop error
  lower : ∀ {low below : Nat} {cursor stop : Cursor} {error : SyntaxError}, below ≤ low →
    thrown low cursor stop error → thrown below cursor stop error

namespace Faults

/-- In a line nothing is reported, and an error may be thrown at any node that has been read. -/
def line : Faults where
  quiet := true
  kept cursor stop := stop.errors = cursor.errors
  thrown low cursor stop error := stop.errors = cursor.errors ∧ low ≤ error.line ∧ error.line ≤ stop.line
  still same _ := same
  trans first second := second.trans first
  here same low := ⟨rfl, low.trans same.ge, same.le⟩
  after kept thrown := ⟨thrown.1.trans kept, thrown.2⟩
  lower bound thrown := ⟨thrown.1, bound.trans thrown.2.1, thrown.2.2⟩

/-- Around blocks errors are reported too, and each one is not above those before it. -/
def block : Faults where
  quiet := false
  kept cursor stop := ∃ new, stop.errors = cursor.errors ++ new ∧
    Climb cursor.line (new.map SyntaxError.line) stop.line
  thrown _ cursor stop error := ∃ new, stop.errors = cursor.errors ++ new ∧
    Climb cursor.line (new.map SyntaxError.line ++ [error.line]) stop.line
  still same onward := ⟨[], by rw [same, append_nil], onward⟩
  trans := by
    rintro cursor middle stop ⟨new, errors, climb⟩ ⟨more, errors', climb'⟩
    refine ⟨new ++ more, ?_, ?_⟩
    · rw [errors', errors, append_assoc]
    · rw [map_append]
      exact climb.append climb'
  here same _ := ⟨[], by rw [append_nil], same.ge, same.le⟩
  after := by
    rintro low cursor middle stop error ⟨new, errors, climb⟩ ⟨more, errors', climb'⟩
    refine ⟨new ++ more, ?_, ?_⟩
    · rw [errors', errors, append_assoc]
    · rw [map_append, append_assoc]
      exact climb.append climb'
  lower _ thrown := thrown

end Faults

end SourceAudit
