import SourceAudit.Proofs.Grammar.Likeness
import SourceAudit.Proofs.Scanner.Steps

namespace SourceAudit.Scanner

open Token

variable {lines : Nat → Nat → Prop}

structure Alike (lines : Nat → Nat → Prop) (scanner other : Scanner) : Prop where
  rest : scanner.rest = other.rest
  line : lines scanner.line other.line
  indents : scanner.indents = other.indents
  pending : List.Forall₂ (Token.Alike lines) scanner.pending other.pending
  atLineStart : scanner.atLineStart = other.atLineStart
  hasContent : scanner.hasContent = other.hasContent
  depth : scanner.depth = other.depth

theorem Alike.openLine {scanner other : Scanner} (alike : scanner.Alike lines other) :
    scanner.openLine.Alike lines other.openLine := by
  have here : ∀ kind text, Token.Alike lines ⟨kind, text, scanner.line⟩ ⟨kind, text, other.line⟩ :=
    fun _ _ => ⟨rfl, rfl, alike.line⟩
  unfold Scanner.openLine
  simp only [← alike.rest, ← alike.indents]
  split
  · exact ⟨rfl, alike.line, rfl, alike.pending, rfl, alike.hasContent, alike.depth⟩
  · split
    · exact ⟨rfl, alike.line, rfl, .cons (here _ _) .nil, rfl, alike.hasContent, alike.depth⟩
    · refine ⟨rfl, alike.line, rfl, ?_, rfl, alike.hasContent, alike.depth⟩
      refine List.rel_append ?_ ?_
      · refine List.rel_map (R := Eq) ?_ ?_
        · intro _ _ _
          exact here _ _
        · simp
      · split
        · exact .nil
        · exact .cons (here _ _) .nil

variable (later : ∀ {m n : Nat} (breaks : Nat), lines m n →
  lines (lineAfter m breaks) (lineAfter n breaks))

include later

theorem Steps.alike {scanner other after : Scanner} {token : Option Token}
    (taken : Steps scanner token after) (alike : scanner.Alike lines other) :
    ∃ token' after', Steps other token' after' ∧ Option.Rel (Token.Alike lines) token token' ∧
      after.Alike lines after' := by
  have opens := alike.openLine
  obtain ⟨rest, line, indents, pending, atLineStart, hasContent, depth⟩ := scanner
  obtain ⟨rest', line', indents', pending', atLineStart', hasContent', depth'⟩ := other
  obtain ⟨rfl, line_alike, rfl, pending_alike, rfl, rfl, rfl⟩ := alike
  dsimp only at line_alike pending_alike
  have here : ∀ kind text, Token.Alike lines ⟨kind, text, line⟩ ⟨kind, text, line'⟩ :=
    fun _ _ => ⟨rfl, rfl, line_alike⟩
  have waits : pending = [] → pending' = [] := by
    rintro rfl
    simpa using pending_alike
  cases taken with
  | queued waiting =>
    dsimp only at waiting
    subst waiting
    cases pending_alike with
    | cons first others =>
      exact ⟨_, _, .queued rfl, .some first, rfl, line_alike, rfl, others, rfl, rfl, rfl⟩
  | opened idle fresh flat => exact ⟨_, _, .opened (waits idle) fresh flat, .none, opens⟩
  | lastBreak idle inside ahead content =>
    exact ⟨_, _, .lastBreak (waits idle) inside ahead content, .some (here _ _),
      rfl, line_alike, rfl, pending_alike, rfl, rfl, rfl⟩
  | lastDedent idle inside ahead blank nested =>
    exact ⟨_, _, .lastDedent (waits idle) inside ahead blank nested, .some (here _ _),
      rfl, line_alike, rfl, pending_alike, rfl, rfl, rfl⟩
  | ended idle inside ahead blank outermost =>
    exact ⟨_, _, .ended (waits idle) inside ahead blank outermost, .some (here _ _),
      rfl, line_alike, rfl, pending_alike, rfl, rfl, rfl⟩
  | comment idle inside ahead =>
    exact ⟨_, _, .comment (waits idle) inside ahead, .none,
      rfl, line_alike, rfl, pending_alike, rfl, rfl, rfl⟩
  | joined idle inside ahead nested continues =>
    exact ⟨_, _, .joined (waits idle) inside ahead nested continues, .none,
      rfl, later 1 line_alike, rfl, pending_alike, rfl, rfl, rfl⟩
  | lineBreak idle inside ahead ends content =>
    exact ⟨_, _, .lineBreak (waits idle) inside ahead ends content, .some (here _ _),
      rfl, later 1 line_alike, rfl, pending_alike, rfl, rfl, rfl⟩
  | blankBreak idle inside ahead ends blank =>
    exact ⟨_, _, .blankBreak (waits idle) inside ahead ends blank, .none,
      rfl, later 1 line_alike, rfl, pending_alike, rfl, rfl, rfl⟩
  | continued idle inside ahead =>
    exact ⟨_, _, .continued (waits idle) inside ahead, .none,
      rfl, later 1 line_alike, rfl, pending_alike, rfl, rfl, rfl⟩
  | unit idle inside ahead starts =>
    exact ⟨_, _, .unit (waits idle) inside ahead starts, .some (here _ _),
      rfl, later _ line_alike, rfl, pending_alike, rfl, rfl, rfl⟩

theorem tokens_alike {scanner other : Scanner} (alike : scanner.Alike lines other) :
    List.Forall₂ (Token.Alike lines) scanner.tokens other.tokens := by
  induction scanner using run_induction generalizing other with
  | step scanner token after steps ih =>
    obtain ⟨token', after', steps', tokens, afters⟩ := steps.alike later alike
    have taken := steps.step_eq
    have next' := steps'.step_eq
    cases tokens with
    | none =>
      rw [tokens_of_none taken, tokens_of_none next']
      exact ih (by simp) afters
    | @some token token' same =>
      by_cases done : token.kind = .endOfInput
      · rw [tokens_of_end taken done, tokens_of_end next' (same.kind ▸ done)]
        exact .cons same .nil
      · rw [tokens_of_some taken done, tokens_of_some next' (same.kind ▸ done)]
        exact .cons same (ih (by simpa using done) afters)

theorem ofText_alike (text : String) {line line' : Nat} (alike : lines line line') :
    List.Forall₂ (Token.Alike lines) (ofText text line) (ofText text line') :=
  tokens_alike later ⟨rfl, alike, rfl, .nil, rfl, rfl, rfl⟩

end SourceAudit.Scanner
