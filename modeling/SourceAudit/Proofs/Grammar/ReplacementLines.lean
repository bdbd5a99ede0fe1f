import Mathlib.Data.List.Forall2
import SourceAudit.Proofs.Grammar.ExpressionTakings
import SourceAudit.Proofs.Grammar.Running
import SourceAudit.Proofs.Scanner.BracketBreaks

open List

namespace SourceAudit

def Token.lineEnds (tokens : List Token) : Nat := tokens.countP (·.kind = .newline)

theorem Token.lineEnds_append (first second : List Token) :
    lineEnds (first ++ second) = lineEnds first + lineEnds second :=
  countP_append

theorem Token.lineEnds_of_none {tokens : List Token} (none : ∀ token ∈ tokens, token.kind ≠ .newline) :
    lineEnds tokens = 0 := by
  rw [lineEnds, countP_eq_zero]
  intro token member
  simpa using none token member

theorem Token.lineEnds_cons_newline {token : Token} (newline : token.kind = .newline) (tokens : List Token) :
    lineEnds (token :: tokens) = lineEnds tokens + 1 := by
  simp [lineEnds, newline]

theorem Token.lineEnds_cons_other {token : Token} (other : token.kind ≠ .newline) (tokens : List Token) :
    lineEnds (token :: tokens) = lineEnds tokens := by
  simp [lineEnds, other]

namespace Layout

open Token

theorem Opening.ends_no_line {before level : Nat} {opening : List Token} (opens : Opening before level opening) :
    ∀ token ∈ opening, token.kind ≠ .newline := by
  intro token member
  rcases opens.kinds token member with kind | kind | kind <;> rw [kind] <;> decide

theorem Lines.rest_cases {tokens : List Token} (lines : Lines 0 tokens) :
    lineEnds tokens = 0 ∧ (∃ last, tokens = [last] ∧ last.kind = .endOfInput) ∨
      0 < lineEnds tokens ∧ ∃ token ∈ tokens, token.IsContent := by
  cases lines with
  | @done _ closing last dedents all final =>
    rw [length_eq_zero_iff.mp all]
    exact .inl ⟨lineEnds_cons_other (by simp [final]) [], last, rfl, final⟩
  | @line _ level opening content rest first last opens starts written final more =>
    refine .inr ⟨?_, first, by simp, starts⟩
    rw [lineEnds_append, lineEnds_cons_newline final]
    omega

theorem Lines.start_cases {tokens : List Token} (lines : Lines 0 tokens) :
    (∃ first rest, tokens = first :: rest ∧ first.kind.isLayout = true) ∨
      ∃ run newline rest, tokens = run ++ newline :: rest ∧ run ≠ [] ∧
        (∀ token ∈ run, token.kind.isLayout = false) ∧ newline.kind = .newline ∧ Lines 0 rest := by
  cases lines with
  | @done _ closing last dedents all final =>
    rw [length_eq_zero_iff.mp all]
    exact .inl ⟨last, [], rfl, by rw [final]; rfl⟩
  | @line _ level opening content rest first last opens starts written final more =>
    have words : ∀ token ∈ first :: content, token.kind.isLayout = false := by
      intro token member
      rcases mem_cons.mp member with rfl | member
      · exact starts.1
      · exact (written token member).1
    generalize outermost : 0 = before at opens
    cases opens with
    | @deeper _ token indent => exact .inl ⟨token, _, rfl, by rw [indent]; rfl⟩
    | shallower dedents =>
      have none : opening = [] := length_eq_zero_iff.mp (by omega)
      have flat : level = 0 := by omega
      subst none flat
      exact .inr ⟨first :: content, last, rest, rfl, by simp, words, final, more⟩
    | @misaligned level closed fault dedents misplaced =>
      have none : closed = [] := length_eq_zero_iff.mp (by omega)
      have flat : level = 0 := by omega
      subst none flat
      refine .inr ⟨fault :: first :: content, last, rest, rfl, by simp, ?_, final, more⟩
      intro token member
      rcases mem_cons.mp member with rfl | member
      · rw [misplaced.1]
        rfl
      · exact words token member

end Layout

namespace Scanner

open Token Layout

theorem lineEnds_le_one {scanner : Scanner} (sound : scanner.Sound)
    (queue : ∀ token ∈ scanner.pending, token.kind ≠ .newline) (plain : '\n' ∉ scanner.rest) :
    lineEnds scanner.tokens ≤ 1 ∧
      (scanner.rest = [] → scanner.hasContent = false → lineEnds scanner.tokens = 0) := by
  induction scanner using run_induction with
  | step scanner token after taken ih =>
    have result := taken.step_eq
    have later := taken.sound sound
    have onward : '\n' ∉ after.rest := fun member => plain (taken.suffix.subset member)
    have unbroken : ∀ front text : List Char, scanner.rest.dropWhile isIndentChar ≠ front ++ '\n' :: text := by
      intro front text ahead
      have member : '\n' ∈ scanner.rest.dropWhile isIndentChar := by simp [ahead]
      exact plain ((dropWhile_sublist _).mem member)
    -- a token that ends no line, and what comes after it
    have other : ∀ {unit : Token}, token = some unit → unit.kind ≠ .newline →
        (∀ token ∈ after.pending, token.kind ≠ .newline) →
        lineEnds scanner.tokens ≤ 1 ∧
          (after.rest = [] → after.hasContent = false → lineEnds scanner.tokens = 0) := by
      rintro unit rfl visible queue
      by_cases ended : unit.kind = .endOfInput
      · rw [tokens_of_end result ended, lineEnds_cons_other visible]
        exact ⟨Nat.zero_le 1, fun _ _ => rfl⟩
      · rw [tokens_of_some result ended, lineEnds_cons_other visible]
        exact ih (by simpa using ended) later queue onward
    cases taken with
    | @queued unit more waiting =>
      have tail : ∀ token ∈ more, token.kind ≠ .newline :=
        fun token member => queue token (waiting ▸ mem_cons_of_mem unit member)
      exact other rfl (queue unit (by simp [waiting])) tail
    | opened idle fresh flat =>
      have rest := ih (by simp) later
      rw [tokens_of_none result]
      rcases openLine_cases sound with ⟨_, same⟩ | ⟨visible, columns, opening, same, opens, _, _⟩
      · rw [same] at rest onward ⊢
        have rest := rest queue onward
        exact ⟨rest.1, fun none content => rest.2 (by simp [none]) content⟩
      · rw [same] at rest onward ⊢
        have rest := rest opens.ends_no_line onward
        exact ⟨rest.1, fun none content => rest.2 (by simp [none]) content⟩
    | lastBreak idle inside ahead content =>
      have rest := ih (by simp) later queue onward
      rw [tokens_of_some result (by simp), lineEnds_cons_newline rfl, rest.2 rfl rfl]
      exact ⟨Nat.le_refl 1, fun _ blank => by simp [content] at blank⟩
    | lastDedent idle inside ahead blank nested =>
      have rest := other rfl (by simp) queue
      exact ⟨rest.1, fun _ _ => rest.2 rfl blank⟩
    | ended idle inside ahead blank outermost =>
      have rest := other rfl (by simp) queue
      exact ⟨rest.1, fun _ _ => rest.2 rfl blank⟩
    | comment idle inside ahead =>
      rw [tokens_of_none result]
      refine ⟨(ih (by simp) later queue onward).1, fun none _ => ?_⟩
      simp [none] at ahead
    | joined idle inside ahead | lineBreak idle inside ahead | blankBreak idle inside ahead =>
      exact absurd ahead (unbroken [] _)
    | continued idle inside ahead => exact absurd ahead (unbroken ['\\'] _)
    | @unit c text idle inside ahead starts =>
      have content := (lexeme_written text (visible_ahead ahead)).isContent scanner.line
      have visible : (lexeme c text).kind ≠ .newline := by
        intro newline
        simp [IsContent, newline, Kind.isLayout] at content
      refine ⟨(other rfl visible queue).1, fun none _ => ?_⟩
      simp [none] at ahead

end Scanner

theorem Token.lineEnds_ofText_le {text : String} (plain : '\n' ∉ text.toList) (line : Nat) :
    lineEnds (ofText text line) ≤ 1 :=
  (Scanner.lineEnds_le_one (Scanner.start_sound text.toList line) (by simp [Scanner.start]) plain).1

namespace Parser

theorem expressionList_stops {depth : Nat} {base stop : Cursor} {run : List Token} {value : Expr}
    (written : ∀ token ∈ run, token.kind.isLayout = false) (layout : base.current.kind.isLayout = true)
    (read : expressionList (expression depth) (base.push run) = .ok value stop) :
    ∃ count, stop = base.push (run.drop count) := by
  have same : ∀ token : Token, token.Alike Likeness.same.line token := fun token => ⟨rfl, rfl, rfl⟩
  let twins : Twins Likeness.same :=
    ⟨base, base, run, run, forall₂_same.mpr fun token _ => same token, written, layout, same _⟩
  cases expressionList_reads (expression_readable _ depth) twins with
  | error count left => exact absurd (read.symm.trans left) (by simp)
  | ok count left =>
    cases read.symm.trans left
    exact ⟨count, rfl⟩

theorem wholeText_ok {expr : Precedence → Parser Expr} {cursor stop : Cursor} {value : Expr}
    (read : wholeText expr cursor = .ok value stop) :
    expressionList expr cursor = .ok value stop ∧
      (stop.current.kind = .newline ∨ stop.current.kind = .endOfInput) := by
  cases list : expressionList expr cursor with
  | error error last => simp [wholeText, list] at read
  | ok first last =>
    simp only [wholeText, run_bind, list, run_current] at read
    cases kind : last.current.kind <;> rw [kind] at read <;> cases read
    · exact ⟨rfl, .inl kind⟩
    · exact ⟨rfl, .inr kind⟩

theorem wholeText_stops {depth : Nat} {base stop : Cursor} {run : List Token} {value : Expr}
    (written : ∀ token ∈ run, token.kind.isLayout = false) (layout : base.current.kind.isLayout = true)
    (read : wholeText (expression depth) (base.push run) = .ok value stop) :
    stop = base ∧ expressionList (expression depth) (base.push run) = .ok value base ∧
      (base.current.kind = .newline ∨ base.current.kind = .endOfInput) := by
  obtain ⟨list, ends⟩ := wholeText_ok read
  obtain ⟨count, rfl⟩ := expressionList_stops written layout list
  cases left : run.drop count with
  | nil =>
    rw [left, Cursor.push_nil] at list ends
    exact ⟨Cursor.push_nil base, list, ends⟩
  | cons token more =>
    -- a token that is left over is no layout, so the reader would have failed there
    have visible := written token (mem_of_mem_drop (left ▸ mem_cons_self))
    rw [left, Cursor.current_push_cons] at ends
    rcases ends with kind | kind <;> simp [kind, Token.Kind.isLayout] at visible

theorem apart_ok {α : Type} {parser : Parser α} {inner cursor after : Cursor} {value : α}
    (read : apart parser inner cursor = .ok value after) :
    after = cursor ∧ ∃ stop, parser inner = .ok value stop := by
  unfold apart at read
  cases run : parser inner with
  | error error stop =>
    rw [run] at read
    cases read
  | ok result stop =>
    rw [run] at read
    cases read
    exact ⟨rfl, stop, rfl⟩

/-- A replacement field that is read without an error is read up to the end of its first line, and neither
    the level nor what is around the field matters. All that is written in it has been taken if it has one
    line, as it does without a line break. Otherwise the lines after the first one are left out, and there is
    something written on them. -/
theorem replacement_first_line {depth line : Nat} {text : String} {cursor after : Cursor} {value : Expr}
    (read : replacement (expression depth) text line cursor = .ok value after) :
    after = cursor ∧ ∃ taken newline rest stop,
      Token.ofText text line = taken ++ newline :: rest ∧ taken ≠ [] ∧
      (∀ token ∈ taken, token.kind.isLayout = false) ∧ newline.kind = .newline ∧
      expressionList (expression depth) (Cursor.ofTokens (Token.ofText text line)) = .ok value stop ∧
      stop.rest = newline :: rest ∧
      (Token.lineEnds (Token.ofText text line) = 1 → ∃ last, rest = [last] ∧ last.kind = .endOfInput) ∧
      (Token.lineEnds (Token.ofText text line) ≠ 1 → ∃ token ∈ rest, token.IsContent) ∧
      ('\n' ∉ text.toList → Token.lineEnds (Token.ofText text line) = 1) := by
  obtain ⟨same, stop, whole⟩ := apart_ok read
  refine ⟨same, ?_⟩
  rcases (Token.ofText_layout text line).start_cases with
    ⟨first, rest, split, layout⟩ | ⟨run, newline, rest, split, some, written, ends, lines⟩
  · -- nothing can be read at a layout token
    have start : (Cursor.ofTokens (Token.ofText text line)).current = first := by
      rw [Cursor.ofTokens, Cursor.current, split]
      rfl
    rw [← Cursor.push_nil (Cursor.ofTokens _)] at whole
    obtain ⟨_, list, _⟩ := wholeText_stops (by simp) (start ▸ layout) whole
    rw [Cursor.push_nil] at list
    have gains : Gains (Cursor.ofTokens (Token.ofText text line)) [] Expr.tally (expressionList (expression depth)) :=
      expressionList_serves (expression_reads depth)
    exact absurd ((gains.ok list).2 trivial) (Nat.lt_irrefl _)
  · let base : Cursor := ⟨newline :: rest, (Cursor.ofTokens (Token.ofText text line)).final, [], _, rfl⟩
    have start : Cursor.ofTokens (Token.ofText text line) = base.push run := Cursor.eq_of_parts split rfl rfl
    have layout : base.current.kind.isLayout = true := by
      change newline.kind.isLayout = true
      rw [ends]
      rfl
    rw [start] at whole
    obtain ⟨_, list, _⟩ := wholeText_stops written layout whole
    have count : Token.lineEnds (Token.ofText text line) = Token.lineEnds rest + 1 := by
      have none : ∀ token ∈ run, token.kind ≠ .newline := by
        intro token member kind
        have visible := written token member
        simp [kind, Token.Kind.isLayout] at visible
      rw [split, Token.lineEnds_append, Token.lineEnds_of_none none, Token.lineEnds_cons_newline ends]
      omega
    refine ⟨run, newline, rest, base, split, some, written, ends, start ▸ list, rfl, ?_, ?_, ?_⟩
    · intro one
      rcases lines.rest_cases with ⟨_, last⟩ | ⟨more, _⟩
      · exact last
      · omega
    · intro several
      rcases lines.rest_cases with ⟨none, _⟩ | ⟨_, content⟩
      · omega
      · exact content
    · intro plain
      have := Token.lineEnds_ofText_le plain line
      omega

theorem replacement_first_line_brackets :
    (∃ value, replacement (expression (nestingLimit - 1)) "(a\n+ b)" 7 (Cursor.ofTokens []) =
        .ok value (Cursor.ofTokens [])) ∧
      ∃ taken newline last, Token.ofText "(a\n+ b)" 7 = taken ++ [newline, last] ∧
        (∀ token ∈ taken, token.kind.isLayout = false) ∧ newline.kind = .newline ∧ last.kind = .endOfInput := by
  have one : Token.lineEnds (Token.ofText "(a\n+ b)" 7) = 1 := by decide +kernel
  have read : replacement (expression (nestingLimit - 1)) "(a\n+ b)" 7 (Cursor.ofTokens []) =
      .ok ⟨7, .binary .add ⟨7, .identifier "a"⟩ ⟨8, .identifier "b"⟩⟩ (Cursor.ofTokens []) := by with_unfolding_all rfl
  obtain ⟨_, taken, newline, rest, _, split, _, written, ends, _, _, whole, _⟩ := replacement_first_line read
  obtain ⟨last, rfl, final⟩ := whole one
  exact ⟨⟨_, read⟩, taken, newline, last, split, written, ends, final⟩

end Parser

namespace Program

def brokenField : String := "f'''\x7ba\nb\x7d'''\n"

/-- The second line of the field is dropped, and there is no error. -/
theorem ofSource_drops_field_line :
    (∃ value after, Parser.replacement (Parser.expression nestingLimit) "a\nb" 1 (Cursor.ofTokens []) =
        .ok value (Cursor.ofTokens []) ∧
      Parser.expressionList (Parser.expression nestingLimit) (Cursor.ofTokens (Token.ofText "a\nb" 1)) =
        .ok value after ∧ ⟨.identifier, "b", 2⟩ ∈ after.rest) ∧
      (ofSource "lib" brokenField).2 = [] ∧ (ofSource "lib" brokenField).1.names = ["a"] := by
  refine ⟨⟨⟨1, .identifier "a"⟩, (Cursor.ofTokens (Token.ofText "a\nb" 1)).advance, by with_unfolding_all rfl,
    by with_unfolding_all rfl, ?_⟩, ?_, ?_⟩
  · decide +kernel
  · decide +kernel
  · decide +kernel

end Program
end SourceAudit
