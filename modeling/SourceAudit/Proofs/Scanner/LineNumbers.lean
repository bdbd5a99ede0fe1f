import Mathlib.Data.List.TakeWhile
import SourceAudit.Proofs.Scanner.LogicalLines

open List

namespace SourceAudit

namespace Token

variable {text : List Char}

theorem lineAfter_of_lt {line breaks : Nat} (room : line + breaks < 0x10000000000000000) :
    lineAfter line breaks = line + breaks :=
  Nat.mod_eq_of_lt room

theorem lineAfter_lineAfter (line first second : Nat) :
    lineAfter (lineAfter line first) second = lineAfter line (first + second) := by
  unfold lineAfter
  omega

theorem lineAfter_lt (line breaks : Nat) : lineAfter line breaks < 0x10000000000000000 :=
  Nat.mod_lt _ (by decide)

theorem count_dropWhile {p : Char → Bool} (stops : p '\n' = false) (text : List Char) :
    (text.dropWhile p).count '\n' = text.count '\n' := by
  have inner : (text.takeWhile p).count '\n' = 0 := by
    apply count_eq_zero_of_not_mem
    intro member
    have passes := all_eq_true.mp all_takeWhile '\n' member
    rw [stops] at passes
    cases passes
  have parts := congrArg (List.count '\n') (takeWhile_append_dropWhile (p := p) (l := text))
  rw [count_append] at parts
  omega

theorem decimalText_count (isFloat : Bool) (text : List Char) :
    (decimalText isFloat text).rest.count '\n' = text.count '\n' := by
  have digits : ∀ c : Char, c.isDigit = true → c ≠ '\n' := by
    rintro c digit rfl
    cases digit
  have signs : ∀ c : Char, isSign c = true → c ≠ '\n' := by
    rintro c sign rfl
    cases sign
  fun_induction decimalText isFloat text <;> grind [NumberText.push]

theorem numberText_count (text : List Char) : (numberText text).rest.count '\n' = text.count '\n' := by
  unfold numberText
  split
  · rename_i mark rest
    split
    · rename_i radix
      have inner : mark ≠ '\n' := by
        rintro rfl
        cases radix
      dsimp only
      rw [count_dropWhile (by decide), count_cons_of_ne (by decide), count_cons_of_ne inner]
    · exact decimalText_count _ _
  · exact decimalText_count _ _

namespace QuoteStyle

variable {style : QuoteStyle}

theorem close?_eq_some {rest : List Char} (closed : style.close? text = some rest) :
    text = style.opening ++ rest := by
  unfold close? at closed
  split at closed
  · rename_i opens
    injection closed with same
    subst same
    obtain ⟨rest, rfl⟩ := isPrefixOf_iff_prefix.mp opens
    rw [drop_left]
  · cases closed

theorem opening_inner (quoted : style.quote ≠ '\n') : '\n' ∉ style.opening := by
  unfold opening
  split <;> simp [quoted.symm]

theorem read_count (quoted : style.quote ≠ '\n') (text : List Char) :
    (style.read text).lines + (style.read text).rest.count '\n' = text.count '\n' := by
  fun_induction read style text with
  | case2 c cs rest closes =>
    have plain : style.opening.count '\n' = 0 := count_eq_zero_of_not_mem (opening_inner quoted)
    rw [close?_eq_some closes, count_append, plain]
  | _ => grind [QuotedText.push, QuotedText.nextLine]

end QuoteStyle

theorem openQuote_count (verbatim : Bool) {quote : Char} (quoted : quote ≠ '\n') (text : List Char) :
    (openQuote verbatim quote text).2.count '\n' = text.count '\n' := by
  unfold openQuote
  split
  · rename_i opens
    obtain ⟨rest, rfl⟩ := isPrefixOf_iff_prefix.mp opens
    simp [quoted]
  · rfl

theorem openQuote_verbatim (verbatim : Bool) (quote : Char) (text : List Char) :
    (openQuote verbatim quote text).1.verbatim = verbatim := by
  unfold openQuote
  split <;> rfl

theorem quotedLexeme_lines (marks : List Char) {quote : Char} (quoted : quote ≠ '\n') (text : List Char) :
    (quotedLexeme marks quote text).lines + (quotedLexeme marks quote text).rest.count '\n' = text.count '\n' := by
  have opened := openQuote_count (marks.contains 'f' || marks.contains 'r') quoted text
  have style := openQuote_quote (marks.contains 'f' || marks.contains 'r') quote text
  unfold quotedLexeme
  dsimp only
  generalize openQuote (marks.contains 'f' || marks.contains 'r') quote text = found at opened style
  have lines := QuoteStyle.read_count (style ▸ quoted) found.2
  rw [opened] at lines
  split <;> exact lines

theorem not_mem_letters {letters : List Char} (word : ∀ d ∈ letters, Text.isIdentifierChar d = true) {c : Char}
    (other : Text.isIdentifierChar c = false) : c ∉ letters := by
  intro member
  rw [word c member] at other
  cases other

theorem longOperators_inner : ∀ symbol ∈ longOperators, '\n' ∉ symbol.toList := by decide

theorem lexeme_lines {c : Char} (inner : c ≠ '\n') (text : List Char) :
    (lexeme c text).lines + (lexeme c text).rest.count '\n' = (c :: text).count '\n' := by
  have form := lexeme_lexed c text
  generalize lexeme c text = unit at form
  cases form with
  | @quoted letters inner quote whole word opens =>
    have plain : quote ≠ '\n' := by
      rintro rfl
      cases opens
    rw [quotedLexeme_lines _ plain, ← whole, count_append, count_cons_of_ne plain,
      count_eq_zero_of_not_mem (not_mem_letters word (by decide)), Nat.zero_add]
  | number => exact (Nat.zero_add _).trans (numberText_count _)
  | word whole word =>
    rw [← whole, count_append, count_eq_zero_of_not_mem (not_mem_letters word (by decide))]
  | symbol whole found =>
    rw [← whole, count_append,
      count_eq_zero_of_not_mem (longOperators_inner _ (mem_of_find?_eq_some found))]
  | single => exact (Nat.zero_add _).trans (count_cons_of_ne inner).symm

/-- The line of the last character of a token, as far as the token tells it: only formatted strings keep
    all their line breaks. -/
def lastLine (token : Token) : Nat :=
  if token.kind = .formattedString then token.line + token.text.toList.count '\n' else token.line

theorem line_le_lastLine (token : Token) : token.line ≤ token.lastLine := by
  unfold lastLine
  split <;> omega

theorem lastLine_of_plain {token : Token} (plain : token.kind ≠ .formattedString) :
    token.lastLine = token.line :=
  if_neg plain

end Token

namespace Scanner

open Token

theorem openLine_line (scanner : Scanner) : scanner.openLine.line = scanner.line := by
  unfold openLine
  dsimp only
  split
  · rfl
  · split <;> rfl

theorem openLine_rest (scanner : Scanner) : scanner.openLine.rest = scanner.rest.dropWhile isIndentChar := by
  unfold openLine
  dsimp only
  split
  · rfl
  · split <;> rfl

theorem exists_last (scanner : Scanner) :
    ∃ front last, scanner.tokens = front ++ [last] ∧ last.kind = .endOfInput := by
  fun_induction tokens scanner with
  | case1 scanner done => exact ⟨[], _, rfl, done⟩
  | case2 scanner _ ih =>
    obtain ⟨front, last, same, done⟩ := ih
    exact ⟨scanner.next.1 :: front, last, by rw [same]; rfl, done⟩

end Scanner
end SourceAudit
