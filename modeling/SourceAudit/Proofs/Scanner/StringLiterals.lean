import SourceAudit.Proofs.Scanner.LineNumbers

open List

namespace SourceAudit

namespace Scanner

open Token

theorem tokens_unit {c : Char} {text value : List Char} {kind : Kind} {line breaks : Nat}
    (unit : lexeme c text = ⟨kind, value, breaks, ['\n']⟩) (visible : isIndentChar c = false)
    (starts : isBlankLine (c :: text) = false) (more : kind ≠ .endOfInput) (flat : kind ≠ .delimiter) :
    (start (c :: text) line).tokens = [⟨kind, String.ofList value, line⟩, ⟨.newline, "\n", lineAfter line breaks⟩,
      ⟨.endOfInput, "", lineAfter line (breaks + 1)⟩] := by
  have opened : (start (c :: text) line).openLine = ⟨c :: text, line, [0], [], false, false, 0⟩ := by
    simp [openLine, start, visible, starts, leadingColumn]
  have first : Steps (start (c :: text) line) none _ := .opened rfl rfl rfl
  have second : Steps ⟨c :: text, line, [0], [], false, false, 0⟩ (some _) _ :=
    .unit rfl (by simp) (dropWhile_cons_of_neg (by simp [visible])) starts
  have third : Steps ⟨['\n'], lineAfter line breaks, [0], [], false, true, 0⟩ (some _) _ :=
    .lineBreak rfl (by simp) rfl (.inl rfl) rfl
  have fourth : Steps ⟨[], lineAfter (lineAfter line breaks) 1, [0], [], true, false, 0⟩ none _ := .opened rfl rfl rfl
  have fifth : Steps ⟨[], lineAfter (lineAfter line breaks) 1, [0], [], false, false, 0⟩ (some _) _ :=
    .ended rfl (by simp) rfl rfl (by simp)
  rw [opened] at first
  rw [unit] at second
  rw [tokens_of_none first.step_eq, tokens_of_some second.step_eq more, depthAfter, if_neg flat,
    tokens_of_some third.step_eq (by simp), tokens_of_none fourth.step_eq]
  refine congrArg _ (congrArg _ ?_)
  rw [← lineAfter_lineAfter]
  exact tokens_of_end fifth.step_eq rfl

end Scanner

namespace Token

theorem isQuote_iff {c : Char} : isQuote c = true ↔ c = '\x22' ∨ c = '\x27' := by
  simp [isQuote]

namespace QuoteStyle

def spell (style : QuoteStyle) (c : Char) : List Char :=
  if c = '\\' ∨ c = style.quote then ['\\', c]
  else if c = '\n' ∧ style.triple = false then ['\\', 'n']
  else [c]

def spelling (style : QuoteStyle) (text : List Char) : List Char := text.flatMap style.spell

def breaks (style : QuoteStyle) (text : List Char) : Nat := if style.triple then text.count '\n' else 0

variable {style : QuoteStyle} {c : Char} {text : List Char}

theorem close?_opening (style : QuoteStyle) (rest : List Char) : style.close? (style.opening ++ rest) = some rest := by
  simp [close?]

theorem close?_other (other : c ≠ style.quote) (text : List Char) : style.close? (c :: text) = none := by
  unfold close? opening
  split <;> simp [other.symm]

theorem read_opening (style : QuoteStyle) (rest : List Char) :
    style.read (style.opening ++ rest) = ⟨[], 0, true, rest⟩ := by
  obtain ⟨more, opening⟩ := style.opening_cons
  have closed := style.close?_opening rest
  rw [opening, cons_append] at closed ⊢
  exact read_closing closed

theorem read_escaped (quoted : isQuote style.quote = true) (plain : style.verbatim = false) (line : c ≠ '\n')
    (text : List Char) : style.read ('\\' :: c :: text) = (style.read text).push (escaped c) := by
  have other : '\\' ≠ style.quote := by
    rintro same
    rw [← same] at quoted
    cases quoted
  rw [read_escape (close?_other other _) line, plain]
  rfl

theorem read_spell (quoted : isQuote style.quote = true) (plain : style.verbatim = false) (c : Char)
    (text : List Char) :
    (style.read (style.spell c ++ text)) =
      ⟨c :: (style.read text).value, style.breaks [c] + (style.read text).lines, (style.read text).closed,
        (style.read text).rest⟩ := by
  have inner : style.quote ≠ '\n' := by
    intro same
    rw [same] at quoted
    cases quoted
  unfold spell breaks
  by_cases special : c = '\\' ∨ c = style.quote
  · have line : c ≠ '\n' := by
      rintro rfl
      rcases special with same | same
      · cases same
      · exact inner same.symm
    have meaning : escaped c = [c] := by
      rcases special with rfl | rfl
      · rfl
      · rcases isQuote_iff.mp quoted with quote | quote <;> rw [quote] <;> rfl
    simp [special, read_escaped quoted plain line, meaning, QuotedText.push, line]
  · obtain ⟨escape, other⟩ := not_or.mp special
    by_cases line : c = '\n'
    · subst line
      cases triple : style.triple with
      | false => simp [other, read_escaped quoted plain (show 'n' ≠ '\n' by decide), QuotedText.push, escaped]
      | true =>
        rw [if_neg special, if_neg (by simp), singleton_append, read_lineBreak (close?_other other text) triple]
        simp [QuotedText.push, QuotedText.nextLine, Nat.add_comm]
    · simp [special, line, read_plain (close?_other other text) line escape, QuotedText.push]

theorem breaks_cons (style : QuoteStyle) (c : Char) (text : List Char) :
    style.breaks (c :: text) = style.breaks [c] + style.breaks text := by
  unfold breaks
  split
  · rw [← singleton_append, count_append]
  · rfl

theorem read_spelling (quoted : isQuote style.quote = true) (plain : style.verbatim = false) (text rest : List Char) :
    style.read (style.spelling text ++ (style.opening ++ rest)) = ⟨text, style.breaks text, true, rest⟩ := by
  induction text with
  | nil => simpa [spelling, breaks] using style.read_opening rest
  | cons c text ih =>
    rw [spelling, flatMap_cons, append_assoc, read_spell quoted plain, ← spelling, ih,
      style.breaks_cons c text]

theorem read_verbatim {body : List Char} (other : ∀ c ∈ body, c ≠ style.quote ∧ c ≠ '\n' ∧ c ≠ '\\')
    (rest : List Char) : style.read (body ++ (style.opening ++ rest)) = ⟨body, 0, true, rest⟩ := by
  induction body with
  | nil => exact style.read_opening rest
  | cons c body ih =>
    obtain ⟨⟨quote, line, escape⟩, others⟩ := forall_mem_cons.mp other
    rw [cons_append, read_plain (close?_other quote _) line escape, ih others]
    rfl

theorem head?_spelling (escape : style.quote ≠ '\\') (text : List Char) :
    (style.spelling text).head? ≠ some style.quote := by
  cases text with
  | nil => simp [spelling]
  | cons c text =>
    rw [spelling, flatMap_cons, spell]
    split
    · simp [escape.symm]
    · rename_i special
      split
      · simp [escape.symm]
      · simpa using fun same => special (.inr same)

end QuoteStyle

theorem openQuote_single (verbatim : Bool) {quote : Char} (inner : quote ≠ '\n') {body : List Char}
    (other : body.head? ≠ some quote) :
    openQuote verbatim quote (body ++ [quote, '\n']) = (⟨quote, false, verbatim⟩, body ++ [quote, '\n']) := by
  refine if_neg fun triple => ?_
  cases body with
  | nil => simp [inner] at triple
  | cons c body =>
    simp only [cons_append, List.isPrefixOf, Bool.and_eq_true, beq_iff_eq] at triple
    exact other (congrArg some triple.1.symm)

theorem openQuote_triple (verbatim : Bool) (quote : Char) (text : List Char) :
    openQuote verbatim quote (quote :: quote :: text) = (⟨quote, true, verbatim⟩, text) := by
  simp [openQuote]

theorem quotedLexeme_string {marks text value rest : List Char} {quote : Char} {style : QuoteStyle} {body : List Char}
    {breaks : Nat} (plain : marks.contains 'f' = false) (opens : openQuote (marks.contains 'r') quote text = (style, body))
    (reads : style.read body = ⟨value, breaks, true, rest⟩) :
    quotedLexeme marks quote text = ⟨.string, value, breaks, rest⟩ := by
  unfold quotedLexeme
  simp only [plain, Bool.false_or, opens, reads, ↓reduceIte, Bool.false_eq_true]

def QuoteStyle.literal (style : QuoteStyle) (text : List Char) : List Char :=
  style.opening ++ (style.spelling text ++ style.opening)

variable {quote : Char}

theorem lexeme_spelled (quoted : isQuote quote = true) (triple : Bool) (text : List Char) :
    ∃ rest, (QuoteStyle.mk quote triple false).literal text ++ ['\n'] = quote :: rest ∧
      lexeme quote rest = ⟨.string, text, (QuoteStyle.mk quote triple false).breaks text, ['\n']⟩ := by
  have unit : ∀ rest, lexeme quote rest = quotedLexeme [] quote rest := fun rest => if_pos quoted
  have reads := @QuoteStyle.read_spelling ⟨quote, triple, false⟩ quoted rfl text ['\n']
  cases triple with
  | false =>
    obtain ⟨inner, escape⟩ : quote ≠ '\n' ∧ quote ≠ '\\' := by
      rcases isQuote_iff.mp quoted with rfl | rfl <;> decide
    have opens := openQuote_single false inner (@QuoteStyle.head?_spelling ⟨quote, false, false⟩ escape text)
    refine ⟨_, by simp [QuoteStyle.literal, QuoteStyle.opening]; rfl, ?_⟩
    rw [unit]
    exact quotedLexeme_string rfl opens reads
  | true =>
    refine ⟨_, by simp [QuoteStyle.literal, QuoteStyle.opening]; rfl, ?_⟩
    rw [unit]
    exact quotedLexeme_string rfl (openQuote_triple false quote _) (by simpa [QuoteStyle.opening] using reads)

theorem lexeme_raw (quoted : isQuote quote = true) {mark : Char} (raw : mark = 'r' ∨ mark = 'R') {body : List Char}
    (other : ∀ c ∈ body, c ≠ quote ∧ c ≠ '\n' ∧ c ≠ '\\') :
    lexeme mark (quote :: (body ++ [quote, '\n'])) = ⟨.string, body, 0, ['\n']⟩ := by
  have inner : quote ≠ '\n' := by rcases isQuote_iff.mp quoted with rfl | rfl <;> decide
  have apart : Text.isIdentifierChar quote = false := by rcases isQuote_iff.mp quoted with rfl | rfl <;> decide
  have head : body.head? ≠ some quote := fun same => (other quote (mem_of_head? same)).1 rfl
  obtain ⟨unquoted, digitless, letter, known, lower⟩ : isQuote mark = false ∧
      (mark.isDigit || (mark == '.' && (some quote).any Char.isDigit)) = false ∧
      (Text.isAlphabetic mark || mark == '_') = true ∧
      stringPrefixes.contains (String.ofList (lowerAscii [mark])) = true ∧ lowerAscii [mark] = ['r'] := by
    rcases raw with rfl | rfl <;> exact ⟨rfl, rfl, rfl, by decide, rfl⟩
  have letters : ∀ rest, (mark :: quote :: rest).takeWhile Text.isIdentifierChar = [mark] ∧
      (mark :: quote :: rest).dropWhile Text.isIdentifierChar = quote :: rest := by
    rcases raw with rfl | rfl <;> simp [takeWhile_cons, dropWhile_cons, apart] <;> decide
  have word : ∀ rest, lexeme mark (quote :: rest) = quotedLexeme ['r'] quote rest := by
    intro rest
    unfold lexeme wordLexeme
    rw [List.head?_cons, unquoted, digitless, letter, (letters rest).1, (letters rest).2, ← lower]
    exact if_pos (Bool.and_eq_true_iff.mpr ⟨quoted, known⟩)
  rw [word]
  exact quotedLexeme_string rfl (openQuote_single true inner head)
    (@QuoteStyle.read_verbatim ⟨quote, false, true⟩ _ other ['\n'])

/-- A literal on a line of its own, whatever text it is for and whichever quote it has: between single quotes, between
    triple quotes, which keep the line breaks of the text, and as a raw literal of a text in which nothing is spelled. -/
theorem ofText_literals (quoted : isQuote quote = true) (text : String) {line : Nat} (low : line < 0x10000000000000000) :
    ofText (String.ofList ((QuoteStyle.mk quote false false).literal text.toList ++ ['\n'])) line =
        [⟨.string, text, line⟩, ⟨.newline, "\n", line⟩, ⟨.endOfInput, "", lineAfter line 1⟩] ∧
      ofText (String.ofList ((QuoteStyle.mk quote true false).literal text.toList ++ ['\n'])) line =
        [⟨.string, text, line⟩, ⟨.newline, "\n", lineAfter line (text.toList.count '\n')⟩,
          ⟨.endOfInput, "", lineAfter line (text.toList.count '\n' + 1)⟩] ∧
      ∀ mark, mark = 'r' ∨ mark = 'R' → (∀ c ∈ text.toList, c ≠ quote ∧ c ≠ '\n' ∧ c ≠ '\\') →
        ofText (String.ofList (mark :: quote :: (text.toList ++ [quote, '\n']))) line =
          [⟨.string, text, line⟩, ⟨.newline, "\n", line⟩, ⟨.endOfInput, "", lineAfter line 1⟩] := by
  have visible : isIndentChar quote = false := isQuote_not_blank quoted
  have starts : ∀ rest, Scanner.isBlankLine (quote :: rest) = false := by
    rcases isQuote_iff.mp quoted with rfl | rfl <;> exact fun _ => rfl
  have here : lineAfter line 0 = line := lineAfter_of_lt low
  have spelled : ∀ triple, ofText (String.ofList ((QuoteStyle.mk quote triple false).literal text.toList ++ ['\n'])) line =
      [⟨.string, text, line⟩,
        ⟨.newline, "\n", lineAfter line ((QuoteStyle.mk quote triple false).breaks text.toList)⟩,
        ⟨.endOfInput, "", lineAfter line ((QuoteStyle.mk quote triple false).breaks text.toList + 1)⟩] := by
    intro triple
    obtain ⟨rest, whole, unit⟩ := lexeme_spelled quoted triple text.toList
    rw [ofText, whole, String.toList_ofList, Scanner.tokens_unit unit visible (starts rest) (by simp) (by simp),
      String.ofList_toList]
  refine ⟨by simpa [QuoteStyle.breaks, here] using spelled false, spelled true, fun mark raw other => ?_⟩
  have unit := lexeme_raw quoted raw other
  rw [ofText, String.toList_ofList, Scanner.tokens_unit unit (by rcases raw with rfl | rfl <;> rfl)
    (by rcases raw with rfl | rfl <;> rfl) (by simp) (by simp), String.ofList_toList, here]

theorem ofText_literals_spelled :
    ofText "'it\\'s \\\\\\n'\n" 7 = [⟨.string, "it's \\\n", 7⟩, ⟨.newline, "\n", 7⟩, ⟨.endOfInput, "", 8⟩] ∧
      ofText "\x22\x22\x22it's \\\\\n\x22\x22\x22\n" 7 =
        [⟨.string, "it's \\\n", 7⟩, ⟨.newline, "\n", 8⟩, ⟨.endOfInput, "", 9⟩] ∧
      ofText "R'its'\n" 7 = [⟨.string, "its", 7⟩, ⟨.newline, "\n", 7⟩, ⟨.endOfInput, "", 8⟩] :=
  ⟨(@ofText_literals '\x27' rfl "it's \\\n" 7 (by decide)).1,
    (@ofText_literals '\x22' rfl "it's \\\n" 7 (by decide)).2.1,
    (@ofText_literals '\x27' rfl "its" 7 (by decide)).2.2 'R' (.inr rfl) (by simp)⟩

end Token
end SourceAudit
