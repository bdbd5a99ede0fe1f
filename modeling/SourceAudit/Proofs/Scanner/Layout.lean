import SourceAudit.Proofs.Scanner.UnitTexts

open List

namespace SourceAudit

namespace Scanner

/-- The state comes at or after the given one in a run. -/
inductive Follows (origin : Scanner) : Scanner → Prop where
  | start : Follows origin origin
  | step {scanner after : Scanner} {token : Option Token} (earlier : Follows origin scanner)
      (taken : Steps scanner token after) : Follows origin after

/-- In the run from a state on, the token is read from `source`, behind blanks, and `rest` is left. -/
def Reads (origin : Scanner) (token : Token) (source rest : List Char) : Prop :=
  ∃ scanner after, origin.Follows scanner ∧ Steps scanner (some token) after ∧
    scanner.rest.dropWhile Token.isIndentChar = source ++ rest ∧ after.rest = rest

end Scanner

namespace Token

structure Marks (letters : List Char) (style : QuoteStyle) : Prop where
  formatted : (lowerAscii letters).contains 'f' = true
  quoted : isQuote style.quote = true
  inner : '\n' ∉ letters

theorem Marks.count {letters : List Char} {style : QuoteStyle} (marks : Marks letters style) :
    (letters ++ style.opening).count '\n' = 0 := by
  have other : style.quote ≠ '\n' := by
    intro same
    have quoted := marks.quoted
    rw [same] at quoted
    cases quoted
  rw [count_append, count_eq_zero.mpr marks.inner, count_eq_zero.mpr (QuoteStyle.opening_inner other)]

structure Wrote (token : Token) (source : List Char) : Prop where
  verbatim : token.kind.isVerbatim = true → token.text.toList = source
  formatted : token.kind = .formattedString → ∃ (letters : List Char) (style : QuoteStyle),
    source = letters ++ style.opening ++ token.text.toList ++ style.opening ∧ Marks letters style

theorem QuoteStyle.read_closed {style : QuoteStyle} (verbatim : style.verbatim = true) {text : List Char}
    (closed : (style.read text).closed = true) :
    (style.read text).value ++ (style.opening ++ (style.read text).rest) = text := by
  fun_induction read style text with
  | case2 c cs rest closes => exact (close?_eq_some closes).symm
  | _ => grind [QuotedText.push, QuotedText.nextLine]

theorem openQuote_opening (verbatim : Bool) (quote : Char) (text : List Char) :
    (openQuote verbatim quote text).1.opening ++ (openQuote verbatim quote text).2 = quote :: text := by
  unfold openQuote
  split
  · rename_i opens
    obtain ⟨rest, rfl⟩ := isPrefixOf_iff_prefix.mp opens
    rfl
  · rfl

theorem quotedLexeme_formatted {marks : List Char} {quote : Char} {text : List Char}
    (formatted : (quotedLexeme marks quote text).kind = .formattedString) :
    marks.contains 'f' = true ∧ ∃ style : QuoteStyle, style.quote = quote ∧
      style.opening ++ ((quotedLexeme marks quote text).text ++ (style.opening ++ (quotedLexeme marks quote text).rest)) =
        quote :: text := by
  have opens := openQuote_opening (marks.contains 'f' || marks.contains 'r') quote text
  have same := openQuote_quote (marks.contains 'f' || marks.contains 'r') quote text
  have verbatim := openQuote_verbatim (marks.contains 'f' || marks.contains 'r') quote text
  unfold quotedLexeme at formatted ⊢
  dsimp only at formatted ⊢
  generalize openQuote (marks.contains 'f' || marks.contains 'r') quote text = found at *
  split at formatted
  · rename_i closed
    have marked : marks.contains 'f' = true := by
      by_contra plain
      rw [if_neg plain] at formatted
      cases formatted
    rw [marked, Bool.true_or] at verbatim
    refine ⟨marked, found.1, same, ?_⟩
    rw [if_pos closed, QuoteStyle.read_closed verbatim closed, opens]
  · cases formatted

theorem lexeme_formatted {c : Char} {text : List Char} (formatted : (lexeme c text).kind = .formattedString) :
    ∃ (letters : List Char) (style : QuoteStyle),
      letters ++ style.opening ++ (lexeme c text).text ++ style.opening ++ (lexeme c text).rest = c :: text ∧
        Marks letters style := by
  have form := lexeme_lexed c text
  generalize lexeme c text = unit at form formatted
  cases form with
  | quoted parts word opens =>
    obtain ⟨marked, style, quote, whole⟩ := quotedLexeme_formatted formatted
    refine ⟨_, style, ?_, marked, quote ▸ opens, not_mem_letters word (by decide)⟩
    rw [← parts, ← whole]
    simp
  | number => rcases numberLexeme_kind (c :: text) with kind | kind <;> rw [kind] at formatted <;> cases formatted
  | @word letters _ _ _ =>
    rcases kindOfWord_cases (String.ofList letters) with kind | kind | kind | kind <;>
      rw [kind] at formatted <;> cases formatted
  | symbol => cases formatted
  | single _ _ one => rcases one with rfl | ⟨rfl, _⟩ | rfl <;> cases formatted

/-- The tokens of a text that starts on a line, in the run from a state on. Those in which identifiers may stand are
    written in the text one after the other, each on its line. -/
inductive Laid (origin : Scanner) : Nat → List Char → List Token → Prop where
  | nil {line : Nat} {text : List Char} : Laid origin line text []
  | pass {line : Nat} {text : List Char} {tokens : List Token} (gap : List Char)
      (rest : Laid origin (lineAfter line (gap.count '\n')) text tokens) : Laid origin line (gap ++ text) tokens
  | layout {line : Nat} {text : List Char} {token : Token} {tokens : List Token}
      (other : token.kind.isVerbatim = false ∧ token.kind ≠ .formattedString) (numbered : token.line = line)
      (rest : Laid origin line text tokens) : Laid origin line text (token :: tokens)
  | unit {line : Nat} {source text : List Char} {token : Token} {tokens : List Token} (wrote : token.Wrote source)
      (found : origin.Reads token source text) (numbered : token.line = line)
      (rest : Laid origin (lineAfter line (source.count '\n')) text tokens) :
      Laid origin line (source ++ text) (token :: tokens)

theorem lexeme_wrote {c : Char} {text front : List Char} (whole : front ++ (lexeme c text).rest = c :: text)
    (line : Nat) : Wrote ⟨(lexeme c text).kind, String.ofList (lexeme c text).text, line⟩ front := by
  constructor
  · intro verbatim
    rw [String.toList_ofList]
    exact (lexeme_writtenAs whole).verbatim verbatim
  · intro formatted
    obtain ⟨letters, style, parts, marks⟩ := lexeme_formatted formatted
    refine ⟨letters, style, ?_, marks⟩
    rw [String.toList_ofList]
    exact append_cancel_right (whole.trans parts.symm)

end Token

namespace Scanner

open Token

variable {scanner after : Scanner} {token : Option Token}

theorem Steps.line_eq {front : List Char} (taken : Steps scanner token after) (low : scanner.line < 0x10000000000000000)
    (parts : scanner.rest = front ++ after.rest) : after.line = lineAfter scanner.line (front.count '\n') := by
  have whole := congrArg (List.count '\n') parts
  rw [count_append] at whole
  have count := count_dropWhile (by decide : isIndentChar '\n' = false) scanner.rest
  generalize front.count '\n' = breaks at whole
  have still : breaks = 0 → scanner.line = lineAfter scanner.line breaks := by
    intro none
    rw [none, lineAfter_of_lt low, Nat.add_zero]
  cases taken with
  | queued =>
    dsimp only at whole
    exact still (by omega)
  | opened =>
    rw [openLine_rest] at whole
    rw [openLine_line]
    exact still (by omega)
  | lastBreak _ _ ahead | lastDedent _ _ ahead | ended _ _ ahead =>
    rw [ahead] at count
    dsimp only at whole
    exact still (by omega)
  | comment _ _ ahead =>
    rw [ahead, count_cons_of_ne (by decide)] at count
    rw [count_dropWhile (by decide)] at whole
    exact still (by omega)
  | joined _ _ ahead | lineBreak _ _ ahead | blankBreak _ _ ahead =>
    rw [ahead, count_cons_self] at count
    dsimp only at whole
    have single : breaks = 1 := by omega
    rw [single]
  | continued _ _ ahead =>
    rw [ahead, count_cons_of_ne (by decide), count_cons_self] at count
    dsimp only at whole
    have single : breaks = 1 := by omega
    rw [single]
  | @unit c text _ _ ahead starts =>
    have inner : c ≠ '\n' := by
      intro same
      subst same
      cases starts
    rw [ahead, ← lexeme_lines inner text] at count
    dsimp only at whole
    have lines : breaks = (lexeme c text).lines := by omega
    rw [lines]

theorem openLine_pending (sound : scanner.Sound) (idle : scanner.pending = []) :
    ∀ token ∈ scanner.openLine.pending, token.line = scanner.line ∧
      isBlankLine (scanner.rest.dropWhile isIndentChar) = false ∧
      (token.kind = .indent ∨ token.kind = .dedent ∨
        token.IsMisaligned ∧ token.text.toList = scanner.rest.takeWhile isIndentChar) := by
  intro token member
  unfold openLine at member
  dsimp only at member
  split at member
  · rw [idle] at member
    cases member
  · rename_i visible
    have visible : isBlankLine (scanner.rest.dropWhile isIndentChar) = false := by simpa using visible
    split at member
    · rw [mem_singleton.mp member]
      exact ⟨rfl, visible, .inl rfl⟩
    · dsimp only at member
      rcases mem_append.mp member with member | member
      · obtain ⟨_, _, rfl⟩ := mem_map.mp member
        exact ⟨rfl, visible, .inr (.inl rfl)⟩
      · split at member
        · cases member
        · rename_i differs
          obtain ⟨_, _, above⟩ := dropWhile_columns _ sound.columns sound.outermost
          rw [mem_singleton.mp member]
          exact ⟨rfl, visible, .inr (.inr ⟨misaligned_token above differs, String.toList_ofList⟩)⟩

def Queues (scanner : Scanner) : Prop :=
  ∀ token ∈ scanner.pending, token.line = scanner.line ∧
    (token.kind = .indent ∨ token.kind = .dedent ∨ token.IsMisaligned)

theorem start_queues (text : List Char) (line : Nat) : (start text line).Queues := by
  intro token member
  cases member

theorem openLine_queues (sound : scanner.Sound) (idle : scanner.pending = []) : scanner.openLine.Queues := by
  intro token member
  rw [openLine_line]
  obtain ⟨line, _, kinds⟩ := openLine_pending sound idle token member
  refine ⟨line, ?_⟩
  rcases kinds with indent | dedent | ⟨misaligned, _⟩
  · exact .inl indent
  · exact .inr (.inl dedent)
  · exact .inr (.inr misaligned)

theorem Steps.queues (taken : Steps scanner token after) (sound : scanner.Sound) (queues : scanner.Queues) :
    after.Queues := by
  have still : after.pending = [] → after.Queues := by
    intro idle token member
    rw [idle] at member
    cases member
  cases taken with
  | queued waiting =>
    intro other member
    exact queues other (by simp [waiting, member])
  | opened idle => exact openLine_queues sound idle
  | lastBreak idle | lastDedent idle | ended idle | comment idle | joined idle | lineBreak idle | blankBreak idle
  | continued idle | unit idle => exact still idle

theorem Steps.token_line {read : Token} (taken : Steps scanner token after) (queues : scanner.Queues)
    (found : token = some read) : read.line = scanner.line := by
  subst found
  cases taken with
  | queued waiting => exact (queues read (by simp [waiting])).1
  | lastBreak | lastDedent | ended | lineBreak | unit => rfl

theorem tokens_laid {origin : Scanner} (follows : origin.Follows scanner) (sound : scanner.Sound)
    (queues : scanner.Queues) (low : scanner.line < 0x10000000000000000) :
    Laid origin scanner.line scanner.rest scanner.tokens := by
  -- along the run: a step passes some text, and a unit stands behind the blanks in it
  induction scanner using run_induction with
  | step scanner token after steps ih =>
    have taken := steps.step_eq
    have whole := steps.passes.whole
    have line := steps.line_eq low whole.symm
    have later := fun more =>
      ih more (follows.step steps) (steps.sound sound) (steps.queues sound queues) (by rw [line]; exact lineAfter_lt _ _)
    have passed : (∀ read ∈ token, read.kind ≠ .endOfInput) → Laid origin scanner.line scanner.rest after.tokens := by
      intro more
      rw [← whole]
      exact .pass _ (line ▸ later more)
    cases token with
    | none =>
      rw [tokens_of_none taken]
      exact passed (by simp)
    | some token =>
      by_cases done : token.kind = .endOfInput
      · rw [tokens_of_end taken done]
        exact .layout (by simp [done, Kind.isVerbatim]) (steps.token_line queues rfl) .nil
      have more : ∀ read ∈ some token, read.kind ≠ .endOfInput := by simpa using done
      rw [tokens_of_some taken done]
      cases steps with
      | queued waiting =>
        obtain ⟨here, kinds⟩ := queues token (by simp [waiting])
        refine .layout ?_ here (passed more)
        rcases kinds with kind | kind | ⟨kind, _⟩ <;> simp [kind, Kind.isVerbatim]
      | lastBreak | lastDedent | ended | lineBreak => exact .layout ⟨rfl, by simp⟩ rfl (passed more)
      | @unit c text idle inside ahead starts =>
        have inner : c ≠ '\n' ∧ c ≠ '#' := by
          constructor <;> rintro rfl <;> cases starts
        have here := Steps.unit idle inside ahead starts
        obtain ⟨front, takes⟩ := lexeme_takes inner.2 text
        have lines : (lexeme c text).lines = front.count '\n' := by
          have count := lexeme_lines inner.1 text
          rw [← takes.whole, count_append] at count
          omega
        have parts := @takeWhile_append_dropWhile _ isIndentChar scanner.rest
        have blanks : (scanner.rest.takeWhile isIndentChar).count '\n' = 0 :=
          count_eq_zero_of_not_mem (not_mem_takeWhile (by decide) _)
        rw [← parts, ahead, ← takes.whole]
        refine .pass _ ?_
        rw [blanks, lineAfter_of_lt (by omega), Nat.add_zero]
        exact .unit (lexeme_wrote takes.whole _) ⟨_, _, follows, here, ahead.trans takes.whole.symm, rfl⟩ rfl
          (lines ▸ later more)

end Scanner

namespace Token

theorem Wrote.lastLine_le {token : Token} {source : List Char} (wrote : token.Wrote source) :
    token.lastLine ≤ token.line + source.count '\n' := by
  unfold lastLine
  split
  · rename_i formatted
    obtain ⟨letters, style, rfl, _⟩ := wrote.formatted formatted
    simp only [count_append]
    omega
  · exact Nat.le_add_right _ _

theorem Laid.numbered {origin : Scanner} {line : Nat} {text : List Char} {tokens : List Token}
    (laid : Laid origin line text tokens) (room : line + text.count '\n' < 0x10000000000000000) :
    (∀ token ∈ tokens, line ≤ token.line ∧ token.lastLine ≤ line + text.count '\n') ∧
      tokens.Pairwise (fun token later => token.lastLine ≤ later.line) := by
  induction laid with
  | nil => simp
  | pass gap _ ih =>
    rw [count_append, ← Nat.add_assoc] at room ⊢
    rw [lineAfter_of_lt (by omega)] at ih
    obtain ⟨bounds, climbs⟩ := ih room
    exact ⟨fun token member => ⟨by have := bounds token member; omega, (bounds token member).2⟩, climbs⟩
  | @layout line text token tokens plain numbered _ ih =>
    obtain ⟨bounds, climbs⟩ := ih room
    have last := lastLine_of_plain plain.2
    refine ⟨forall_mem_cons.mpr ⟨by omega, bounds⟩, pairwise_cons.mpr ⟨fun later member => ?_, climbs⟩⟩
    have := bounds later member
    omega
  | @unit line source text token tokens wrote _ numbered _ ih =>
    rw [count_append, ← Nat.add_assoc] at room ⊢
    rw [lineAfter_of_lt (by omega)] at ih
    obtain ⟨bounds, climbs⟩ := ih room
    have last := wrote.lastLine_le
    refine ⟨forall_mem_cons.mpr ⟨by omega, fun later member => ?_⟩,
      pairwise_cons.mpr ⟨fun later member => ?_, climbs⟩⟩
    · have := bounds later member
      omega
    · have := bounds later member
      omega

theorem ofText_numbered {text : String} {line : Nat} (room : line + text.toList.count '\n' < 0x10000000000000000) :
    (∀ token ∈ ofText text line, line ≤ token.line ∧ token.lastLine ≤ line + text.toList.count '\n') ∧
      (ofText text line).Pairwise (fun token later => token.lastLine ≤ later.line) :=
  (Scanner.tokens_laid .start (Scanner.start_sound text.toList line) (Scanner.start_queues _ _)
    (show line < 0x10000000000000000 by omega)).numbered room

end Token
end SourceAudit
