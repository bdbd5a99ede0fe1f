import SourceAudit.Proofs.Scanner.Seam

open List

namespace SourceAudit

namespace Token

theorem EndsLine.count_pos {text : List Char} (ends : EndsLine text) : 0 < text.count '\n' :=
  count_pos_iff.mpr (mem_of_getLast? ends)

theorem EndsLine.rest_nil (front : List Char) {rest : List Char} (ends : EndsLine (front ++ '\n' :: rest))
    (single : (front ++ '\n' :: rest).count '\n' = 1) : rest = [] := by
  rw [count_append, count_cons_self] at single
  by_contra more
  have some := EndsLine.count_pos (ends.suffix ⟨front ++ ['\n'], by simp⟩ more)
  omega

end Token

namespace Scanner

open Token

variable {scanner after : Scanner} {token : Option Token} {text : List Char}

def AtLastBreak (scanner : Scanner) : Prop :=
  scanner.pending = [] ∧ scanner.depth = 0 ∧ scanner.rest.dropWhile isIndentChar = ['\n']

instance (scanner : Scanner) : Decidable scanner.AtLastBreak :=
  inferInstanceAs (Decidable (scanner.pending = [] ∧ scanner.depth = 0 ∧
    scanner.rest.dropWhile isIndentChar = ['\n']))

/-- Whether the last line break of the text ends a line: no string and no bracket is open at it, and no
    backslash stands before it. -/
def endsOutside (scanner : Scanner) : Bool :=
  if scanner.AtLastBreak then true
  else
    match _taken : scanner.step with
    | (none, after) => after.endsOutside
    | (some token, after) => if token.kind = .endOfInput then false else after.endsOutside
termination_by scanner.work
decreasing_by
  · exact step_none_work _taken
  · exact step_some_work _taken ‹_›

theorem Steps.endsOutside (taken : Steps scanner token after) (outside : scanner.endsOutside = true)
    (inner : ¬ scanner.AtLastBreak) :
    after.endsOutside = true ∧ ∀ read ∈ token, read.kind ≠ .endOfInput := by
  rw [Scanner.endsOutside, if_neg inner] at outside
  split at outside
  · rename_i taken'
    rw [taken.step_eq] at taken'
    cases taken'
    exact ⟨outside, by simp⟩
  · rename_i taken'
    rw [taken.step_eq] at taken'
    cases taken'
    split at outside
    · cases outside
    · rename_i more
      refine ⟨outside, ?_⟩
      rintro _ ⟨⟩
      exact more

theorem Steps.rest_nil (taken : Steps scanner token after) (none : scanner.rest = []) : after.rest = [] := by
  have ahead : scanner.rest.dropWhile isIndentChar = [] := by rw [none, dropWhile_nil]
  cases taken with
  | queued => exact none
  | opened => rw [(openLine_same scanner).1, ahead]
  | lastBreak | lastDedent | ended => rfl
  | comment _ _ here | joined _ _ here | lineBreak _ _ here | blankBreak _ _ here | continued _ _ here
  | unit _ _ here =>
    rw [ahead] at here
    cases here

theorem rest_ne_nil (outside : scanner.endsOutside = true) : scanner.rest ≠ [] := by
  intro none
  induction scanner using run_induction with
  | step scanner token after taken ih =>
    have inner : ¬ scanner.AtLastBreak := by
      intro final
      rw [AtLastBreak, none] at final
      cases final.2.2
    obtain ⟨outside', more⟩ := taken.endsOutside outside inner
    exact ih more outside' (taken.rest_nil none)

theorem exists_words (idle : scanner.pending = []) (opened : scanner.atLineStart = false)
    (columns : scanner.indents = [0])
    (content : scanner.hasContent = true ∨ isBlankLine (scanner.rest.dropWhile isIndentChar) = false)
    (ends : EndsLine scanner.rest) (single : scanner.rest.count '\n' = 1)
    (outside : scanner.endsOutside = true) :
    ∃ words last, (∀ word ∈ words, word.kind.isLayout = false) ∧ last.kind = .newline ∧
      (scanner.hasContent = false → words ≠ []) ∧ ∀ back, (scanner.onto back).tokens =
        words ++ last :: (start back (lineAfter scanner.line 1)).tokens := by
  -- along the run: only comments and units stand before the one line break
  induction scanner using run_induction with
  | step scanner token after taken ih =>
    have inside : ¬ (scanner.atLineStart = true ∧ scanner.depth = 0) := by simp [opened]
    by_cases final : scanner.AtLastBreak
    · obtain ⟨_, flat, ahead⟩ := final
      have full : scanner.hasContent = true := by
        refine content.resolve_right ?_
        rw [ahead]
        decide
      refine ⟨[], ⟨.newline, "\n", scanner.line⟩, by simp, rfl, by simp [full], fun back => ?_⟩
      have broken : Steps (scanner.onto back) (some ⟨.newline, "\n", scanner.line⟩) _ :=
        .lineBreak idle inside (onto_ahead ends ahead back) (.inl flat) full
      rw [broken.tokens (by simp)]
      simp [onto, start, columns, idle]
    obtain ⟨outside', more⟩ := taken.endsOutside outside final
    have goes := rest_ne_nil outside'
    have carries := taken.carries ends fun none => absurd none goes
    have ends' : EndsLine after.rest := carries.ends.resolve_right fun boundary => goes boundary.rest
    have some := EndsLine.count_pos ends'
    have onward := fun idle opened columns content single =>
      ih more idle opened columns content ends' single outside'
    have count := count_dropWhile (p := isIndentChar) (by decide) scanner.rest
    rw [single] at count
    cases taken with
    | queued waiting =>
      rw [idle] at waiting
      cases waiting
    | opened _ fresh =>
      rw [opened] at fresh
      cases fresh
    | lastBreak _ _ ahead | lastDedent _ _ ahead | ended _ _ ahead => exact absurd rfl goes
    | joined _ _ ahead | lineBreak _ _ ahead | blankBreak _ _ ahead | continued _ _ ahead =>
      rw [ahead] at count
      simp only [count_cons_self, count_cons_of_ne, ne_eq, Char.reduceEq,
        not_false_eq_true] at count some
      omega
    | @comment text _ _ ahead =>
      rw [ahead] at count content
      rw [count_cons_of_ne (by decide)] at count
      have full := content.resolve_right (by simp [isBlankLine])
      obtain ⟨words, last, written, newline, _, tokens⟩ :=
        onward idle opened columns (.inl full) ((count_dropWhile (by decide) text).trans count)
      refine ⟨words, last, written, newline, by simp [full], fun back => ?_⟩
      rw [(carries.steps back).tokens more, tokens back]
      rfl
    | @unit c text _ _ ahead starts =>
      obtain ⟨inner, other⟩ := ne_of_starts starts
      have line := ends.dropWhile (p := isIndentChar) (by decide)
      rw [ahead] at count line
      have within := lexeme_within [] inner other (line.tail inner) (.inr goes)
      have lines := lexeme_lines inner text
      have short : (lexeme c text).lines = 0 ∧ (lexeme c text).rest.count '\n' = 1 := by
        dsimp only at some
        omega
      obtain ⟨words, last, written, newline, _, tokens⟩ := onward idle opened columns (.inl rfl) short.2
      have same : lineAfter (lineAfter scanner.line (lexeme c text).lines) 1 = lineAfter scanner.line 1 := by
        rw [lineAfter_lineAfter, short.1]
      refine ⟨⟨(lexeme c text).kind, String.ofList (lexeme c text).text, scanner.line⟩ :: words, last, ?_,
        newline, by simp, fun back => ?_⟩
      · intro word member
        rcases mem_cons.mp member with rfl | member
        · exact (lexeme_written text (visible_ahead ahead)).1
        · exact written word member
      · rw [(carries.steps back).tokens more, tokens back]
        dsimp only
        rw [same]
        rfl

theorem column_of_flush (flush : startsFlush text = true)
    (visible : isBlankLine (text.dropWhile isIndentChar) = false) :
    leadingColumn ['\x0c', '\r'] 0 (text.takeWhile isIndentChar) = 0 := by
  rw [startsFlush] at flush
  split at flush
  case h_5 => simpa using flush
  all_goals
    rename_i ahead
    rw [ahead] at visible
    cases visible

end Scanner

namespace Token

theorem ofText_blank {text : String} (ends : EndsLine text.toList) (single : text.toList.count '\n' = 1)
    (flush : startsFlush text.toList = true)
    (blank : Scanner.isBlankLine (text.toList.dropWhile isIndentChar) = true) (line : Nat) :
    ofText text line = [⟨.endOfInput, "", lineAfter line 1⟩] := by
  have ends := ends.dropWhile (p := isIndentChar) (by decide)
  have single := (count_dropWhile (p := isIndentChar) (by decide) text.toList).trans single
  change (Scanner.between text.toList line [0] true).tokens = _
  rw [startsFlush] at flush
  split at flush
  · rename_i none
    exact absurd none ends.ne_nil
  · rename_i rest ahead
    rw [ahead] at ends single
    rw [Scanner.between_break ahead, EndsLine.rest_nil [] ends single]
    exact Scanner.between_end rfl _ true (pairwise_singleton _ _) rfl
  · rename_i rest ahead
    rw [ahead] at ends single
    have goes := (ends.tail (by decide)).dropWhile (p := (· ≠ '\n')) (by decide)
    have count := (count_dropWhile (p := (· ≠ '\n')) (by decide) rest).trans
      ((count_cons_of_ne (by decide)).symm.trans single)
    obtain ⟨more, line_eq⟩ : ∃ more, rest.dropWhile (· ≠ '\n') = '\n' :: more := by
      have head := List.head?_dropWhile_not (· ≠ '\n') rest
      cases line : rest.dropWhile (· ≠ '\n') with
      | nil => exact absurd line goes.ne_nil
      | cons c more =>
        rw [line] at head
        exact ⟨more, by simpa using head⟩
    rw [line_eq] at goes count
    have none := EndsLine.rest_nil [] goes count
    rw [Scanner.between_comment ahead, line_eq, Scanner.between_break rfl, none]
    exact Scanner.between_end rfl _ true (pairwise_singleton _ _) rfl
  · cases flush
  · rename_i none lineBreak comment joint
    have visible : Scanner.isBlankLine (text.toList.dropWhile isIndentChar) = false := by
      unfold Scanner.isBlankLine
      split <;> simp_all
    rw [visible] at blank
    cases blank

theorem ofText_line {text : String} (ends : EndsLine text.toList) (single : text.toList.count '\n' = 1)
    (flush : startsFlush text.toList = true) (outside : (Scanner.start text.toList 1).endsOutside = true)
    (visible : Scanner.isBlankLine (text.toList.dropWhile isIndentChar) = false) :
    ∃ first others last, (∀ word ∈ first :: others, word.kind.isLayout = false) ∧ last.kind = .newline ∧
      ∀ back, ofText (text ++ back) 1 = first :: others ++ last :: ofText back 2 := by
  have inner : ¬ (Scanner.start text.toList 1).AtLastBreak := by
    rintro ⟨_, _, ahead⟩
    have ahead : text.toList.dropWhile isIndentChar = ['\n'] := ahead
    rw [ahead] at visible
    cases visible
  have taken : (Scanner.start text.toList 1).Steps none _ := .opened rfl rfl rfl
  have outside := (taken.endsOutside outside inner).1
  have carries := taken.carries ends fun none => absurd none (Scanner.rest_ne_nil outside)
  have opened : (Scanner.start text.toList 1).openLine =
      Scanner.between (text.toList.dropWhile isIndentChar) 1 [0] false :=
    Scanner.openLine_flush visible (Scanner.column_of_flush flush visible) 1 (pairwise_singleton _ 0) rfl
  rw [opened] at carries outside
  have content : Scanner.isBlankLine
      ((text.toList.dropWhile isIndentChar).dropWhile isIndentChar) = false := by
    rw [dropWhile_idempotent]
    exact visible
  obtain ⟨words, last, written, newline, some, tokens⟩ := @Scanner.exists_words
    (Scanner.between (text.toList.dropWhile isIndentChar) 1 [0] false) rfl rfl rfl (.inr content)
    (ends.dropWhile (by decide)) ((count_dropWhile (by decide) _).trans single) outside
  obtain ⟨first, others, rfl⟩ := exists_cons_of_ne_nil (some rfl)
  refine ⟨first, others, last, written, newline, fun back => ?_⟩
  change (Scanner.start (text ++ back).toList 1).tokens = _
  rw [String.toList_append]
  change ((Scanner.start text.toList 1).onto back.toList).tokens = _
  rw [(carries.steps back.toList).tokens (by simp), tokens]
  rfl

end Token
end SourceAudit
