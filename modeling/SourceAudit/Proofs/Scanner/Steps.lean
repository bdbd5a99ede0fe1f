import SourceAudit.Token.Scanner

namespace SourceAudit.Scanner

open Token

/-- What one step of reading can do: the token it hands over, if any, and the state after it. -/
inductive Steps (scanner : Scanner) : Option Token → Scanner → Prop where
  | queued {token : Token} {more : List Token} (waiting : scanner.pending = token :: more) :
      Steps scanner (some token) { scanner with pending := more }
  | opened (idle : scanner.pending = []) (fresh : scanner.atLineStart = true)
      (flat : scanner.depth = 0) : Steps scanner none scanner.openLine
  | lastBreak (idle : scanner.pending = [])
      (inside : ¬ (scanner.atLineStart = true ∧ scanner.depth = 0))
      (ahead : scanner.rest.dropWhile isIndentChar = []) (content : scanner.hasContent = true) :
      Steps scanner (some ⟨.newline, "\n", scanner.line⟩)
        { scanner with rest := [], hasContent := false }
  | lastDedent {column outer : Nat} {more : List Nat} (idle : scanner.pending = [])
      (inside : ¬ (scanner.atLineStart = true ∧ scanner.depth = 0))
      (ahead : scanner.rest.dropWhile isIndentChar = []) (blank : scanner.hasContent = false)
      (nested : scanner.indents = column :: outer :: more) :
      Steps scanner (some ⟨.dedent, "", scanner.line⟩)
        { scanner with rest := [], indents := outer :: more }
  | ended (idle : scanner.pending = [])
      (inside : ¬ (scanner.atLineStart = true ∧ scanner.depth = 0))
      (ahead : scanner.rest.dropWhile isIndentChar = []) (blank : scanner.hasContent = false)
      (outermost : scanner.indents.length ≤ 1) :
      Steps scanner (some ⟨.endOfInput, "", scanner.line⟩) { scanner with rest := [] }
  | comment {text : List Char} (idle : scanner.pending = [])
      (inside : ¬ (scanner.atLineStart = true ∧ scanner.depth = 0))
      (ahead : scanner.rest.dropWhile isIndentChar = '#' :: text) :
      Steps scanner none { scanner with rest := text.dropWhile (· ≠ '\n') }
  | joined {text : List Char} (idle : scanner.pending = [])
      (inside : ¬ (scanner.atLineStart = true ∧ scanner.depth = 0))
      (ahead : scanner.rest.dropWhile isIndentChar = '\n' :: text) (nested : 0 < scanner.depth)
      (continues : scanner.startsStatement text = false) :
      Steps scanner none { scanner with rest := text, line := lineAfter scanner.line 1 }
  | lineBreak {text : List Char} (idle : scanner.pending = [])
      (inside : ¬ (scanner.atLineStart = true ∧ scanner.depth = 0))
      (ahead : scanner.rest.dropWhile isIndentChar = '\n' :: text)
      (ends : scanner.depth = 0 ∨ scanner.startsStatement text = true)
      (content : scanner.hasContent = true) :
      Steps scanner (some ⟨.newline, "\n", scanner.line⟩)
        { scanner with
          rest := text
          line := lineAfter scanner.line 1
          depth := 0
          atLineStart := true
          hasContent := false }
  | blankBreak {text : List Char} (idle : scanner.pending = [])
      (inside : ¬ (scanner.atLineStart = true ∧ scanner.depth = 0))
      (ahead : scanner.rest.dropWhile isIndentChar = '\n' :: text)
      (ends : scanner.depth = 0 ∨ scanner.startsStatement text = true)
      (blank : scanner.hasContent = false) :
      Steps scanner none
        { scanner with
          rest := text
          line := lineAfter scanner.line 1
          depth := 0
          atLineStart := true
          hasContent := false }
  | continued {text : List Char} (idle : scanner.pending = [])
      (inside : ¬ (scanner.atLineStart = true ∧ scanner.depth = 0))
      (ahead : scanner.rest.dropWhile isIndentChar = '\\' :: '\n' :: text) :
      Steps scanner none { scanner with rest := text, line := lineAfter scanner.line 1 }
  | unit {c : Char} {text : List Char} (idle : scanner.pending = [])
      (inside : ¬ (scanner.atLineStart = true ∧ scanner.depth = 0))
      (ahead : scanner.rest.dropWhile isIndentChar = c :: text) (starts : isBlankLine (c :: text) = false) :
      Steps scanner
        (some ⟨(lexeme c text).kind, String.ofList (lexeme c text).text, scanner.line⟩)
        { scanner with
          rest := (lexeme c text).rest
          line := lineAfter scanner.line (lexeme c text).lines
          hasContent := true
          depth := depthAfter (lexeme c text) scanner.depth }

theorem isBlankLine_eq_false {c : Char} {text : List Char} (hash : c ≠ '#') (lineBreak : c ≠ '\n')
    (joint : ∀ more, c = '\\' → text ≠ '\n' :: more) : isBlankLine (c :: text) = false := by
  unfold isBlankLine
  split <;> simp_all

theorem step_steps (scanner : Scanner) : Steps scanner scanner.step.1 scanner.step.2 := by
  unfold step
  split
  · rename_i token more waiting
    exact .queued waiting
  · rename_i idle
    split
    · rename_i fresh
      exact .opened idle fresh.1 fresh.2
    · rename_i inside
      split
      · rename_i ahead
        unfold finish
        dsimp only
        split
        · rename_i content
          exact .lastBreak idle inside ahead content
        · rename_i blank
          have blank : scanner.hasContent = false := by simpa using blank
          split
          · rename_i column outer more nested
            exact .lastDedent idle inside ahead blank nested
          · rename_i outermost
            refine .ended idle inside ahead blank ?_
            rcases columns : scanner.indents with _ | ⟨column, _ | ⟨outer, more⟩⟩
            · simp
            · simp
            · exact absurd columns (outermost column outer more)
      · rename_i text ahead
        exact .comment idle inside ahead
      · rename_i text ahead
        dsimp only
        split
        · rename_i joins
          simp only [Bool.and_eq_true, decide_eq_true_eq, Bool.not_eq_true'] at joins
          exact .joined idle inside ahead joins.1 joins.2
        · rename_i ends
          have ends : scanner.depth = 0 ∨ scanner.startsStatement text = true := by
            simp only [Bool.and_eq_true, decide_eq_true_eq, Bool.not_eq_true', not_and,
              Bool.not_eq_false] at ends
            rcases Nat.eq_zero_or_pos scanner.depth with flat | nested
            · exact .inl flat
            · exact .inr (ends nested)
          split
          · rename_i content
            exact .lineBreak idle inside ahead ends content
          · rename_i blank
            exact .blankBreak idle inside ahead ends (by simpa using blank)
      · rename_i text ahead
        exact .continued idle inside ahead
      · rename_i c text hash lineBreak joint ahead
        refine .unit idle inside ahead (isBlankLine_eq_false hash lineBreak ?_)
        rintro more rfl rfl
        exact joint more rfl rfl

theorem Steps.step_eq {scanner after : Scanner} {token : Option Token}
    (steps : Steps scanner token after) : scanner.step = (token, after) := by
  cases steps with
  | queued waiting => rw [step, waiting]
  | opened idle fresh flat => rw [step, idle, if_pos ⟨fresh, flat⟩]
  | lastBreak idle inside ahead content =>
    rw [step, idle, if_neg inside, ahead]
    simp [finish, content]
  | lastDedent idle inside ahead blank nested =>
    rw [step, idle, if_neg inside, ahead]
    simp [finish, blank, nested]
  | ended idle inside ahead blank outermost =>
    rw [step, idle, if_neg inside, ahead]
    rcases columns : scanner.indents with _ | ⟨column, _ | ⟨outer, more⟩⟩
    · simp [finish, blank]
    · simp [finish, blank]
    · simp [columns] at outermost
  | comment idle inside ahead =>
    rw [step, idle, if_neg inside, ahead]
    rfl
  | joined idle inside ahead nested continues =>
    rw [step, idle, if_neg inside, ahead]
    simp [nested, continues]
  | lineBreak idle inside ahead ends content =>
    rw [step, idle, if_neg inside, ahead]
    rcases ends with flat | starts
    · simp [flat, content]
    · simp [starts, content]
  | blankBreak idle inside ahead ends blank =>
    rw [step, idle, if_neg inside, ahead]
    rcases ends with flat | starts
    · simp [flat, blank]
    · simp [starts, blank]
  | continued idle inside ahead =>
    rw [step, idle, if_neg inside, ahead]
    rfl
  | @unit c text idle inside ahead starts =>
    rw [step, idle, if_neg inside, ahead]
    dsimp only
    split
    · rename_i none
      cases none
    · rename_i hash
      cases hash
      cases starts
    · rename_i lineBreak
      cases lineBreak
      cases starts
    · rename_i joint
      cases joint
      cases starts
    · rename_i same
      cases same
      rfl

theorem Steps.smaller {scanner after : Scanner} {token : Option Token} (steps : Steps scanner token after)
    (more : ∀ read ∈ token, read.kind ≠ .endOfInput) : after.work < scanner.work := by
  have smaller := step_work scanner
  rw [steps.step_eq] at smaller
  exact smaller.resolve_right fun ⟨read, found, final⟩ => more read found final

theorem step_some_work {scanner after : Scanner} {token : Token} (taken : scanner.step = (some token, after))
    (more : token.kind ≠ .endOfInput) : after.work < scanner.work := by
  have steps := step_steps scanner
  rw [taken] at steps
  exact steps.smaller (by simpa using more)

/-- A run of the scanner: what is to be shown of a state may be assumed of the state after its next step, unless
    this step hands over the end of input. -/
@[elab_as_elim]
theorem run_induction {motive : Scanner → Prop}
    (step : ∀ scanner token after, Steps scanner token after →
      ((∀ read ∈ token, read.kind ≠ .endOfInput) → motive after) → motive scanner)
    (scanner : Scanner) : motive scanner := by
  induction size : scanner.work using Nat.strongRecOn generalizing scanner with
  | ind size ih =>
    subst size
    have steps := step_steps scanner
    exact step scanner _ _ steps fun more => ih _ (steps.smaller more) _ rfl

theorem next_of_none {scanner after : Scanner} (taken : scanner.step = (none, after)) :
    scanner.next = after.next := by
  rw [next]
  split
  · rename_i taken'
    rw [taken] at taken'
    cases taken'
  · rename_i taken'
    rw [taken] at taken'
    cases taken'
    rfl

theorem next_of_some {scanner after : Scanner} {token : Token}
    (taken : scanner.step = (some token, after)) : scanner.next = (token, after) := by
  rw [next]
  split
  · rename_i taken'
    rw [taken] at taken'
    cases taken'
    rfl
  · rename_i taken'
    rw [taken] at taken'
    cases taken'

theorem tokens_of_none {scanner after : Scanner} (taken : scanner.step = (none, after)) :
    scanner.tokens = after.tokens := by
  rw [tokens, tokens.eq_def after, next_of_none taken]

theorem tokens_of_some {scanner after : Scanner} {token : Token}
    (taken : scanner.step = (some token, after)) (more : token.kind ≠ .endOfInput) :
    scanner.tokens = token :: after.tokens := by
  rw [tokens, next_of_some taken, if_neg more]

theorem tokens_of_end {scanner after : Scanner} {token : Token}
    (taken : scanner.step = (some token, after)) (done : token.kind = .endOfInput) :
    scanner.tokens = [token] := by
  rw [tokens, next_of_some taken, if_pos done]

theorem exists_endOfInput (scanner : Scanner) : ∃ token ∈ scanner.tokens, token.kind = .endOfInput := by
  fun_induction tokens scanner with
  | case1 scanner done => exact ⟨_, List.mem_singleton_self _, done⟩
  | case2 scanner _ ih =>
    obtain ⟨token, member, done⟩ := ih
    exact ⟨token, List.mem_cons_of_mem _ member, done⟩

end SourceAudit.Scanner
