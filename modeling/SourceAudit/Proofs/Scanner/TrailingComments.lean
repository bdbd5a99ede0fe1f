import SourceAudit.Proofs.Scanner.Seam

open List

namespace SourceAudit

namespace Token

/-- The end of a line: a line break, with or without a carriage return, or the end of the text. -/
def LineEnd (tail : List Char) : Prop := tail = [] ∨ ['\n'] <+: tail ∨ ['\r', '\n'] <+: tail

structure Note (note : List Char) : Prop where
  blank : ∃ c more, note = c :: more ∧ isIndentChar c = true
  hash : ∃ more, note.dropWhile isIndentChar = '#' :: more
  inner : '\n' ∉ note

variable {tail note : List Char}

namespace LineEnd

theorem gap (ends : LineEnd tail) : Gap tail := by
  intro c found
  rcases ends with rfl | ⟨more, rfl⟩ | ⟨more, rfl⟩
  · cases found
  · cases found
    decide
  · cases found
    decide

theorem dropWhile_indent (ends : LineEnd tail) : tail.dropWhile isIndentChar = tail.dropWhile (· ≠ '\n') := by
  rcases ends with rfl | ⟨more, rfl⟩ | ⟨more, rfl⟩
  · rfl
  · simp [isIndentChar]
  · simp [isIndentChar]

theorem isBlankLine (ends : LineEnd tail) : Scanner.isBlankLine (tail.dropWhile isIndentChar) = true := by
  rcases ends with rfl | ⟨more, rfl⟩ | ⟨more, rfl⟩
  · rfl
  · simp [isIndentChar, Scanner.isBlankLine]
  · simp [isIndentChar, Scanner.isBlankLine]

theorem wordless (ends : LineEnd tail) :
    (tail.dropWhile fun c => c == ' ' || c == '\t').takeWhile Text.isIdentifierChar = [] := by
  rcases ends with rfl | ⟨more, rfl⟩ | ⟨more, rfl⟩
  · rfl
  · have inner : Text.isIdentifierChar '\n' = false := by decide
    simp [inner]
  · have inner : Text.isIdentifierChar '\r' = false := by decide
    simp [inner]

end LineEnd

theorem wordless_of_ahead {text more : List Char} {d : Char} (ahead : text.dropWhile isIndentChar = d :: more)
    (bare : Text.isIdentifierChar d = false) :
    (text.dropWhile fun c => c == ' ' || c == '\t').takeWhile Text.isIdentifierChar = [] := by
  induction text with
  | nil => cases ahead
  | cons c text ih =>
    by_cases space : (c == ' ' || c == '\t') = true
    · have indent : isIndentChar c = true := by
        simp only [isIndentChar, space, Bool.true_or]
      rw [dropWhile_cons_of_pos indent] at ahead
      rw [dropWhile_cons_of_pos (by exact space)]
      exact ih ahead
    · have plain : Text.isIdentifierChar c = false := by
        by_cases indent : isIndentChar c = true
        · simp only [isIndentChar, Bool.or_eq_true, beq_iff_eq] at indent
          rcases indent with ((rfl | rfl) | rfl) | rfl <;> decide
        · rw [dropWhile_cons_of_neg indent] at ahead
          cases ahead
          exact bare
      rw [dropWhile_cons_of_neg (by exact space)]
      simp [plain]

namespace Note

theorem gap (noted : Note note) (tail : List Char) : Gap (note ++ tail) := by
  obtain ⟨d, more, rfl, blank⟩ := noted.blank
  intro c found
  cases found
  simp only [isIndentChar, Bool.or_eq_true, beq_iff_eq] at blank
  simp only [gapChars, mem_cons]
  tauto

theorem head_ne (noted : Note note) (tail : List Char) : (note ++ tail).head? ≠ some '\n' := by
  obtain ⟨d, more, rfl, blank⟩ := noted.blank
  intro found
  cases found
  cases blank

theorem dropWhile_line (noted : Note note) (tail : List Char) :
    (note ++ tail).dropWhile (· ≠ '\n') = tail.dropWhile (· ≠ '\n') := by
  apply dropWhile_append_of_pos
  intro c member
  have other : c ≠ '\n' := fun same => noted.inner (same ▸ member)
  simpa using other

theorem ahead (noted : Note note) (tail : List Char) :
    ∃ more, (note ++ tail).dropWhile isIndentChar = '#' :: more ∧
      more.dropWhile (· ≠ '\n') = tail.dropWhile (· ≠ '\n') := by
  obtain ⟨more, hash⟩ := noted.hash
  refine ⟨more ++ tail, ?_, ?_⟩
  · rw [List.dropWhile_append, hash]
    rfl
  · apply dropWhile_append_of_pos
    intro c member
    have within : c ∈ note := by
      apply (dropWhile_sublist isIndentChar).subset
      rw [hash]
      exact mem_cons_of_mem _ member
    have other : c ≠ '\n' := fun same => noted.inner (same ▸ within)
    simpa using other

end Note

end Token

namespace Scanner

open Token

variable {scanner base after : Scanner} {token : Option Token} {tail note : List Char}

/-- Whether a place is outside of string literals and not between a backslash and its line break. -/
def Free (scanner : Scanner) (place : Nat) : Prop :=
  ∀ stretch ∈ stretchAt place scanner.stretches,
    stretch.role ≠ .literal ∧ stretch.role ≠ .unclosed ∧ stretch.role ≠ .joint

theorem exists_stretches (scanner : Scanner) : ∃ more, scanner.stretches = scanner.passed ++ more := by
  rw [stretches]
  split
  · exact ⟨_, rfl⟩
  · exact ⟨[], (append_nil _).symm⟩

theorem stretchAt_zero (stretches : List Stretch) : stretchAt 0 stretches = none := by
  cases stretches <;> simp [stretchAt]

theorem stretchAt_step {place left : Nat} {stretch : Stretch}
    (split : (joined scanner.passed).length + left = place) (smaller : scanner.step.2.work < scanner.work)
    (found : stretchAt left scanner.step.2.stretches = some stretch) :
    stretchAt place scanner.stretches = some stretch := by
  subst split
  rcases Nat.eq_zero_or_pos left with rfl | inside
  · rw [stretchAt_zero] at found
    cases found
  · rw [stretches, if_pos smaller, stretchAt_append _ _ inside]
    exact found

theorem Free.next {place left : Nat} (free : scanner.Free place)
    (split : (joined scanner.passed).length + left = place) (smaller : scanner.step.2.work < scanner.work) :
    scanner.step.2.Free left :=
  fun stretch found => free stretch (stretchAt_step split smaller found)

theorem stretchAt_second {blanks stretch : Stretch} {place : Nat} (passed : scanner.passed = [blanks, stretch])
    (low : 0 < place)
    (high : place < stretch.text.length ∨ (place = stretch.text.length ∧ stretch.role = .unclosed)) :
    stretchAt (blanks.text.length + place) scanner.stretches = some stretch := by
  obtain ⟨more, parts⟩ := exists_stretches scanner
  rw [parts, passed]
  have skip := stretchAt_append [blanks] (stretch :: more) low
  simp only [joined, flatMap_singleton, singleton_append] at skip
  rw [cons_append, singleton_append, skip, stretchAt, if_neg (by omega), if_pos high]

theorem stretchAt_joint {more : List Char} (idle : scanner.pending = [])
    (inside : ¬ (scanner.atLineStart = true ∧ scanner.depth = 0))
    (ahead : scanner.rest.dropWhile isIndentChar = '\\' :: '\n' :: more) :
    stretchAt ((scanner.rest.takeWhile isIndentChar).length + 1) scanner.stretches = some ⟨.joint, ['\\', '\n']⟩ := by
  have passed : scanner.passed =
      [⟨.blank, scanner.rest.takeWhile isIndentChar⟩, ⟨.joint, ['\\', '\n']⟩] := by
    unfold Scanner.passed
    rw [if_neg (by simp [idle]), if_neg inside, ahead]
    rfl
  exact stretchAt_second passed (by decide) (.inl (by decide))

theorem stretchAt_open {c : Char} {text : List Char} (idle : scanner.pending = [])
    (inside : ¬ (scanner.atLineStart = true ∧ scanner.depth = 0))
    (ahead : scanner.rest.dropWhile isIndentChar = c :: (text ++ tail))
    (starts : isBlankLine (c :: (text ++ tail)) = false) (goes : (lexeme c text).Open) :
    ∃ stretch, stretchAt ((scanner.rest.takeWhile isIndentChar).length + (c :: text).length) scanner.stretches =
      some stretch ∧ (stretch.role = .literal ∨ stretch.role = .unclosed) := by
  obtain ⟨front, takes, passed⟩ := passed_unit idle inside ahead starts
  have parts := congrArg List.length takes.whole
  have low : 0 < (c :: text).length := Nat.succ_pos _
  simp only [length_append, length_cons] at parts low ⊢
  rcases lexeme_past (ne_of_starts starts).2 goes tail with ⟨role, short⟩ | ⟨role, short⟩
  · have inner : text.length + 1 < front.length := by omega
    exact ⟨_, stretchAt_second passed low (.inl inner), .inl role⟩
  · have high : text.length + 1 < front.length ∨
        (text.length + 1 = front.length ∧ (lexeme c (text ++ tail)).role = .unclosed) := by
      rcases Nat.lt_or_ge (text.length + 1) front.length with inner | last
      · exact .inl inner
      · exact .inr ⟨by omega, role⟩
    exact ⟨_, stretchAt_second passed low high, .inr role⟩

theorem length_onto (visible : base.rest.dropWhile isIndentChar ≠ []) (tail : List Char) :
    ((base.onto tail).rest.takeWhile isIndentChar).length + (base.rest.dropWhile isIndentChar).length =
      base.rest.length := by
  change ((base.rest ++ tail).takeWhile isIndentChar).length + _ = _
  rw [takeWhile_visible visible, ← length_append, takeWhile_append_dropWhile]

theorem tokens_congr {other : Scanner} (same : scanner.step = other.step) : scanner.tokens = other.tokens := by
  rcases taken : other.step with ⟨token, after⟩
  rw [taken] at same
  cases token with
  | none => rw [tokens_of_none taken, tokens_of_none same]
  | some token =>
    by_cases done : token.kind = .endOfInput
    · rw [tokens_of_end taken done, tokens_of_end same done]
    · rw [tokens_of_some taken done, tokens_of_some same done]

theorem step_ahead (idle : scanner.pending = []) (inside : ¬ (scanner.atLineStart = true ∧ scanner.depth = 0)) :
    scanner.step = { scanner with rest := scanner.rest.dropWhile isIndentChar }.step := by
  unfold step
  dsimp only
  rw [idle, if_neg inside, if_neg inside, dropWhile_idempotent]
  rfl

theorem tokens_comment {more : List Char} (idle : scanner.pending = [])
    (inside : ¬ (scanner.atLineStart = true ∧ scanner.depth = 0))
    (ahead : scanner.rest.dropWhile isIndentChar = '#' :: more) :
    scanner.tokens = { scanner with rest := more.dropWhile (· ≠ '\n') }.tokens :=
  tokens_of_none (Steps.comment idle inside ahead).step_eq

theorem tokens_note_blank (noted : Note note) (ends : LineEnd tail) (idle : base.pending = [])
    (blank : base.rest.dropWhile isIndentChar = []) :
    (base.onto (note ++ tail)).tokens = (base.onto tail).tokens := by
  obtain ⟨more, hash, line⟩ := noted.ahead tail
  have all : ∀ c ∈ base.rest, isIndentChar c = true := dropWhile_eq_nil_iff.mp blank
  have ahead : ∀ text, (base.rest ++ text).dropWhile isIndentChar = text.dropWhile isIndentChar :=
    fun text => dropWhile_append_of_pos all
  by_cases fresh : base.atLineStart = true ∧ base.depth = 0
  · have opened : ∀ text, isBlankLine (text.dropWhile isIndentChar) = true → (base.onto text).tokens =
        { base with rest := text.dropWhile isIndentChar, atLineStart := false }.tokens := by
      intro text bare
      have taken : Steps (base.onto text) none _ := .opened idle fresh.1 fresh.2
      rw [tokens_of_none taken.step_eq]
      unfold openLine onto
      dsimp only
      rw [ahead, if_pos bare]
    rw [opened tail ends.isBlankLine, opened (note ++ tail) (by rw [hash]; rfl), ends.dropWhile_indent, ← line,
      hash]
    exact tokens_comment idle (by simp) (by simp [isIndentChar])
  · have here : (base.onto (note ++ tail)).rest.dropWhile isIndentChar = '#' :: more := (ahead _).trans hash
    have there : (base.onto tail).rest.dropWhile isIndentChar = more.dropWhile (· ≠ '\n') := by
      rw [line, ← ends.dropWhile_indent]
      exact ahead tail
    have waits : ∀ text, (base.onto text).pending = [] := fun _ => idle
    have inside : ∀ text, ¬ ((base.onto text).atLineStart = true ∧ (base.onto text).depth = 0) := fun _ => fresh
    rw [tokens_comment (waits _) (inside _) here, tokens_congr (step_ahead (waits tail) (inside tail)), there]
    rfl

theorem startsStatement_before (gap : Gap tail)
    (bare : (tail.dropWhile fun c => c == ' ' || c == '\t').takeWhile Text.isIdentifierChar = []) (text : List Char) :
    scanner.startsStatement (text ++ tail) = scanner.startsStatement text := by
  have nameless : bracketEnders.contains (String.ofList []) = false := by decide
  have inner := isIdentifierChar_of_gapChars
  unfold startsStatement
  by_cases blank : (text.dropWhile fun c => c == ' ' || c == '\t') = []
  · rw [List.dropWhile_append, blank, if_pos (by rfl), bare, takeWhile_nil, nameless, Bool.and_false,
      Bool.and_false]
  · rw [leadingColumn_before blank, List.dropWhile_append, if_neg (by simpa using blank),
      gap.takeWhile_append inner]

theorem openLine_blank (bare : isBlankLine (scanner.rest.dropWhile isIndentChar) = true) :
    scanner.openLine = { scanner with rest := scanner.rest.dropWhile isIndentChar, atLineStart := false } := by
  unfold openLine
  dsimp only
  rw [if_pos bare]

theorem Free.apart (free : (base.onto tail).Free base.rest.length) (idle : base.pending = [])
    (fresh : base.atLineStart = true) (flat : base.depth = 0)
    (last : base.rest.dropWhile isIndentChar = ['\\']) : tail.head? ≠ some '\n' := by
  intro found
  obtain ⟨more, rfl⟩ : ∃ more, tail = '\n' :: more := by
    cases tail with
    | nil => cases found
    | cons c more =>
      cases found
      exact ⟨more, rfl⟩
  have visible : base.rest.dropWhile isIndentChar ≠ [] := by simp [last]
  have ahead : (base.onto ('\n' :: more)).rest.dropWhile isIndentChar = '\\' :: '\n' :: more := by
    change (base.rest ++ '\n' :: more).dropWhile isIndentChar = _
    rw [dropWhile_visible visible, last]
    rfl
  have taken : Steps (base.onto ('\n' :: more)) none _ := .opened idle fresh flat
  have bare : isBlankLine ((base.onto ('\n' :: more)).rest.dropWhile isIndentChar) = true := by
    rw [ahead, isBlankLine]
  have opened := openLine_blank bare
  have passed : (base.onto ('\n' :: more)).passed = [⟨.blank, base.rest.takeWhile isIndentChar⟩] := by
    unfold Scanner.passed
    rw [if_neg (by simp [onto, idle]), if_pos ⟨fresh, flat⟩]
    unfold onto
    dsimp only
    rw [takeWhile_visible visible]
  have place : (joined (base.onto ('\n' :: more)).passed).length + 1 = base.rest.length := by
    have parts := congrArg List.length (takeWhile_append_dropWhile (p := isIndentChar) (l := base.rest))
    rw [length_append, last] at parts
    rw [passed]
    simpa [joined] using parts
  have smaller := step_none_work taken.step_eq
  have later := free.next place (by rw [taken.step_eq]; exact smaller)
  rw [taken.step_eq, opened, ahead] at later
  have joint := @stretchAt_joint
    { base.onto ('\n' :: more) with rest := '\\' :: '\n' :: more, atLineStart := false } more idle (by simp) rfl
  exact (later _ joint).2.2 rfl

/-- A step that does the same when a comment is written where the text ends with `tail`: what is left then
    is the same text with the comment, or the comment is behind. -/
inductive Beside (note tail : List Char) (base : Scanner) (token : Option Token) : Scanner → Prop where
  | before (next : Scanner) (steps : Steps (base.onto (note ++ tail)) token (next.onto (note ++ tail))) :
      Beside note tail base token (next.onto tail)
  | behind {after : Scanner} (steps : Steps (base.onto (note ++ tail)) token after) :
      Beside note tail base token after

theorem cons_of_append {visible : List Char} (some : visible ≠ []) {c : Char} {text : List Char}
    (whole : visible ++ tail = c :: text) : ∃ more, visible = c :: more ∧ text = more ++ tail := by
  cases visible with
  | nil => exact absurd rfl some
  | cons d more =>
    cases whole
    exact ⟨more, rfl, rfl⟩

theorem exists_ahead {c : Char} {text : List Char} (visible : base.rest.dropWhile isIndentChar ≠ [])
    (here : (base.onto tail).rest.dropWhile isIndentChar = c :: text) :
    ∃ more, base.rest.dropWhile isIndentChar = c :: more ∧ text = more ++ tail ∧
      ∀ other, (base.onto other).rest.dropWhile isIndentChar = c :: (more ++ other) := by
  have ahead : ∀ other, (base.onto other).rest.dropWhile isIndentChar = base.rest.dropWhile isIndentChar ++ other :=
    dropWhile_visible visible
  rw [ahead] at here
  obtain ⟨more, first, rest⟩ := cons_of_append visible here
  refine ⟨more, first, rest, fun other => ?_⟩
  rw [ahead, first, cons_append]

section Beside

variable (noted : Note note) (ends : LineEnd tail) (free : (base.onto tail).Free base.rest.length)

include noted ends in
theorem startsStatement_beside (text : List Char) :
    base.startsStatement (text ++ (note ++ tail)) = base.startsStatement (text ++ tail) := by
  obtain ⟨more, hash, _⟩ := noted.ahead tail
  rw [startsStatement_before (noted.gap tail) (wordless_of_ahead hash (by decide)),
    startsStatement_before ends.gap ends.wordless]

include noted in
theorem isBlankLine_beside {c : Char} {more : List Char} (starts : isBlankLine (c :: (more ++ tail)) = false) :
    isBlankLine (c :: (more ++ (note ++ tail))) = false := by
  have apart : c :: more = ['\\'] → tail.head? ≠ some '\n' := by
    intro same found
    cases same
    cases tail with
    | nil => cases found
    | cons d tail =>
      cases found
      cases starts
  rw [← cons_append, isBlankLine_before (by simp) fun _ => noted.head_ne tail, ← isBlankLine_before (by simp) apart]
  exact starts

include free in
theorem Free.closed {c : Char} {more : List Char} (idle : (base.onto tail).pending = [])
    (inside : ¬ ((base.onto tail).atLineStart = true ∧ (base.onto tail).depth = 0))
    (first : base.rest.dropWhile isIndentChar = c :: more)
    (here : (base.onto tail).rest.dropWhile isIndentChar = c :: (more ++ tail))
    (starts : isBlankLine (c :: (more ++ tail)) = false) : ¬ (lexeme c more).Open := by
  intro goes
  have place := length_onto (first ▸ cons_ne_nil _ _) tail
  rw [first] at place
  obtain ⟨stretch, found, role⟩ := stretchAt_open idle inside here starts goes
  rw [place] at found
  obtain ⟨inner, unclosed, _⟩ := free stretch found
  exact role.elim inner unclosed

include free in
theorem Free.unjoined {more text : List Char} (idle : (base.onto tail).pending = [])
    (inside : ¬ ((base.onto tail).atLineStart = true ∧ (base.onto tail).depth = 0))
    (first : base.rest.dropWhile isIndentChar = '\\' :: more)
    (here : (base.onto tail).rest.dropWhile isIndentChar = '\\' :: '\n' :: text) : more ≠ [] := by
  rintro rfl
  have place := length_onto (first ▸ cons_ne_nil _ _) tail
  rw [first] at place
  rw [← place] at free
  exact (free _ (stretchAt_joint idle inside here)).2.2 rfl

include noted ends free in
theorem Steps.beside (taken : Steps (base.onto tail) token after)
    (visible : base.pending = [] → base.rest.dropWhile isIndentChar ≠ []) : Beside note tail base token after := by
  cases taken with
  | @queued read more waiting => exact .before { base with pending := more } (.queued waiting)
  | opened idle fresh flat =>
    have apart := free.apart idle fresh flat
    rw [openLine_before (visible idle) apart]
    refine .before _ ?_
    rw [← openLine_before (visible idle) fun _ => noted.head_ne tail]
    exact .opened idle fresh flat
  | lastBreak idle inside bare | lastDedent idle inside bare | ended idle inside bare =>
    have ahead : (base.onto tail).rest.dropWhile isIndentChar = _ ++ tail := dropWhile_visible (visible idle) tail
    rw [ahead] at bare
    exact absurd (append_eq_nil_iff.mp bare).1 (visible idle)
  | comment idle inside here =>
    obtain ⟨more, _, rfl, here'⟩ := exists_ahead (visible idle) here
    have steps : Steps (base.onto (note ++ tail)) none _ := .comment idle inside (here' _)
    by_cases last : more.dropWhile (· ≠ '\n') = []
    · have all : ∀ c ∈ more, (decide (c ≠ '\n')) = true := dropWhile_eq_nil_iff.mp last
      rw [dropWhile_append_of_pos all, noted.dropWhile_line] at steps
      rw [dropWhile_append_of_pos all]
      exact .behind steps
    · rw [dropWhile_visible last] at steps ⊢
      exact .before { base with rest := more.dropWhile (· ≠ '\n') } steps
  | joined idle inside here nested continues =>
    obtain ⟨more, _, rfl, here'⟩ := exists_ahead (visible idle) here
    have continues' : base.startsStatement (more ++ (note ++ tail)) = false :=
      (startsStatement_beside noted ends more).trans continues
    exact .before { base with rest := more, line := lineAfter base.line 1 }
      (.joined idle inside (here' _) nested continues')
  | lineBreak idle inside here starts full =>
    obtain ⟨more, _, rfl, here'⟩ := exists_ahead (visible idle) here
    have starts' : base.depth = 0 ∨ base.startsStatement (more ++ (note ++ tail)) = true := by
      rw [startsStatement_beside noted ends]
      exact starts
    exact .before { base with
        rest := more, line := lineAfter base.line 1, depth := 0, atLineStart := true, hasContent := false }
      (.lineBreak idle inside (here' _) starts' full)
  | blankBreak idle inside here starts blank =>
    obtain ⟨more, _, rfl, here'⟩ := exists_ahead (visible idle) here
    have starts' : base.depth = 0 ∨ base.startsStatement (more ++ (note ++ tail)) = true := by
      rw [startsStatement_beside noted ends]
      exact starts
    exact .before { base with
        rest := more, line := lineAfter base.line 1, depth := 0, atLineStart := true, hasContent := false }
      (.blankBreak idle inside (here' _) starts' blank)
  | continued idle inside here =>
    obtain ⟨more, first, rest, here'⟩ := exists_ahead (visible idle) here
    obtain ⟨d, more, rfl⟩ := exists_cons_of_ne_nil (free.unjoined idle inside first here)
    cases rest
    exact .before { base with rest := more, line := lineAfter base.line 1 } (.continued idle inside (here' _))
  | @unit c text idle inside here starts =>
    obtain ⟨more, first, rfl, here'⟩ := exists_ahead (visible idle) here
    have closed := free.closed idle inside first here starts
    have steps : Steps (base.onto (note ++ tail)) _ _ :=
      .unit idle inside (here' _) (isBlankLine_beside noted starts)
    rw [lexeme_append (.inr (noted.gap tail)) closed] at steps
    rw [lexeme_append (.inr ends.gap) closed]
    exact .before { base with
        rest := (lexeme c more).rest, line := lineAfter base.line (lexeme c more).lines, hasContent := true,
        depth := depthAfter (lexeme c more) base.depth } steps

end Beside

theorem tokens_note (noted : Note note) (ends : LineEnd tail) (free : (base.onto tail).Free base.rest.length) :
    (base.onto (note ++ tail)).tokens = (base.onto tail).tokens := by
  -- along the run: both texts are read in step until the comment is reached or passed
  generalize whole : base.onto tail = scanner at free
  induction scanner using run_induction generalizing base with
  | step scanner token after taken ih =>
    subst whole
    by_cases blank : base.pending = [] ∧ base.rest.dropWhile isIndentChar = []
    · exact tokens_note_blank noted ends blank.1 blank.2
    have visible : base.pending = [] → base.rest.dropWhile isIndentChar ≠ [] := fun idle none => blank ⟨idle, none⟩
    have same := taken.step_eq
    have whole := congrArg List.length taken.passes.whole
    have later := fun left split => @Free.next _ _ left free split
    rw [same] at later
    cases taken.beside noted ends free visible with
    | behind steps => exact tokens_congr (steps.step_eq.trans same.symm)
    | before next steps =>
      have left : (joined (base.onto tail).passed).length + next.rest.length = base.rest.length := by
        simp only [onto, length_append] at whole ⊢
        omega
      have onward := fun more => ih more rfl (later _ left (taken.smaller more))
      cases token with
      | none =>
        rw [tokens_of_none same, tokens_of_none steps.step_eq]
        exact onward (by simp)
      | some read =>
        by_cases done : read.kind = .endOfInput
        · rw [tokens_of_end same done, tokens_of_end steps.step_eq done]
        · rw [tokens_of_some same done, tokens_of_some steps.step_eq done, onward (by simpa using done)]

end Scanner
end SourceAudit
