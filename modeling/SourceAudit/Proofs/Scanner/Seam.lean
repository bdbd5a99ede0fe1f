import Mathlib.Data.List.DropRight
import SourceAudit.Proofs.Grammar.Reading
import SourceAudit.Proofs.Scanner.Lexemes

open List

namespace SourceAudit

namespace Token

theorem EndsLine.ne_joint {text : List Char} (ends : EndsLine text) : text ≠ ['\\'] := by
  rintro rfl
  cases ends

theorem owedAt_length {owed owed' : List String} {symbol : String} (after : owedAt owed symbol = some owed') :
    owed'.length =
      if symbol.toList = ['('] ∨ symbol.toList = ['['] ∨ symbol.toList = ['\x7b'] then owed.length + 1
      else if symbol.toList = [')'] ∨ symbol.toList = [']'] ∨ symbol.toList = ['\x7d'] then owed.length - 1
      else owed.length := by
  unfold owedAt at after
  split at after
  iterate 3
    cases after
    rfl
  iterate 3
    split at after
    · cases after
    · split at after
      · cases after
        rfl
      · cases after
  · rename_i round square curly round' square' curly'
    cases after
    have plain : ∀ c ∈ ['(', '[', '\x7b', ')', ']', '\x7d'], symbol.toList ≠ [c] := by
      intro c member same
      have written : symbol = String.ofList [c] := by rw [← same, String.ofList_toList]
      simp only [mem_cons, not_mem_nil, or_false] at member
      rcases member with rfl | rfl | rfl | rfl | rfl | rfl
      · exact round written
      · exact square written
      · exact curly written
      · exact round' written
      · exact square' written
      · exact curly' written
    simp only [mem_cons, not_mem_nil, or_false, forall_eq_or_imp, forall_eq] at plain
    simp [plain]

/-- Whether the first line with something on it starts at the margin. A line that is joined to the next
    one does not count as empty. -/
def startsFlush (text : List Char) : Bool :=
  match _ahead : text.dropWhile isIndentChar with
  | [] => true
  | '\n' :: rest => startsFlush rest
  | '#' :: rest => startsFlush (rest.dropWhile (· ≠ '\n'))
  | '\\' :: '\n' :: _ => false
  | _ => leadingColumn ['\x0c', '\r'] 0 (text.takeWhile isIndentChar) == 0
termination_by text.length
decreasing_by
  · have short := Scanner.length_dropWhile_le isIndentChar text
    rw [_ahead, length_cons] at short
    omega
  · have short := Scanner.length_dropWhile_le isIndentChar text
    have shorter := Scanner.length_dropWhile_le (fun c => decide (c ≠ '\n')) rest
    rw [_ahead, length_cons] at short
    omega

theorem owedAfter_length {owed owed' : List String} {unit : Lexeme} {line : Nat}
    (after : owedAfter owed ⟨unit.kind, String.ofList unit.text, line⟩ = some owed') :
    owed'.length = depthAfter unit owed.length := by
  unfold owedAfter at after
  unfold depthAfter
  split at after
  · cases after
  · rename_i newline
    split at after
    · rename_i none
      cases after
      simp_all
    · cases after
  · rename_i delimiter
    rw [if_pos delimiter]
    have length := owedAt_length after
    rwa [String.toList_ofList] at length
  · rename_i delimiter
    cases after
    rw [if_neg delimiter]

theorem owed_newline {owed owed' : List String} {line : Nat}
    (after : owedThrough owed [⟨.newline, "\n", line⟩] = some owed') : owed = [] ∧ owed' = [] := by
  rw [owedThrough_singleton, owedAfter] at after
  dsimp only at after
  split at after
  · rename_i none
    cases after
    exact ⟨none, rfl⟩
  · cases after

end Token

namespace Scanner

open Token

def onto (scanner : Scanner) (back : List Char) : Scanner := { scanner with rest := scanner.rest ++ back }

variable {scanner after : Scanner} {token : Option Token} {text : List Char} {owed owed' : List String}

theorem onto_nil (scanner : Scanner) : scanner.onto [] = scanner := by
  unfold onto
  rw [append_nil]

theorem leadingColumn_before {text tail : List Char}
    (some : (text.dropWhile fun c => c == ' ' || c == '\t') ≠ []) (column : Nat) :
    leadingColumn [] column (text ++ tail) = leadingColumn [] column text := by
  induction text generalizing column with
  | nil => exact absurd rfl some
  | cons c text ih =>
    rw [cons_append]
    by_cases space : c = ' '
    · subst space
      exact ih some _
    by_cases tab : c = '\t'
    · subst tab
      exact ih some _
    · rw [leadingColumn, leadingColumn]
      · simp
      all_goals assumption

theorem startsStatement_append (ends : EndsLine text) (back : List Char) :
    (scanner.onto back).startsStatement (text ++ back) = scanner.startsStatement text := by
  have blank : ((fun c => c == ' ' || c == '\t') '\n' : Bool) = false := by decide
  unfold startsStatement onto
  rw [leadingColumn_before (ends.dropWhile_ne_nil blank), ends.dropWhile_append blank,
    (ends.dropWhile blank).takeWhile_append (by decide)]

theorem isBlankLine_before {text tail : List Char} (visible : text ≠ [])
    (apart : text = ['\\'] → tail.head? ≠ some '\n') : isBlankLine (text ++ tail) = isBlankLine text := by
  rcases text with _ | ⟨c, _ | ⟨d, text⟩⟩
  · exact absurd rfl visible
  · by_cases joint : c = '\\'
    · subst joint
      cases tail with
      | nil => rfl
      | cons d tail =>
        have other : d ≠ '\n' := fun same => apart rfl (by rw [same]; rfl)
        simp [isBlankLine, other]
    · unfold isBlankLine
      split <;> simp_all
  · by_cases joint : c = '\\'
    · subst joint
      by_cases lineBreak : d = '\n'
      · subst lineBreak
        rfl
      · simp [isBlankLine, lineBreak]
    · unfold isBlankLine
      split <;> simp_all

theorem isBlankLine_append (ends : EndsLine text) (back : List Char) :
    isBlankLine (text ++ back) = isBlankLine text :=
  isBlankLine_before ends.ne_nil fun joint => absurd joint ends.ne_joint

theorem openLine_same (scanner : Scanner) :
    scanner.openLine.rest = scanner.rest.dropWhile isIndentChar ∧ scanner.openLine.line = scanner.line := by
  unfold openLine
  dsimp only
  split
  · exact ⟨rfl, rfl⟩
  · split <;> exact ⟨rfl, rfl⟩

theorem openLine_before {tail : List Char} (visible : scanner.rest.dropWhile isIndentChar ≠ [])
    (apart : scanner.rest.dropWhile isIndentChar = ['\\'] → tail.head? ≠ some '\n') :
    (scanner.onto tail).openLine = scanner.openLine.onto tail := by
  unfold openLine onto
  dsimp only
  rw [takeWhile_visible visible, dropWhile_visible visible, isBlankLine_before visible apart]
  split
  · rfl
  · split <;> rfl

theorem openLine_onto (ends : EndsLine scanner.rest) (back : List Char) :
    (scanner.onto back).openLine = scanner.openLine.onto back :=
  openLine_before (ends.dropWhile_ne_nil (by decide)) fun joint =>
    absurd joint (ends.dropWhile (by decide)).ne_joint

theorem Steps.tokens (taken : Steps scanner token after) (more : ∀ read ∈ token, read.kind ≠ .endOfInput) :
    scanner.tokens = token.toList ++ after.tokens := by
  cases token with
  | none => exact tokens_of_none taken.step_eq
  | some read => exact tokens_of_some taken.step_eq (more read rfl)

/-- A scanner in brackets that stand in a line, with the closing brackets that are owed. -/
structure Guarded (scanner : Scanner) (owed : List String) : Prop where
  queue : ∀ token ∈ scanner.pending, token.kind = .indent ∨ token.kind = .dedent ∨ token.kind = .illegal
  content : 0 < scanner.depth → scanner.hasContent = true
  depth : owed.length = scanner.depth

theorem Guarded.more (guarded : scanner.Guarded owed) : ∀ token ∈ scanner.pending, token.kind ≠ .endOfInput := by
  intro token member
  rcases guarded.queue token member with kind | kind | kind <;> rw [kind] <;> decide

theorem start_guarded (text : List Char) (line : Nat) : (start text line).Guarded [] :=
  ⟨by simp [start], by simp [start], rfl⟩

theorem Steps.guarded (taken : Steps scanner token after) (sound : scanner.Sound)
    (guarded : scanner.Guarded owed) (owes : owedThrough owed token.toList = some owed') :
    after.Guarded owed' := by
  obtain ⟨queue, content, depth⟩ := guarded
  cases taken with
  | @queued token more waiting =>
    have kinds := queue token (by rw [waiting]; simp)
    have same : owed' = owed := by
      rw [Option.toList_some, owedThrough_singleton, owedAfter] at owes
      rcases kinds with kind | kind | kind <;> rw [kind] at owes <;> cases owes <;> rfl
    subst same
    refine ⟨?_, content, depth⟩
    intro other member
    exact queue other (by rw [waiting]; exact mem_cons_of_mem _ member)
  | opened idle fresh flat =>
    cases owes
    rcases openLine_cases sound with ⟨_, opens⟩ | ⟨_, columns, opening, opens, queued, _⟩
    · rw [opens]
      exact ⟨queue, content, depth⟩
    · rw [opens]
      exact ⟨queued.kinds, content, depth⟩
  | lastBreak idle inside ahead full =>
    obtain ⟨rfl, rfl⟩ := owed_newline owes
    exact ⟨queue, fun nested => absurd nested (by rw [← depth]; simp), depth⟩
  | lastDedent idle inside ahead blank nested =>
    cases owes
    exact ⟨queue, content, depth⟩
  | ended idle inside ahead blank outermost =>
    cases owes
    exact ⟨queue, content, depth⟩
  | comment idle inside ahead =>
    cases owes
    exact ⟨queue, content, depth⟩
  | joined idle inside ahead nested continues =>
    cases owes
    exact ⟨queue, content, depth⟩
  | lineBreak idle inside ahead ends full =>
    obtain ⟨rfl, rfl⟩ := owed_newline owes
    exact ⟨queue, fun nested => absurd nested (Nat.lt_irrefl 0), rfl⟩
  | blankBreak idle inside ahead ends blank =>
    cases owes
    have flat : scanner.depth = 0 := by
      by_contra nested
      rw [content (Nat.pos_of_ne_zero nested)] at blank
      cases blank
    exact ⟨queue, fun nested => absurd nested (Nat.lt_irrefl 0), depth.trans flat⟩
  | continued idle inside ahead =>
    cases owes
    exact ⟨queue, content, depth⟩
  | unit idle inside ahead starts =>
    rw [Option.toList_some, owedThrough_singleton] at owes
    refine ⟨queue, fun _ => rfl, ?_⟩
    dsimp only
    rw [owedAfter_length owes, depth]

structure Boundary (scanner : Scanner) : Prop where
  rest : scanner.rest = []
  fresh : scanner.atLineStart = true
  line : scanner.line < 0x10000000000000000

structure Carries (scanner : Scanner) (token : Option Token) (after : Scanner) : Prop where
  steps : ∀ back, Steps (scanner.onto back) token (after.onto back)
  ends : EndsLine after.rest ∨ after.Boundary
  lines : lineAfter after.line (after.rest.count '\n') = lineAfter scanner.line (scanner.rest.count '\n')

theorem ends_or_nil (front : List Char) (ends : EndsLine (front ++ '\n' :: text)) :
    EndsLine text ∨ text = [] := by
  by_cases none : text = []
  · exact .inr none
  · exact .inl (ends.suffix ⟨front ++ ['\n'], by simp⟩ none)

theorem ends_or_boundary (ends : EndsLine ('\n' :: text)) (rest : after.rest = text)
    (fresh : after.atLineStart = true) (line : after.line < 0x10000000000000000) :
    EndsLine after.rest ∨ after.Boundary := by
  rw [rest]
  refine (ends_or_nil [] ends).imp id ?_
  rintro rfl
  exact ⟨rest, fresh, line⟩

theorem lines_break (front : List Char) {rest : List Char} (inner : front.count '\n' = 0)
    (ahead : rest.dropWhile isIndentChar = front ++ '\n' :: text) (line : Nat) :
    lineAfter (lineAfter line 1) (text.count '\n') = lineAfter line (rest.count '\n') := by
  have count := count_dropWhile (p := isIndentChar) (by decide) rest
  rw [ahead, count_append, inner, count_cons_self] at count
  rw [lineAfter_lineAfter, ← count]
  congr 1
  omega

theorem onto_ahead {ahead : List Char} (ends : EndsLine scanner.rest)
    (same : scanner.rest.dropWhile isIndentChar = ahead) (back : List Char) :
    (scanner.onto back).rest.dropWhile isIndentChar = ahead ++ back := by
  rw [← same]
  exact ends.dropWhile_append (by decide)

theorem starts_onto (ends : EndsLine ('\n' :: text))
    (starts : scanner.depth = 0 ∨ scanner.startsStatement text = true) (back : List Char) :
    (scanner.onto back).depth = 0 ∨ (scanner.onto back).startsStatement (text ++ back) = true := by
  refine starts.imp id ?_
  intro opens
  rcases ends_or_nil [] ends with more | rfl
  · rw [startsStatement_append more]
    exact opens
  · have bare : scanner.startsStatement [] = false := by simp [startsStatement, bracketEnders]
    rw [bare] at opens
    cases opens

theorem Steps.carries (taken : Steps scanner token after) (ends : EndsLine scanner.rest)
    (last : after.rest = [] → (∀ read ∈ token, read.kind ≠ .illegal) ∧
      scanner.rest.dropWhile isIndentChar ≠ ['\\', '\n'] ∧
      (scanner.pending = [] → scanner.rest.dropWhile isIndentChar = ['\n'] → scanner.depth = 0)) :
    Carries scanner token after := by
  have stops : isIndentChar '\n' = false := by decide
  have goes := ends.dropWhile stops
  cases taken with
  | queued waiting => exact ⟨fun _ => .queued waiting, .inl ends, rfl⟩
  | opened idle fresh flat =>
    obtain ⟨rest, line⟩ := openLine_same scanner
    refine ⟨fun back => ?_, .inl ?_, ?_⟩
    · rw [← openLine_onto ends]
      exact .opened idle fresh flat
    · rw [rest]
      exact goes
    · rw [rest, line, count_dropWhile stops]
  | lastBreak _ _ ahead => exact absurd ahead goes.ne_nil
  | lastDedent _ _ ahead => exact absurd ahead goes.ne_nil
  | ended _ _ ahead => exact absurd ahead goes.ne_nil
  | @comment text idle inside ahead =>
    have stops' : (decide ('\n' ≠ '\n') : Bool) = false := by decide
    have count := count_dropWhile stops scanner.rest
    rw [ahead] at goes count
    have goes := goes.tail (by decide)
    rw [count_cons_of_ne (by decide)] at count
    refine ⟨fun back => ?_, .inl (goes.dropWhile stops'), ?_⟩
    · unfold onto
      dsimp only
      rw [← goes.dropWhile_append stops']
      exact .comment idle inside (onto_ahead ends ahead back)
    · dsimp only
      rw [count_dropWhile stops', count]
  | @joined text idle inside ahead nested continues =>
    rw [ahead] at goes last
    -- the joined line could start a statement only if it were the first of the longer text
    rcases ends_or_nil [] goes with more | rfl
    · refine ⟨fun back => ?_, .inl more, lines_break [] rfl ahead _⟩
      refine .joined idle inside (onto_ahead ends ahead back) nested ?_
      rw [startsStatement_append more]
      exact continues
    · have flat := (last rfl).2.2 idle rfl
      omega
  | @lineBreak text idle inside ahead starts full =>
    rw [ahead] at goes
    refine ⟨fun back => ?_, ends_or_boundary goes rfl rfl (lineAfter_lt _ _), lines_break [] rfl ahead _⟩
    exact .lineBreak idle inside (onto_ahead ends ahead back) (starts_onto goes starts back) full
  | @blankBreak text idle inside ahead starts blank =>
    rw [ahead] at goes
    refine ⟨fun back => ?_, ends_or_boundary goes rfl rfl (lineAfter_lt _ _), lines_break [] rfl ahead _⟩
    exact .blankBreak idle inside (onto_ahead ends ahead back) (starts_onto goes starts back) blank
  | @continued text idle inside ahead =>
    rw [ahead] at goes last
    have more := (ends_or_nil ['\\'] goes).resolve_right fun none => (last none).2.1 (by rw [none])
    exact ⟨fun back => .continued idle inside (onto_ahead ends ahead back), .inl more,
      lines_break ['\\'] (by decide) ahead _⟩
  | @unit c text idle inside ahead starts =>
    obtain ⟨inner, other⟩ := ne_of_starts starts
    have count := count_dropWhile stops scanner.rest
    rw [ahead] at goes count
    have stops : (lexeme c text).Stops := by
      by_cases none : (lexeme c text).rest = []
      · exact .inl ((last none).1 _ rfl)
      · exact .inr none
    have within := fun back => lexeme_within back inner other (goes.tail inner) stops
    refine ⟨fun back => ?_, .inl (within []).ends, ?_⟩
    · have visible : isBlankLine (c :: (text ++ back)) = false := by
        rw [← cons_append, isBlankLine_append goes]
        exact starts
      have idle' : (scanner.onto back).pending = [] := idle
      have ahead' : (scanner.onto back).rest.dropWhile isIndentChar = c :: (text ++ back) :=
        onto_ahead ends ahead back
      have unit := Steps.unit idle' inside ahead' visible
      rw [(within back).same] at unit
      exact unit
    · dsimp only
      rw [lineAfter_lineAfter, lexeme_lines inner text, count]

theorem Steps.more (taken : Steps scanner token after) (ends : EndsLine scanner.rest)
    (queue : ∀ read ∈ scanner.pending, read.kind ≠ .endOfInput) : ∀ read ∈ token, read.kind ≠ .endOfInput := by
  rintro read rfl ended
  rcases taken.final ended with ⟨more, waiting, _⟩ | ⟨ahead, _⟩
  · exact queue read (by simp [waiting]) ended
  · exact ends.dropWhile_ne_nil (by decide) ahead

theorem Guarded.depth_of_last (guarded : scanner.Guarded owed) (idle : scanner.pending = [])
    (ahead : scanner.rest.dropWhile isIndentChar = ['\n'])
    (clean : (owedThrough owed scanner.tokens).isSome = true) : scanner.depth = 0 := by
  by_contra deep
  have nested : 0 < scanner.depth := Nat.pos_of_ne_zero deep
  have inside : ¬ (scanner.atLineStart = true ∧ scanner.depth = 0) := fun fresh => deep fresh.2
  have bare : scanner.startsStatement [] = false := by simp [startsStatement, bracketEnders]
  have joined := Steps.joined idle inside ahead nested bare
  have broken : Steps { scanner with rest := [], line := lineAfter scanner.line 1 }
      (some ⟨.newline, "\n", lineAfter scanner.line 1⟩) _ :=
    .lastBreak idle inside rfl (guarded.content nested)
  rw [joined.tokens (by simp), Option.toList_none, nil_append, broken.tokens (by simp),
    owedThrough_append] at clean
  cases owes : owedThrough owed [⟨.newline, "\n", lineAfter scanner.line 1⟩] with
  | none =>
    rw [Option.toList_some, owes] at clean
    cases clean
  | some owed' =>
    obtain ⟨rfl, rfl⟩ := owed_newline owes
    exact deep guarded.depth.symm

def joinsNext (scanner : Scanner) : Bool :=
  if scanner.rest.dropWhile isIndentChar = ['\\', '\n'] then true
  else
    match _taken : scanner.step with
    | (none, after) => after.joinsNext
    | (some token, after) => if token.kind = .endOfInput then false else after.joinsNext
termination_by scanner.work
decreasing_by
  · exact step_none_work _taken
  · exact step_some_work _taken ‹_›

theorem Steps.joinsNext (taken : Steps scanner token after) (more : ∀ read ∈ token, read.kind ≠ .endOfInput)
    (plain : scanner.joinsNext = false) :
    scanner.rest.dropWhile isIndentChar ≠ ['\\', '\n'] ∧ after.joinsNext = false := by
  rw [Scanner.joinsNext] at plain
  split at plain
  · cases plain
  · rename_i apart
    refine ⟨apart, ?_⟩
    split at plain
    · rename_i taken'
      rw [taken.step_eq] at taken'
      cases taken'
      exact plain
    · rename_i taken'
      rw [taken.step_eq] at taken'
      cases taken'
      rwa [if_neg (more _ rfl)] at plain

/-- The tokens of a text up to the line that starts at its end. -/
structure Seam (scanner last : Scanner) (read : List Token) : Prop where
  tokens : ∀ back, (scanner.onto back).tokens = read ++ (last.onto back).tokens
  more : ∀ token ∈ read, token.kind ≠ .endOfInput
  boundary : last.Boundary
  sound : last.Sound
  line : last.line = lineAfter scanner.line (scanner.rest.count '\n')

theorem Seam.step {last : Scanner} {read : List Token} (carries : Carries scanner token after)
    (more : ∀ read ∈ token, read.kind ≠ .endOfInput) (seam : after.Seam last read) :
    scanner.Seam last (token.toList ++ read) where
  tokens back := by
    rw [(carries.steps back).tokens more, seam.tokens, append_assoc]
  more := by
    intro other member
    rcases mem_append.mp member with member | member
    · exact more other (Option.mem_toList.mp member)
    · exact seam.more other member
  boundary := seam.boundary
  sound := seam.sound
  line := seam.line.trans carries.lines

theorem Boundary.seam (boundary : scanner.Boundary) (sound : scanner.Sound) : scanner.Seam scanner [] where
  tokens _ := rfl
  more := by simp
  boundary := boundary
  sound := sound
  line := by
    rw [boundary.rest]
    exact (Nat.mod_eq_of_lt boundary.line).symm

theorem exists_seam (sound : scanner.Sound) (guarded : scanner.Guarded owed) (ends : EndsLine scanner.rest)
    (clean : (owedThrough owed scanner.tokens).isSome = true) (plain : scanner.joinsNext = false) :
    ∃ last read, scanner.Seam last read := by
  -- along the run: a step either reaches the boundary or leaves a shorter text of the same kind
  induction scanner using run_induction generalizing owed with
  | step scanner token after taken ih =>
    have more := taken.more ends guarded.more
    have sound' := taken.sound sound
    have closed := fun idle ahead => guarded.depth_of_last idle ahead clean
    obtain ⟨joint, plain⟩ := taken.joinsNext more plain
    rw [taken.tokens more, owedThrough_append] at clean
    cases owes : owedThrough owed token.toList with
    | none =>
      rw [owes] at clean
      cases clean
    | some owed' =>
      rw [owes] at clean
      have legal : ∀ read ∈ token, read.kind ≠ .illegal := by
        rintro read found illegal
        cases found
        rw [Option.toList_some, owedThrough_singleton, owedAfter, illegal] at owes
        cases owes
      have carries := taken.carries ends fun _ => ⟨legal, joint, closed⟩
      rcases carries.ends with ends' | boundary
      · obtain ⟨last, read, seam⟩ :=
          ih more sound' (taken.guarded sound guarded owes) ends' clean plain
        exact ⟨last, _, seam.step carries more⟩
      · exact ⟨after, _, (boundary.seam sound').step carries more⟩

theorem columns_flush {columns : List Nat} (sorted : columns.Pairwise (· > ·))
    (outermost : columns.getLast? = some 0) : columns.dropWhile (0 < ·) = [0] := by
  obtain ⟨sorted', last, above⟩ := dropWhile_columns 0 sorted outermost
  rcases kept : columns.dropWhile (0 < ·) with _ | ⟨column, _ | ⟨next, more⟩⟩
  · rw [kept] at last
    cases last
  · rw [kept] at above
    have flush : column = 0 := Nat.le_zero.mp above
    rw [kept, flush]
  · rw [kept] at sorted' above
    have below := (pairwise_cons.mp sorted').1 next (by simp)
    have flush : column = 0 := Nat.le_zero.mp above
    omega

def between (text : List Char) (line : Nat) (columns : List Nat) (fresh : Bool) : Scanner :=
  ⟨text, line, columns, [], fresh, false, 0⟩

variable {rest : List Char} {line : Nat} {columns : List Nat} {fresh : Bool}

theorem between_opened (blank : isBlankLine (text.dropWhile isIndentChar) = true) (line : Nat)
    (columns : List Nat) (fresh : Bool) :
    ∃ rest, rest.dropWhile isIndentChar = text.dropWhile isIndentChar ∧
      (between text line columns fresh).tokens = (between rest line columns false).tokens := by
  cases fresh with
  | false => exact ⟨text, rfl, rfl⟩
  | true =>
    refine ⟨text.dropWhile isIndentChar, dropWhile_idempotent _ _, ?_⟩
    have opened : Steps (between text line columns true) none _ := .opened rfl rfl rfl
    rw [tokens_of_none opened.step_eq]
    unfold openLine between
    dsimp only
    rw [if_pos blank]

theorem between_break (ahead : text.dropWhile isIndentChar = '\n' :: rest) (line : Nat) (columns : List Nat)
    (fresh : Bool) :
    (between text line columns fresh).tokens = (between rest (lineAfter line 1) columns true).tokens := by
  have blank : isBlankLine (text.dropWhile isIndentChar) = true := by rw [ahead, isBlankLine]
  obtain ⟨text', same, opened⟩ := between_opened blank line columns fresh
  have broken : Steps (between text' line columns false) none _ :=
    .blankBreak rfl (by simp [between]) (same.trans ahead) (.inl rfl) rfl
  rw [opened, tokens_of_none broken.step_eq]
  rfl

theorem between_comment (ahead : text.dropWhile isIndentChar = '#' :: rest) (line : Nat) (columns : List Nat)
    (fresh : Bool) :
    (between text line columns fresh).tokens =
      (between (rest.dropWhile (· ≠ '\n')) line columns false).tokens := by
  have blank : isBlankLine (text.dropWhile isIndentChar) = true := by rw [ahead, isBlankLine]
  obtain ⟨text', same, opened⟩ := between_opened blank line columns fresh
  have skipped : Steps (between text' line columns false) none _ :=
    .comment rfl (by simp [between]) (same.trans ahead)
  rw [opened, tokens_of_none skipped.step_eq]
  rfl

theorem between_end (ahead : text.dropWhile isIndentChar = []) (line : Nat) (fresh : Bool)
    (sorted : columns.Pairwise (· > ·)) (outermost : columns.getLast? = some 0) :
    (between text line columns fresh).tokens =
      List.replicate (columns.length - 1) ⟨.dedent, "", line⟩ ++ [⟨.endOfInput, "", line⟩] := by
  have blank : isBlankLine (text.dropWhile isIndentChar) = true := by rw [ahead, isBlankLine]
  obtain ⟨rest, same, opened⟩ := between_opened blank line columns fresh
  rw [opened]
  exact tokens_at_end ⟨sorted, outermost, by simp [between]⟩ rfl (by simp [between]) (same.trans ahead) rfl

theorem openLine_flush (visible : isBlankLine (text.dropWhile isIndentChar) = false)
    (flush : leadingColumn ['\x0c', '\r'] 0 (text.takeWhile isIndentChar) = 0) (line : Nat)
    (sorted : columns.Pairwise (· > ·)) (outermost : columns.getLast? = some 0) :
    (between text line columns true).openLine =
      { between (text.dropWhile isIndentChar) line [0] false with
        pending := List.replicate (columns.length - 1) ⟨.dedent, "", line⟩ } := by
  have kept := columns_flush sorted outermost
  have closed : (columns.takeWhile (0 < ·)).length = columns.length - 1 := by
    have parts := congrArg List.length (takeWhile_append_dropWhile (p := (0 < ·)) (l := columns))
    rw [kept, length_append, length_singleton] at parts
    omega
  unfold openLine between
  dsimp only
  rw [if_neg (by simp [visible]), flush, if_neg (Nat.not_lt_zero _), kept, map_const', closed]
  simp

theorem between_content (visible : isBlankLine (text.dropWhile isIndentChar) = false)
    (flush : leadingColumn ['\x0c', '\r'] 0 (text.takeWhile isIndentChar) = 0) (line : Nat)
    (sorted : columns.Pairwise (· > ·)) (outermost : columns.getLast? = some 0) :
    (between text line columns true).tokens =
      List.replicate (columns.length - 1) ⟨.dedent, "", line⟩ ++
        (between (text.dropWhile isIndentChar) line [0] false).tokens := by
  have opened : Steps (between text line columns true) none _ := .opened rfl rfl rfl
  rw [tokens_of_none opened.step_eq, openLine_flush visible flush line sorted outermost, tokens_pending]
  · rfl
  · intro token member
    rw [eq_of_mem_replicate member]
    simp

theorem exists_closing (flush : startsFlush text = true) (sorted : columns.Pairwise (· > ·))
    (outermost : columns.getLast? = some 0)
    (starts : fresh = true ∨ isBlankLine (text.dropWhile isIndentChar) = true) :
    ∃ place, (between text line columns fresh).tokens =
      List.replicate (columns.length - 1) ⟨.dedent, "", place⟩ ++ (between text line [0] fresh).tokens := by
  fun_induction startsFlush text generalizing line fresh with
  | case1 text ahead =>
    refine ⟨line, ?_⟩
    rw [between_end ahead line fresh sorted outermost,
      between_end ahead line fresh (pairwise_singleton _ _) rfl]
    rfl
  | case2 text rest ahead ih =>
    rw [between_break ahead, between_break ahead]
    exact ih flush (.inl rfl)
  | case3 text rest ahead ih =>
    rw [between_comment ahead, between_comment ahead]
    refine ih flush (.inr ?_)
    cases line : rest.dropWhile (· ≠ '\n') with
    | nil => rfl
    | cons c more =>
      have head := List.head?_dropWhile_not (· ≠ '\n') rest
      rw [line] at head
      have lineBreak : c = '\n' := by simpa using head
      rw [lineBreak]
      rfl
  | case4 => cases flush
  | case5 text none lineBreak comment joint =>
    have visible : isBlankLine (text.dropWhile isIndentChar) = false := by
      unfold isBlankLine
      split <;> simp_all
    have flush : leadingColumn ['\x0c', '\r'] 0 (text.takeWhile isIndentChar) = 0 := by simpa using flush
    obtain rfl : fresh = true := starts.resolve_right (by simp [visible])
    refine ⟨line, ?_⟩
    rw [between_content visible flush line sorted outermost,
      between_content visible flush line (pairwise_singleton _ _) rfl]
    rfl

theorem Boundary.tokens_onto (boundary : scanner.Boundary) (sound : scanner.Sound)
    (flush : startsFlush text = true) :
    ∃ place, (scanner.onto text).tokens =
      List.replicate (scanner.indents.length - 1) ⟨.dedent, "", place⟩ ++ (start text scanner.line).tokens := by
  obtain ⟨flat, blank, idle⟩ := sound.fresh boundary.fresh
  have same : scanner.onto text = between text scanner.line scanner.indents true := by
    unfold onto between
    rw [boundary.rest, boundary.fresh, flat, blank, idle]
    rfl
  rw [same]
  exact exists_closing flush sound.columns sound.outermost (.inl rfl)

end Scanner

namespace Token

/-- The tokens of a text that goes on at the margin after its last line: the blocks that are open there
    are closed as at the end of input, and the other lines are as in a text of their own. -/
theorem ofText_append {front back : String} (ends : front = "" ∨ EndsLine front.toList)
    (plain : (Scanner.start front.toList 1).joinsNext = false)
    (clean : (owedThrough [] (ofText front 1)).isSome = true)
    (flush : startsFlush back.toList = true) :
    ∃ read count place place', (∀ token ∈ read, token.kind ≠ .endOfInput) ∧
      ofText front 1 = read ++ List.replicate count ⟨.dedent, "", place⟩ ++
        ofText "" (lineAfter 1 (front.toList.count '\n')) ∧
      ofText (front ++ back) 1 = read ++ List.replicate count ⟨.dedent, "", place'⟩ ++
        ofText back (lineAfter 1 (front.toList.count '\n')) := by
  obtain ⟨last, read, seam⟩ : ∃ last read, (Scanner.start front.toList 1).Seam last read := by
    rcases ends with rfl | ends
    · exact ⟨_, _, Scanner.Boundary.seam ⟨rfl, rfl, by decide⟩ (Scanner.start_sound _ _)⟩
    · exact Scanner.exists_seam (Scanner.start_sound _ _) (Scanner.start_guarded _ _) ends clean plain
  have bare : startsFlush [] = true := by simp [startsFlush]
  obtain ⟨place, closed⟩ := seam.boundary.tokens_onto seam.sound bare
  obtain ⟨place', closed'⟩ := seam.boundary.tokens_onto seam.sound flush
  have line : last.line = lineAfter 1 (front.toList.count '\n') := seam.line
  rw [line] at closed closed'
  refine ⟨read, last.indents.length - 1, place, place', seam.more, ?_, ?_⟩
  · rw [append_assoc]
    change (Scanner.start front.toList 1).tokens = _
    rw [← Scanner.onto_nil (Scanner.start front.toList 1), seam.tokens, closed]
    rfl
  · rw [append_assoc]
    change (Scanner.start (front ++ back).toList 1).tokens = _
    rw [String.toList_append]
    change ((Scanner.start front.toList 1).onto back.toList).tokens = _
    rw [seam.tokens, closed']
    rfl

end Token
end SourceAudit
