import SourceAudit.Proofs.Grammar.StatementTakings

namespace SourceAudit

namespace Parser

/-- A loop over statements: which tokens end it besides the end of input, and which ones it passes over. -/
structure Loop where
  stop : Token.Kind → Bool
  skip : Token.Kind → Bool

namespace Loop

def program : Loop := ⟨fun _ => false, fun kind => kind == .newline || kind == .dedent⟩

def block : Loop := ⟨(· == .dedent), (· == .newline)⟩

def Ends (loop : Loop) (cursor : Cursor) : Prop :=
  cursor.current.kind = .endOfInput ∨ loop.stop cursor.current.kind = true

end Loop

/-- What there is to do at a cursor: to read the next statements, to take one turn of a loop or all of them. -/
inductive Task where
  | next
  | turn (loop : Loop)
  | all (loop : Loop)

/-- How a task is done, with the statements that are read. -/
inductive Does (expr : Precedence → Parser Expr) (block : Parser (Block Stmt)) :
    Task → Cursor → List Stmt → Cursor → Prop where
  | line {cursor : Cursor} (plain : cursor.current.kind ≠ .indent) :
      Does expr block .next cursor (recoveredLine expr block cursor).1 (recoveredLine expr block cursor).2
  | indented {cursor stop : Cursor} {lines : List Stmt} (indent : cursor.current.kind = .indent)
      (inner : Does expr block (.all .block)
        (cursor.advance.report (.atToken cursor.current .unexpectedIndent)) lines stop) :
      Does expr block .next cursor lines stop.advance
  | skipped {loop : Loop} {cursor : Cursor} (skips : loop.skip cursor.current.kind = true) :
      Does expr block (.turn loop) cursor [] cursor.advance
  | read {loop : Loop} {cursor stop : Cursor} {lines : List Stmt} (reads : loop.skip cursor.current.kind = false)
      (next : Does expr block .next cursor lines stop) : Does expr block (.turn loop) cursor lines stop
  | ended {loop : Loop} {cursor : Cursor} (ends : loop.Ends cursor) : Does expr block (.all loop) cursor [] cursor
  | further {loop : Loop} {cursor middle stop : Cursor} {first others : List Stmt} (goes : ¬ loop.Ends cursor)
      (turn : Does expr block (.turn loop) cursor first middle) (rest : Does expr block (.all loop) middle others stop) :
      Does expr block (.all loop) cursor (first ++ others) stop

variable {expr : Precedence → Parser Expr} {block : Parser (Block Stmt)}

theorem Does.ends {loop : Loop} {cursor stop : Cursor} {lines : List Stmt}
    (does : Does expr block (.all loop) cursor lines stop) : loop.Ends stop := by
  generalize task : Task.all loop = busy at does
  induction does with
  | ended ends =>
    cases task
    exact ends
  | further _ _ _ _ ih => exact ih task
  | _ => cases task

theorem Does.program_ends {cursor stop : Cursor} {lines : List Stmt}
    (does : Does expr block (.all .program) cursor lines stop) : stop.current.kind = .endOfInput := by
  rcases does.ends with ended | stopped
  · exact ended
  · cases stopped

section

variable (reads : ReadsExpr expr) (blocks : block.Fills)

include reads blocks

theorem does_onward {task : Task} {cursor stop : Cursor} {lines : List Stmt}
    (does : Does expr block task cursor lines stop) : cursor.Onward stop := by
  induction does with
  | line plain => exact (recoveredLine_serves reads blocks _).toOnward
  | indented indent _ ih =>
    apply Cursor.Onward.trans (Cursor.onward_drop 1 _)
    apply Cursor.Onward.trans (Cursor.onward_report _ _)
    exact ih.trans (Cursor.onward_drop 1 _)
  | skipped skips => exact Cursor.onward_drop 1 _
  | read _ _ ih => exact ih
  | ended ends => exact .refl _
  | further _ _ _ ih ih' => exact ih.trans ih'

theorem does_next_gains {cursor stop : Cursor} {lines : List Stmt} (inside : cursor.current.kind ≠ .endOfInput)
    (does : Does expr block .next cursor lines stop) : stop.size < cursor.size := by
  cases does with
  | line plain =>
    apply recoveredLine_gains reads blocks
    rw [Cursor.rest_of_current inside]
    simp
  | @indented _ stop _ indent inner =>
    have onward := (does_onward reads blocks inner).trans (Cursor.onward_drop 1 stop)
    exact onward.size_le.trans_lt (Cursor.size_advance_lt inside)

theorem does_turn_gains {loop : Loop} {cursor stop : Cursor} {lines : List Stmt}
    (inside : cursor.current.kind ≠ .endOfInput) (does : Does expr block (.turn loop) cursor lines stop) :
    stop.size < cursor.size := by
  cases does with
  | skipped skips => exact Cursor.size_advance_lt inside
  | read _ next => exact does_next_gains reads blocks inside next

theorem overIndented_does (depth : Nat) (cursor : Cursor) :
    ∃ lines stop, Does expr block (.all .block) cursor lines stop ∧
      overIndented expr block (depth + 1) cursor =
        (lines ++ (overIndented expr block depth stop.advance).1, (overIndented expr block depth stop.advance).2) := by
  induction size : cursor.size using Nat.strongRecOn generalizing depth cursor with
  | ind size ih =>
    subst size
    cases rest : cursor.rest with
    | nil =>
      have last : cursor.current.kind = .endOfInput := by
        rw [Cursor.current, rest]
        rfl
      have stays : cursor.advance = cursor :=
        Cursor.eq_of_parts (by simp [Cursor.advance, Cursor.drop, rest]) rfl rfl
      refine ⟨[], cursor, .ended (.inl last), ?_⟩
      rw [stays, overIndented_nil _ rest, overIndented_nil _ rest]
      rfl
    | cons token more =>
      have here := Cursor.current_of_cons rest
      have shorter := Cursor.size_advance_of_cons rest
      -- a turn of the loop, and then the rest of it at a later cursor
      have further : ∀ {middle : Cursor} {first : List Stmt}, middle.size < cursor.size →
          token.kind ≠ .dedent → token.kind ≠ .endOfInput → Does expr block (.turn .block) cursor first middle →
          overIndented expr block (depth + 1) cursor =
            (first ++ (overIndented expr block (depth + 1) middle).1, (overIndented expr block (depth + 1) middle).2) →
          ∃ lines stop, Does expr block (.all .block) cursor lines stop ∧
            overIndented expr block (depth + 1) cursor =
              (lines ++ (overIndented expr block depth stop.advance).1,
                (overIndented expr block depth stop.advance).2) := by
        intro middle first less inner inside turn unfolds
        obtain ⟨others, stop, does, same⟩ := ih _ less depth middle rfl
        refine ⟨first ++ others, stop, .further ?_ turn does, ?_⟩
        · rintro (ends | ends)
          · exact inside (here ▸ ends)
          · exact inner (here ▸ eq_of_beq ends)
        · rw [unfolds, same, List.append_assoc]
      have opened := @overIndented_cons expr block cursor depth token more rest
      split at opened
      · rename_i dedent
        exact ⟨[], cursor, .ended (.inr (by simp [here, dedent, Loop.block])), opened⟩
      · rename_i ended
        exact ⟨[], cursor, .ended (.inl (here ▸ ended)), opened⟩
      · rename_i newline
        exact further shorter (by simp [newline]) (by simp [newline])
          (.skipped (by simp [here, newline, Loop.block])) opened
      · rename_i indent
        -- the lines one level deeper come first
        obtain ⟨lines, stop, does, same⟩ :=
          ih _ shorter (depth + 1) (cursor.advance.report (.atToken token .unexpectedIndent)) rfl
        rw [same] at opened
        have less := ((does_onward reads blocks does).trans (Cursor.onward_drop 1 stop)).size_le
        have next : Does expr block .next cursor lines stop.advance := by
          apply Does.indented (here ▸ indent)
          rw [here]
          exact does
        exact further (less.trans_lt shorter) (by simp [indent]) (by simp [indent])
          (.read (by simp [here, indent, Loop.block]) next) opened
      · rename_i dedent ended newline indent
        have less := @recoveredLine_gains expr block reads blocks cursor (by simp [rest])
        have next : Does expr block .next cursor _ _ := .line (here ▸ indent)
        refine further less dedent ended (.read ?_ next) ?_
        · rw [here]
          exact beq_false_of_ne newline
        · rw [opened, Cursor.followed, if_pos less]

theorem recovered_does (cursor : Cursor) :
    Does expr block .next cursor (recovered expr block cursor).1 (recovered expr block cursor).2 := by
  unfold recovered
  split
  · rename_i indent
    obtain ⟨lines, stop, does, same⟩ := overIndented_does reads blocks 0
      (cursor.advance.report (.atToken cursor.current .unexpectedIndent))
    rw [same, overIndented, List.append_nil]
    exact .indented indent does
  · rename_i plain
    exact .line plain

theorem statements_does (loop : Loop) (cursor : Cursor) :
    Does expr block (.all loop) cursor (statements expr block loop.stop loop.skip cursor).1
      (statements expr block loop.stop loop.skip cursor).2 := by
  induction size : cursor.size using Nat.strongRecOn generalizing cursor with
  | ind size ih =>
    subst size
    cases rest : cursor.rest with
    | nil =>
      have last : cursor.current.kind = .endOfInput := by
        rw [Cursor.current, rest]
        rfl
      rw [statements_nil rest]
      exact .ended (.inl last)
    | cons token more =>
      have here := Cursor.current_of_cons rest
      have shorter := Cursor.size_advance_of_cons rest
      rw [statements_cons rest, ← here]
      split
      · rename_i ends
        exact .ended ends
      · rename_i goes
        split
        · rename_i skips
          exact .further goes (.skipped skips) (ih _ shorter _ rfl)
        · rename_i reading
          have next := recovered_does reads blocks cursor
          have less := does_next_gains reads blocks (fun ended => goes (.inl ended)) next
          rw [Cursor.followed, if_pos less]
          apply Does.further goes (.read (by simpa using reading) next)
          exact ih _ less _ rfl

end

inductive Repeats {α : Type} (step : Parser (Option α)) :
    Cursor → EStateM.Result SyntaxError Cursor (List α) → Prop where
  | failed {cursor stop : Cursor} {error : SyntaxError} (run : step cursor = .error error stop) :
      Repeats step cursor (.error error stop)
  | ended {cursor stop : Cursor} (run : step cursor = .ok none stop) : Repeats step cursor (.ok [] stop)
  | further {cursor middle stop : Cursor} {value : α} {others : List α} (run : step cursor = .ok (some value) middle)
      (rest : Repeats step middle (.ok others stop)) : Repeats step cursor (.ok (value :: others) stop)
  | broken {cursor middle stop : Cursor} {value : α} {error : SyntaxError}
      (run : step cursor = .ok (some value) middle) (rest : Repeats step middle (.error error stop)) :
      Repeats step cursor (.error error stop)

theorem many_repeats {α : Type} {step : Parser (Option α)} {faults : Faults} {owed : List String} {after : α → Tally}
    (steps : ∀ {cursor : Cursor}, Steps faults cursor owed after step) (cursor : Cursor) :
    Repeats step cursor (many step cursor) := by
  induction size : cursor.size using Nat.strongRecOn generalizing cursor with
  | ind size ih =>
    subst size
    rw [many]
    cases run : step cursor with
    | error error stop => exact .failed run
    | ok value stop =>
      cases value with
      | none => exact .ended run
      | some value =>
        have shorter : stop.size < cursor.size := (steps.ok run).2 rfl
        have rest := ih _ shorter stop rfl
        dsimp only
        rw [if_pos shorter]
        cases others : many step stop with
        | error error last =>
          rw [others] at rest
          exact .broken run rest
        | ok values last =>
          rw [others] at rest
          exact .further run rest

inductive ReadsLine (expr : Precedence → Parser Expr) : Cursor → Line → Cursor → Prop where
  | failed {cursor stop : Cursor} {error : SyntaxError} (run : lineStatement expr cursor = .error error stop) :
      ReadsLine expr cursor ⟨[], some error⟩ stop
  | ended {cursor middle stop : Cursor} {statement : Stmt} (run : lineStatement expr cursor = .ok (statement, false) middle)
      (closed : expectNewline middle = .ok () stop) : ReadsLine expr cursor ⟨[statement], none⟩ stop
  | unended {cursor middle stop : Cursor} {statement : Stmt} {error : SyntaxError}
      (run : lineStatement expr cursor = .ok (statement, false) middle)
      (left : expectNewline middle = .error error stop) : ReadsLine expr cursor ⟨[statement], some error⟩ stop
  | further {cursor middle stop : Cursor} {statement : Stmt} {line : Line}
      (run : lineStatement expr cursor = .ok (statement, true) middle) (rest : ReadsLine expr middle line stop) :
      ReadsLine expr cursor ⟨statement :: line.statements, line.failure⟩ stop

inductive Listed (expr : Precedence → Parser Expr) : {α : Type} → Parser α → Prop where
  | value (precedence : Precedence) : Listed expr (expr precedence)
  | param (terminator : String) (hints : Bool) : Listed expr (paramEntry expr terminator hints)
  | argument : Listed expr (argument expr)
  | slice : Listed expr (sliceItem expr)
  | entry : Listed expr (dictEntry expr)
  | module : Listed expr importedModule
  | imported : Listed expr importedName
  | name (what : Expected) : Listed expr (expectIdentifier what)
  | context : Listed expr (withItem expr)

inductive Repeated (expr : Precedence → Parser Expr) (block : Parser (Block Stmt)) :
    {α : Type} → Parser (Option α) → Prop where
  | item {α : Type} {item : Parser α} (listed : Listed expr item) (stop : Token → Bool) :
      Repeated expr block do
        unless ← acceptDelimiter "," do return none
        if stop (← current) then return none
        some <$> item
  | condition : Repeated expr block (whenever (acceptKeyword "if") (expr .conditional))
  | generator : Repeated expr block (generator expr)
  | tail (precedence : Precedence) : Repeated expr block (tail? expr precedence)
  | piece : Repeated expr block (stringPiece expr)
  | assigned : Repeated expr block (whenever (acceptOperator "=") (expressionList expr))
  | segment : Repeated expr block (whenever (acceptOperator ".") (expectIdentifier .name))
  | dots : Repeated expr block relativeDots
  | decorator : Repeated expr block (decorator expr)
  | elif : Repeated expr block (whenever (atKeyword "elif") (clause expr block))
  | except : Repeated expr block (whenever (atKeyword "except") (handler expr block))

/-- The loops of a grammar come to an end, with no bound on their turns. -/
structure Ends (expr : Precedence → Parser Expr) (block : Parser (Block Stmt)) : Prop where
  next : ∀ cursor, Does expr block .next cursor (recovered expr block cursor).1 (recovered expr block cursor).2
  all : ∀ (loop : Loop) cursor, Does expr block (.all loop) cursor
    (statements expr block loop.stop loop.skip cursor).1 (statements expr block loop.stop loop.skip cursor).2
  line : ∀ cursor, ReadsLine expr cursor (simpleLine expr cursor).1 (simpleLine expr cursor).2
  many : ∀ {α : Type} {step : Parser (Option α)}, Repeated expr block step →
    ∀ cursor, Repeats step cursor (many step cursor)

section

variable (reads : ReadsExpr expr)

include reads

theorem simpleLine_readsLine (cursor : Cursor) :
    ReadsLine expr cursor (simpleLine expr cursor).1 (simpleLine expr cursor).2 := by
  induction size : cursor.size using Nat.strongRecOn generalizing cursor with
  | ind size ih =>
    subst size
    cases run : lineStatement expr cursor with
    | error error stop =>
      rw [simpleLine_error run]
      exact .failed run
    | ok read stop =>
      obtain ⟨statement, more⟩ := read
      cases more with
      | true =>
        have shorter : stop.size < cursor.size := ((lineStatement_serves reads).ok run).2 trivial
        rw [simpleLine_more run shorter]
        exact .further run (ih _ shorter stop rfl)
      | false =>
        rw [simpleLine_last run]
        cases closing : expectNewline stop with
        | ok value last => exact .ended run closing
        | error error last => exact .unended run closing

theorem listed_reads {α : Type} {item : Parser α} (listed : Listed expr item) :
    ∃ after, ∀ {cursor : Cursor}, Spans cursor [] after item := by
  cases listed with
  | value precedence => exact ⟨_, (reads.gains precedence).reads⟩
  | param terminator hints => exact ⟨_, paramEntry_serves reads terminator hints⟩
  | argument => exact ⟨_, argument_serves reads⟩
  | slice => exact ⟨_, sliceItem_serves reads⟩
  | entry => exact ⟨_, dictEntry_serves reads⟩
  | module => exact ⟨_, importedModule_serves⟩
  | imported => exact ⟨_, importedName_serves⟩
  | name what => exact ⟨_, (Serves.identifier what).reads⟩
  | context => exact ⟨_, withItem_serves reads⟩

theorem repeated_steps (blocks : block.Fills) {α : Type} {step : Parser (Option α)}
    (repeated : Repeated expr block step) :
    ∃ faults after, ∀ {cursor : Cursor}, Steps faults cursor [] after step := by
  cases repeated with
  | item listed stop =>
    obtain ⟨after, item⟩ := listed_reads reads listed
    exact ⟨_, after, .item stop fun _ => item⟩
  | condition => exact ⟨_, _, condition_serves reads⟩
  | generator => exact ⟨_, _, generator_steps reads⟩
  | tail precedence => exact ⟨_, _, tail?_serves reads precedence⟩
  | piece => exact ⟨_, _, stringPiece_steps reads⟩
  | assigned => exact ⟨_, _, assigned_serves reads⟩
  | segment => exact ⟨_, _, segment_serves⟩
  | dots => exact ⟨_, _, relativeDots_serves⟩
  | decorator => exact ⟨_, _, decorator_steps reads⟩
  | elif => exact ⟨_, _, elif_serves reads blocks⟩
  | except => exact ⟨_, _, except_serves reads blocks⟩

theorem ends_of_reads (blocks : block.Fills) : Ends expr block where
  next := recovered_does reads blocks
  all := statements_does reads blocks
  line := simpleLine_readsLine reads
  many := by
    intro α step repeated
    obtain ⟨faults, after, steps⟩ := repeated_steps reads blocks repeated
    exact many_repeats steps

end

end Parser

theorem Cursor.takeWhile_of_ended {cursor : Cursor} (ended : cursor.current.kind = .endOfInput) :
    cursor.rest.takeWhile (·.kind != .endOfInput) = [] := by
  cases rest : cursor.rest with
  | nil => rfl
  | cons token more =>
    rw [current, rest] at ended
    have ended : token.kind = .endOfInput := ended
    simp [ended]

theorem Cursor.suffix_dropWhile {tokens : List Token} {stop : Cursor} (ended : stop.current.kind = .endOfInput)
    (suffix : stop.rest <:+ tokens) : stop.rest <:+ tokens.dropWhile (·.kind != .endOfInput) := by
  obtain ⟨front, rfl⟩ := suffix
  have stays : stop.rest.dropWhile (·.kind != .endOfInput) = stop.rest := by
    have whole := @List.takeWhile_append_dropWhile _ (·.kind != .endOfInput) stop.rest
    rw [takeWhile_of_ended ended] at whole
    exact whole
  rw [List.dropWhile_append]
  split
  · simp only [stays, List.suffix_rfl]
  · exact List.suffix_append _ _

/-- Reading ends for all tokens, whatever their order and with or without an end of input: the loops come to
    an end although nothing bounds their turns, each turn of a loop over statements takes a token, and in the
    end all tokens before the first end of input have been taken. -/
theorem Program.ofTokens_ends (file : String) (tokens : List Token) :
    (∃ last : Cursor,
      Parser.Does (Parser.expression nestingLimit) (Parser.nestedBlock nestingLimit) (.all .program)
        (Cursor.ofTokens tokens) (ofTokens file tokens).1.statements last ∧
      (ofTokens file tokens).2 = last.errors ∧
      last.rest <:+ tokens.dropWhile (·.kind != .endOfInput)) ∧
    ∀ depth, Parser.Ends (Parser.expression depth) (Parser.nestedBlock depth) ∧
      ∀ (loop : Parser.Loop) (cursor stop : Cursor) (lines : List Stmt), ¬ loop.Ends cursor →
        Parser.Does (Parser.expression depth) (Parser.nestedBlock depth) (.turn loop) cursor lines stop →
        ∃ token taken, cursor.rest = token :: taken ++ stop.rest := by
  have reads := Parser.expression_reads
  have blocks := Parser.nestedBlock_fills
  constructor
  · have does := Parser.statements_does (reads nestingLimit) (blocks nestingLimit) .program (Cursor.ofTokens tokens)
    have onward := Parser.does_onward (reads nestingLimit) (blocks nestingLimit) does
    exact ⟨_, does, rfl, Cursor.suffix_dropWhile does.program_ends onward.rest⟩
  · intro depth
    refine ⟨Parser.ends_of_reads (reads depth) (blocks depth), ?_⟩
    intro loop cursor stop lines goes turn
    have less := Parser.does_turn_gains (reads depth) (blocks depth) (fun ended => goes (.inl ended)) turn
    obtain ⟨taken, split⟩ := (Parser.does_onward (reads depth) (blocks depth) turn).rest
    cases taken with
    | nil =>
      rw [cursor.size_eq, stop.size_eq, ← split] at less
      simp at less
    | cons token taken => exact ⟨token, taken, split.symm⟩

def Program.indentedTokens : List Token :=
  [⟨.indent, "", 1⟩, ⟨.identifier, "x", 1⟩, ⟨.newline, "\n", 1⟩, ⟨.dedent, "", 2⟩, ⟨.endOfInput, "", 2⟩,
    ⟨.illegal, "?", 2⟩]

theorem Program.ofTokens_ends_indented :
    (∃ last : Cursor, (ofTokens "lib" indentedTokens).2 = last.errors ∧
      last.rest <:+ [⟨.endOfInput, "", 2⟩, ⟨.illegal, "?", 2⟩]) ∧
    ¬ Parser.Loop.program.Ends (Cursor.ofTokens indentedTokens) ∧
    ∃ lines stop, Parser.Does (Parser.expression nestingLimit) (Parser.nestedBlock nestingLimit) (.turn .program)
        (Cursor.ofTokens indentedTokens) lines stop ∧
      ∃ token taken, indentedTokens = token :: taken ++ stop.rest := by
  obtain ⟨⟨last, _, errors, rest⟩, others⟩ := ofTokens_ends "lib" indentedTokens
  obtain ⟨ends, gains⟩ := others nestingLimit
  have goes : ¬ Parser.Loop.program.Ends (Cursor.ofTokens indentedTokens) := by
    intro ends
    rcases ends with ended | stopped
    · cases ended
    · cases stopped
  have next := ends.next (Cursor.ofTokens indentedTokens)
  exact ⟨⟨last, errors, rest⟩, goes, _, _, .read rfl next, gains .program _ _ _ goes (.read rfl next)⟩

end SourceAudit
