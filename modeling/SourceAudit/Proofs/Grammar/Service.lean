import SourceAudit.Proofs.Grammar.Takings

namespace SourceAudit

def Expr.tallied (holds : Expr → Prop) (value : Expr) : Tally :=
  ⟨value.names, lines [value], sites [value], holds value⟩

def Expr.tally : Expr → Tally := tallied Whole

def Block.tally (body : Block Stmt) : Tally := ⟨body.names, Node.lines [.block body], [], (Node.block body).Sound⟩

namespace Parser

variable {α β : Type}

theorem expectIdentifier_ok {cursor : Cursor} {what : Expected} (name : cursor.current.kind = .identifier) :
    expectIdentifier what cursor = .ok cursor.current.text cursor.advance := by
  unfold expectIdentifier
  rw [bind_ok (rfl : current cursor = .ok cursor.current cursor), if_pos name]
  rfl

theorem expectIdentifier_error {cursor : Cursor} {what : Expected} (other : cursor.current.kind ≠ .identifier) :
    expectIdentifier what cursor = .error (.atToken cursor.current (.expected what cursor.current)) cursor := by
  unfold expectIdentifier
  rw [bind_ok (rfl : current cursor = .ok cursor.current cursor), if_neg other]
  rfl

def manyAfter (step : Parser (Option α)) (cursor : Cursor) : Outcome (Option α) → Outcome (List α)
  | .error error after => .error error after
  | .ok none after => .ok [] after
  | .ok (some value) after =>
    if after.size < cursor.size then ((value :: ·) <$> many step) after else .ok [value] after

theorem many_eq (step : Parser (Option α)) (cursor : Cursor) :
    many step cursor = manyAfter step cursor (step cursor) := by
  cases run : step cursor with
  | error => rw [many, run]; rfl
  | ok value after =>
    cases value with
    | none => exact Parser.many_none run
    | some value =>
      by_cases shorter : after.size < cursor.size
      · exact (Parser.many_some run shorter).trans (if_pos shorter).symm
      · exact (Parser.many_last run shorter).trans (if_neg shorter).symm

def Serves (faults : Faults) (cursor : Cursor) (owed owed' : List String) (before : Tally) (after : α → Tally)
    (gain : α → Prop) (parser : Parser α) : Prop :=
  cursor.Fits faults owed owed' before after gain (parser cursor)

/-- A reader within a line that takes brackets only in pairs. -/
abbrev Spans (cursor : Cursor) (owed : List String) (after : α → Tally) (parser : Parser α) : Prop :=
  Serves .line cursor owed owed .nothing after (fun _ => False) parser

/-- A reader within a line that takes brackets only in pairs, and at least one token. -/
abbrev Gains (cursor : Cursor) (owed : List String) (after : α → Tally) (parser : Parser α) : Prop :=
  Serves .line cursor owed owed .nothing after (fun _ => True) parser

/-- One turn of a loop, which takes at least one token if the loop goes on. -/
abbrev Steps (faults : Faults) (cursor : Cursor) (owed : List String) (after : α → Tally)
    (parser : Parser (Option α)) : Prop :=
  Serves faults cursor owed owed .nothing (fun value => .all after value.toList) (·.isSome) parser

/-- A reader of expressions. It takes a token for each one, and finds none at the end of input. -/
structure ReadsExpr (expr : Precedence → Parser Expr) : Prop where
  gains : ∀ (precedence : Precedence) {cursor : Cursor} {owed : List String},
    Gains cursor owed Expr.tally (expr precedence)
  ended : ∀ (precedence : Precedence) {cursor : Cursor}, cursor.current.kind = .endOfInput →
    ∃ error, expr precedence cursor = .error error cursor ∧ error.line = cursor.line

namespace Serves

variable {faults : Faults} {cursor : Cursor} {owed owed' owed'' : List String} {before : Tally} {after : α → Tally}
  {gain : α → Prop} {parser : Parser α}

theorem weaken {weaker : α → Prop} (serves : Serves faults cursor owed owed' before after gain parser)
    (gains : ∀ value, weaker value → gain value) :
    Serves faults cursor owed owed' before after weaker parser := by
  unfold Serves at *
  cases run : parser cursor with
  | ok value stop =>
    rw [run] at serves
    exact ⟨serves.1, fun taken => serves.2 (gains value taken)⟩
  | error error stop =>
    rw [run] at serves
    exact serves

theorem reads (serves : Serves faults cursor owed owed' before after gain parser) :
    Serves faults cursor owed owed' before after (fun _ => False) parser :=
  serves.weaken fun _ => False.elim

theorem ok {value : α} {stop : Cursor} (serves : Serves faults cursor owed owed' before after gain parser)
    (run : parser cursor = .ok value stop) :
    cursor.Passes faults stop owed owed' before (after value) ∧ (gain value → stop.size < cursor.size) := by
  unfold Serves at serves
  rwa [run] at serves

theorem framed (serves : Serves faults cursor owed owed' .nothing after gain parser) (before : Tally) :
    Serves faults cursor owed owed' before (fun value => before ++ after value) gain parser :=
  Cursor.Fits.framed serves before

theorem lifted (serves : Serves .line cursor owed owed' .nothing after gain parser) :
    Serves .block cursor owed owed' .nothing after gain parser :=
  Cursor.Fits.lifted serves

theorem following {stop : Cursor} {between : Tally} {led : Prop} {later : α → Prop}
    (passes : cursor.Passes faults stop owed owed' before between) (less : led → stop.size < cursor.size)
    (rest : Serves faults stop owed' owed'' between after later parser)
    (gains : ∀ result, gain result → led ∨ later result) :
    cursor.Fits faults owed owed'' before after gain (parser stop) := by
  have whole := passes.fits rest
  unfold Serves at rest
  cases run : parser stop with
  | error error last =>
    rw [run] at whole
    exact whole
  | ok result last =>
    rw [run] at whole rest
    refine ⟨whole.1, fun gain => ?_⟩
    rcases gains result gain with led | later
    · exact rest.1.toOnward.size_le.trans_lt (less led)
    · exact whole.2 later

theorem bind_of {middle : β → Tally} {led : β → Prop} {later : α → Prop} {first : Parser β} {next : β → Parser α}
    (reads : Serves faults cursor owed owed' before middle led first)
    (rest : ∀ value stop, Serves faults stop owed' owed'' (middle value) after later (next value))
    (gains : ∀ value result, gain result → led value ∨ later result) :
    Serves faults cursor owed owed'' before after gain (first >>= next) := by
  unfold Serves at reads ⊢
  cases run : first cursor with
  | ok value stop =>
    rw [run] at reads
    rw [bind_ok run]
    exact following reads.1 reads.2 (rest value stop) (gains value)
  | error error stop =>
    rw [run] at reads
    rw [bind_error run]
    exact reads

theorem bind {middle : β → Tally} {led : β → Prop} {first : Parser β} {next : β → Parser α}
    (reads : Serves faults cursor owed owed' before middle led first)
    (rest : ∀ value stop, Serves faults stop owed' owed'' (middle value) after gain (next value)) :
    Serves faults cursor owed owed'' before after gain (first >>= next) :=
  bind_of reads rest fun _ _ => .inr

theorem next {out : β → Tally} {led : β → Prop} {first : Parser β} {next : β → Parser α}
    (reads : Serves faults cursor owed owed' .nothing out led first)
    (rest : ∀ value stop, Serves faults stop owed' owed'' (before ++ out value) after gain (next value)) :
    Serves faults cursor owed owed'' before after gain (first >>= next) :=
  bind (reads.framed before) rest

theorem lead {out : β → Tally} {first : Parser β} {next : β → Parser α}
    (reads : Serves faults cursor owed owed' .nothing out (fun _ => True) first)
    (rest : ∀ value stop, Serves faults stop owed' owed'' (before ++ out value) after (fun _ => False) (next value)) :
    Serves faults cursor owed owed'' before after gain (first >>= next) :=
  bind_of (reads.framed before) rest fun _ _ _ => .inl trivial

theorem pure_of {value : α}
    (names : (∀ name ∈ before.names, Text.IsWord name) → before.names = (after value).names)
    (lines : ∀ {low high : Nat}, Climb low before.lines high → Climb low (after value).lines high)
    (sites : (after value).sites = before.sites ∨ (after value).sites = [])
    (sound : before.sound → (after value).sound) :
    Serves faults cursor owed owed before after (fun _ => False) (Pure.pure value : Parser α) :=
  ⟨.of_eq cursor owed names lines sites sound, False.elim⟩

theorem pure {value : α} (same : before = after value) :
    Serves faults cursor owed owed before after (fun _ => False) (Pure.pure value : Parser α) :=
  pure_of (fun _ => same ▸ rfl) (fun climb => same ▸ climb) (.inl (same ▸ rfl)) fun sound => same ▸ sound

theorem pure_bare {value : α} (same : before.bare = after value) :
    Serves faults cursor owed owed before after (fun _ => False) (Pure.pure value : Parser α) :=
  pure_of (fun _ => same ▸ rfl) (fun climb => same ▸ climb) (.inr (same ▸ rfl)) fun sound => same ▸ sound

theorem stopped {value : α} (same : before = after value) (idle : ¬ gain value) :
    Serves faults cursor owed owed before after gain (Pure.pure value : Parser α) :=
  ⟨same ▸ .refl cursor owed before, fun gain => absurd gain idle⟩

theorem ended {gain : Option α → Prop} (idle : ¬ gain none) :
    Serves faults cursor owed owed .nothing (fun value => .all after value.toList) gain
      (Pure.pure none : Parser (Option α)) :=
  stopped rfl idle

theorem like {out : α → Tally} (serves : Serves faults cursor owed owed' before out gain parser)
    (same : ∀ value, out value = after value) : Serves faults cursor owed owed' before after gain parser :=
  funext same ▸ serves

theorem fail (cause : SyntaxError.Cause) : Serves faults cursor owed owed' before after gain (Parser.fail cause) :=
  .here cursor before rfl

theorem unexpected (what : Expected) : Serves faults cursor owed owed' before after gain (Parser.unexpected what) :=
  .here cursor before rfl

theorem refused (what : Expected) {next : β → Parser α} :
    Serves faults cursor owed owed' before after gain ((Parser.unexpected what : Parser β) >>= next) :=
  .here cursor before rfl

theorem ite {condition : Prop} [Decidable condition] {yes no : Parser α}
    (ifYes : condition → Serves faults cursor owed owed' before after gain yes)
    (ifNo : ¬ condition → Serves faults cursor owed owed' before after gain no) :
    Serves faults cursor owed owed' before after gain (if condition then yes else no) := by
  split
  · exact ifYes ‹_›
  · exact ifNo ‹_›

theorem current {next : Token → Parser α}
    (rest : Serves faults cursor owed owed' before after gain (next cursor.current)) :
    Serves faults cursor owed owed' before after gain (Parser.current >>= next) :=
  rest

theorem peek {next : Token → Parser α}
    (rest : Serves faults cursor owed owed' before after gain (next cursor.peek)) :
    Serves faults cursor owed owed' before after gain (Parser.peek >>= next) :=
  rest

theorem ask {test : Token → Bool} {next : Bool → Parser α}
    (rest : Serves faults cursor owed owed' before after gain (next (test cursor.current))) :
    Serves faults cursor owed owed' before after gain ((return test (← Parser.current) : Parser Bool) >>= next) :=
  rest

theorem located
    (rest : Serves faults cursor owed owed' (before ++ .line cursor.current.line) after gain parser) :
    Serves faults cursor owed owed' before after gain parser :=
  (Cursor.Passes.located cursor owed before).fits rest

theorem line {next : Nat → Parser α}
    (rest : Serves faults cursor owed owed' (before ++ .line cursor.current.line) after gain
      (next cursor.current.line)) :
    Serves faults cursor owed owed' before after gain (Parser.line >>= next) :=
  located rest

theorem advance {between : Tally} (inside : cursor.current.kind ≠ .endOfInput)
    (passes : cursor.Passes faults cursor.advance owed owed' before between)
    (rest : Serves faults cursor.advance owed' owed'' between after (fun _ => False) parser) :
    cursor.Fits faults owed owed'' before after gain (parser cursor.advance) :=
  following passes (fun _ : True => Cursor.size_advance_lt inside) rest fun _ _ => .inl trivial

theorem taken {next : Token → Parser α} (turns : cursor.current.Turns owed owed')
    (rest : Serves faults cursor.advance owed' owed'' before after (fun _ => False) (next cursor.current)) :
    Serves faults cursor owed owed'' before after gain (Parser.advance >>= next) :=
  advance turns.inside (.turns turns before) rest

theorem taken_line {next : Token → Parser α} (turns : cursor.current.Turns owed owed')
    (rest : Serves faults cursor.advance owed' owed'' (before ++ .line cursor.current.line) after
      (fun _ => False) (next cursor.current)) :
    Serves faults cursor owed owed'' before after gain (Parser.advance >>= next) :=
  located (taken turns rest)

theorem accept {test : Token → Bool} {next : Bool → Parser α}
    (turns : test cursor.current = true → cursor.current.Turns owed owed')
    (yes : test cursor.current = true →
      Serves faults cursor.advance owed' owed'' before after (fun _ => False) (next true))
    (no : test cursor.current = false → Serves faults cursor owed owed'' before after gain (next false)) :
    Serves faults cursor owed owed'' before after gain (Parser.accept test >>= next) := by
  unfold Serves
  cases passes : test cursor.current with
  | true =>
    have turns := turns passes
    rw [bind_ok (accept_of_true passes)]
    exact advance turns.inside (.turns turns before) (yes passes)
  | false =>
    rw [bind_ok (accept_of_false passes)]
    exact no passes

theorem acceptKeyword (word : String) (inner : owed = [] ∨ word = "async" ∨ word ∉ Token.bracketEnders)
    {next : Bool → Parser α}
    (yes : cursor.current.isKeyword word = true →
      Serves faults cursor.advance owed owed' before after (fun _ => False) (next true))
    (no : cursor.current.isKeyword word = false → Serves faults cursor owed owed' before after gain (next false)) :
    Serves faults cursor owed owed' before after gain (Parser.acceptKeyword word >>= next) :=
  accept (.keyword inner) yes no

theorem acceptOperator (symbol : String) (other : owed = [] ∨ symbol ≠ ".") {next : Bool → Parser α}
    (yes : cursor.current.isOperator symbol = true →
      Serves faults cursor.advance owed owed' before after (fun _ => False) (next true))
    (no : cursor.current.isOperator symbol = false → Serves faults cursor owed owed' before after gain (next false)) :
    Serves faults cursor owed owed' before after gain (Parser.acceptOperator symbol >>= next) :=
  accept (.operator other) yes no

theorem acceptDelimiter (symbol : String) (effect : Token.owedAt owed symbol = some owed') {next : Bool → Parser α}
    (yes : cursor.current.isDelimiter symbol = true →
      Serves faults cursor.advance owed' owed'' before after (fun _ => False) (next true))
    (no : cursor.current.isDelimiter symbol = false → Serves faults cursor owed owed'' before after gain (next false)) :
    Serves faults cursor owed owed'' before after gain (Parser.acceptDelimiter symbol >>= next) :=
  accept (.delimiter effect) yes no

theorem expectKeyword (word : String) (inner : owed = [] ∨ word = "async" ∨ word ∉ Token.bracketEnders)
    {next : Unit → Parser α} (rest : Serves faults cursor.advance owed owed' before after (fun _ => False) (next ())) :
    Serves faults cursor owed owed' before after gain (Parser.expectKeyword word >>= next) := by
  unfold Parser.expectKeyword
  rw [bind_assoc]
  exact acceptKeyword word inner (fun _ => rest) fun _ => unexpected _

theorem expectDelimiter (symbol : String) (effect : Token.owedAt owed symbol = some owed')
    {next : Unit → Parser α} (rest : Serves faults cursor.advance owed' owed'' before after (fun _ => False) (next ())) :
    Serves faults cursor owed owed'' before after gain (Parser.expectDelimiter symbol >>= next) := by
  unfold Parser.expectDelimiter
  rw [bind_assoc]
  exact acceptDelimiter symbol effect (fun _ => rest) fun _ => unexpected _

theorem expectIdentifier (what : Expected) {next : String → Parser α}
    (rest : Serves faults cursor.advance owed owed' (before ++ .named [cursor.current.text]) after
      (fun _ => False) (next cursor.current.text)) :
    Serves faults cursor owed owed' before after gain (Parser.expectIdentifier what >>= next) := by
  unfold Serves
  by_cases name : cursor.current.kind = .identifier
  · rw [bind_ok (expectIdentifier_ok name)]
    exact advance (by simp [name]) (.identifier name owed before) rest
  · rw [bind_error (expectIdentifier_error name)]
    exact .here cursor before rfl

theorem identifier (what : Expected) :
    Serves faults cursor owed owed .nothing (fun name => .named [name]) (fun _ => True)
      (Parser.expectIdentifier what) := by
  rw [← bind_pure (Parser.expectIdentifier what)]
  exact expectIdentifier what (.pure (Tally.nothing_append _))

theorem pointed (what : Expected) {next : String → Parser α}
    (kind : cursor.current.kind = .keyword ∨ cursor.current.kind = .operator) (inner : cursor.current.breaksOut = false)
    (rest : ∀ name stop, Serves faults stop owed owed' (.named [name]) after (fun _ => False) (next name)) :
    Serves faults cursor owed owed' .nothing after gain
      (Parser.advance >>= fun _ => Parser.expectIdentifier what >>= next) := by
  have inside : cursor.current.kind ≠ .endOfInput := by rcases kind with kind | kind <;> simp [kind]
  unfold Serves
  rw [bind_ok (rfl : Parser.advance cursor = .ok cursor.current cursor.advance)]
  by_cases name : cursor.advance.current.kind = .identifier
  · have shorter := (Cursor.onward_drop 1 cursor.advance).size_le.trans_lt (Cursor.size_advance_lt inside)
    rw [bind_ok (expectIdentifier_ok name)]
    exact following (.attribute kind inner name owed) (fun _ : True => shorter) (rest _ _) fun _ _ => .inl trivial
  · rw [bind_error (expectIdentifier_error name)]
    refine ⟨Cursor.onward_drop 1 cursor, fun ordered climb => ?_⟩
    have below : cursor.line ≤ cursor.advance.line := (ordered.drop 1).2
    have passed : faults.kept cursor cursor.advance := faults.still rfl below
    exact faults.after passed (faults.here rfl (climb.le.trans below))

theorem expectNewline {next : Unit → Parser α}
    (rest : ∀ stop, Serves faults stop [] owed' before after (fun _ => False) (next ())) :
    Serves faults cursor [] owed' before after (fun _ => False) (Parser.expectNewline >>= next) := by
  unfold Parser.expectNewline
  rw [bind_assoc]
  refine current ?_
  split
  · rename_i newline
    rw [bind_assoc]
    exact taken (.newline newline) (rest _)
  · exact rest _
  · exact .here cursor before rfl

theorem map {f : β → α} {out : β → Tally} {led : β → Prop} {first : Parser β}
    (reads : Serves faults cursor owed owed' before out led first) (same : ∀ value, out value = after (f value))
    (gains : ∀ value, gain (f value) → led value) :
    Serves faults cursor owed owed' before after gain (f <$> first) := by
  unfold Serves at reads ⊢
  rw [map_eq_pure_bind]
  cases run : first cursor with
  | ok value stop =>
    rw [run] at reads
    rw [bind_ok run]
    exact ⟨same value ▸ reads.1, fun gain => reads.2 (gains value gain)⟩
  | error error stop =>
    rw [run] at reads
    rw [bind_error run]
    exact reads

theorem whenever {test : Token → Bool} {led : α → Prop} (turns : ∀ token, test token = true → token.Turns owed owed)
    (reads : ∀ stop, Serves faults stop owed owed .nothing after led parser) :
    Steps faults cursor owed after (Parser.whenever (Parser.accept test) parser) := by
  refine accept (turns _) (fun _ => ?_) fun _ => ended (by simp)
  exact (reads _).next fun value _ => .pure (by simp [Tally.all, Tally.nothing, Tally.rule])

theorem whenever_word {word : String} (reads : cursor.current.isKeyword word = true →
      Serves faults cursor owed owed .nothing after (fun _ => True) parser) :
    Steps faults cursor owed after (Parser.whenever (Parser.atKeyword word) parser) := by
  refine ask (ite (fun found => ?_) fun _ => ended (by simp))
  exact (reads found).lead fun value _ => .pure (by simp [Tally.all, Tally.nothing, Tally.rule])

theorem many_first {step : Parser (Option α)} {total : List α → Tally} {led : Prop}
    (start : Serves faults cursor owed owed .nothing (fun value => total value.toList) (fun _ => led) step)
    (others : ∀ stop, stop.size < cursor.size →
      Serves faults stop owed owed .nothing (.all after) (fun _ => False) (Parser.many step))
    (more : ∀ value values, total [value] ++ .all after values = total (value :: values)) :
    Serves faults cursor owed owed .nothing total (fun _ => led) (Parser.many step) := by
  unfold Serves at start ⊢
  rw [many_eq]
  cases run : step cursor with
  | error error stop =>
    rw [run] at start
    exact start
  | ok value stop =>
    rw [run] at start
    cases value with
    | none => exact start
    | some value =>
      dsimp only [manyAfter]
      split
      · rename_i shorter
        have rest : Serves faults stop owed owed (total [value]) total (fun _ => False)
            ((value :: ·) <$> Parser.many step) :=
          map ((others stop shorter).framed _) (more value) fun _ => id
        exact following start.1 start.2 rest fun _ => .inl
      · exact start

theorem many {led : Option α → Prop} {step : Parser (Option α)}
    (each : ∀ stop, Serves faults stop owed owed .nothing (fun value => .all after value.toList) led step) :
    Serves faults cursor owed owed .nothing (.all after) (fun _ => False) (Parser.many step) := by
  induction size : cursor.size using Nat.strongRecOn generalizing cursor with
  | ind size ih =>
    subst size
    exact many_first (each cursor).reads (fun stop shorter => ih _ shorter rfl) fun _ _ => by simp [Tally.all]

theorem item {led : α → Prop} {item : Parser α} (stop : Token → Bool)
    (reads : ∀ stop, Serves faults stop owed owed .nothing after led item) :
    Steps faults cursor owed after (do
      unless ← Parser.acceptDelimiter "," do return none
      if stop (← Parser.current) then return none
      some <$> item) := by
  refine acceptDelimiter "," rfl (fun _ => current (ite (fun _ => ?_) fun _ => ?_)) fun _ => ended (by simp)
  · exact .pure rfl
  · exact map (reads _).reads (fun value => by simp [Tally.all]) fun _ => id

theorem moreItems {led : α → Prop} {item : Parser α} (stop : Token → Bool)
    (reads : ∀ stop, Serves faults stop owed owed .nothing after led item) :
    Serves faults cursor owed owed .nothing (.all after) (fun _ => False) (Parser.moreItems stop item) :=
  many fun _ => Serves.item stop reads

theorem items {led : α → Prop} {item : Parser α} (stop : Token → Bool)
    (reads : ∀ stop, Serves faults stop owed owed .nothing after led item) :
    Serves faults cursor owed owed .nothing (.all after) (fun _ => False) (Parser.items stop item) := by
  refine current (ite (fun _ => .pure rfl) fun _ => ?_)
  refine (reads cursor).next fun value _ => (moreItems stop reads).next fun values _ => .pure ?_
  simp [Tally.all, Tally.nothing, Tally.rule]

theorem items_some {led : α → Prop} {item : Parser α}
    (reads : ∀ stop, Serves faults stop owed owed .nothing after led item) :
    Serves faults cursor owed owed .nothing (fun values => .all after values ++ .rule (values ≠ [])) (fun _ => False)
      (Parser.items (fun _ => false) item) := by
  refine current (ite (fun never => by cases never) fun _ => ?_)
  refine (reads cursor).next fun value _ => (moreItems _ reads).next fun values _ => .pure ?_
  simp [Tally.all, Tally.nothing, Tally.rule]

end Serves
end Parser
end SourceAudit
