import SourceAudit.Proofs.Grammar.CompoundReading

open List

namespace SourceAudit

open Layout Mirror

variable {like : Likeness}

def Cursor.followed (cursor : Cursor) (collect : Cursor → List Stmt × Cursor)
    (outcome : List Stmt × Cursor) : List Stmt × Cursor :=
  if outcome.2.size < cursor.size then (outcome.1 ++ (collect outcome.2).1, (collect outcome.2).2)
  else outcome

namespace Mirror

/-- What two readings of a line do with a mirror: they read alike statements, fail alike at the same
    place, or the left one comes to the end of its input after an error. -/
inductive TracksLine (mirror : Mirror like) : Line × Cursor → Line × Cursor → Prop where
  | read {statements statements' : List Stmt} {onward : Mirror like} {count : Nat} {new new' : List SyntaxError}
      (moves : mirror.Moves 0 0 count new new' onward) (alike : List.Forall₂ like.stmt statements statements')
      (taken : 0 < count) : TracksLine mirror (⟨statements, none⟩, onward.left) (⟨statements', none⟩, onward.right)
  | failed {statements statements' : List Stmt} {error error' : SyntaxError} {onward : Mirror like} {count : Nat}
      {new new' : List SyntaxError} (moves : mirror.Moves 0 0 count new new' onward)
      (alike : List.Forall₂ like.stmt statements statements') (same : error.Alike like.error error')
      (strands : error.strandsIndent = true ↔ onward.left.current.kind = .indent) :
      TracksLine mirror (⟨statements, some error⟩, onward.left) (⟨statements', some error'⟩, onward.right)
  | lost {line : Line} {stop : Cursor} {other : Line × Cursor} {new : List SyntaxError}
      (gone : mirror.Gone new stop) (dirty : new ≠ [] ∨ line.failure.isSome = true) :
      TracksLine mirror (line, stop) other

theorem TracksLine.cons {mirror onward : Mirror like} {count : Nat} {statement statement' : Stmt} {line line' : Line}
    {last last' : Cursor} (alike : like.stmt statement statement') (moves : mirror.Moves 0 0 count [] [] onward)
    (tracks : onward.TracksLine (line, last) (line', last')) :
    mirror.TracksLine ({ line with statements := statement :: line.statements }, last)
      ({ line' with statements := statement' :: line'.statements }, last') := by
  cases tracks with
  | lost gone dirty => exact .lost (moves.gone gone) dirty
  | read moves' alikes taken => exact .read (moves.trans moves') (.cons alike alikes) (by omega)
  | failed moves' alikes same strands => exact .failed (moves.trans moves') (.cons alike alikes) same strands

theorem TracksLine.of_tracks {mirror : Mirror like} {parser parser' : Parser Stmt}
    (tracks : mirror.Tracks 1 (fun _ _ => True) like.stmt parser parser') :
    mirror.TracksLine
      (match parser mirror.left with
        | .ok statement after => (⟨[statement], none⟩, after)
        | .error error after => (⟨[], some error⟩, after))
      (match parser' mirror.right with
        | .ok statement after => (⟨[statement], none⟩, after)
        | .error error after => (⟨[], some error⟩, after)) := by
  cases tracks with
  | ok moves left right alike taken =>
    rw [left, right]
    exact .read moves (.cons alike .nil) taken
  | error moves left right alike strands =>
    rw [left, right]
    exact .failed moves .nil alike strands
  | lostOk gone left alike dirty _ =>
    rw [left]
    exact .lost gone (.inl dirty)
  | lostError gone left =>
    rw [left]
    exact .lost gone (.inr rfl)

/-- What two readings of several lines do with a mirror, when `down` blocks must be closed in them. -/
inductive Collects (mirror : Mirror like) (least down : Nat) (ends : Cursor → Prop) :
    List Stmt × Cursor → List Stmt × Cursor → Prop where
  | read {statements statements' : List Stmt} {onward : Mirror like} {count : Nat} {new new' : List SyntaxError}
      (moves : mirror.Moves down 0 count new new' onward) (alike : List.Forall₂ like.stmt statements statements')
      (taken : least ≤ count) (reached : ends onward.left) :
      Collects mirror least down ends (statements, onward.left) (statements', onward.right)
  | lost {statements : List Stmt} {stop : Cursor} {other : List Stmt × Cursor} {new : List SyntaxError}
      (gone : mirror.Gone new stop) (dirty : new ≠ []) :
      Collects mirror least down ends (statements, stop) other

theorem Collects.append {mirror onward : Mirror like} {least least' down middle count : Nat} {ends : Cursor → Prop}
    {first first' others others' : List Stmt} {last last' : Cursor} {new new' : List SyntaxError}
    (moves : mirror.Moves down middle count new new' onward) (alike : List.Forall₂ like.stmt first first')
    (taken : least ≤ count) (collects : onward.Collects least' middle ends (others, last) (others', last')) :
    mirror.Collects least down ends (first ++ others, last) (first' ++ others', last') := by
  cases collects with
  | lost gone dirty => exact .lost (moves.gone gone) fun clean => dirty (append_eq_nil_iff.mp clean).2
  | read moves' alike' _ reached =>
    exact .read (moves.trans moves') (rel_append alike alike') (Nat.le_add_right_of_le taken) reached

section

variable {mirror : Mirror like} {new : List SyntaxError} {stop : Cursor}

theorem Gone.block (gone : mirror.Gone new stop) (block : Block Stmt) :
    like.body block block := by
  have same : like.Reflexive := by
    refine mirror.kept.resolve_right ?_
    rintro ⟨token, member, ended⟩
    exact gone.inner token member ended
  exact .intro (same.line _) (forall₂_same.mpr fun stmt _ => same.stmt stmt)

theorem Gone.rest_advance (gone : mirror.Gone new stop) : stop.advance.rest = [] := by
  have ended := gone.ended
  have laid := gone.laid
  change stop.rest.drop 1 = []
  unfold Cursor.current at ended
  cases rest : stop.rest with
  | nil => rfl
  | cons token more =>
    rw [rest] at ended laid
    exact laid.last ended

theorem Gone.advance (gone : mirror.Gone new stop) : mirror.Gone new stop.advance where
  ended := by
    rw [Cursor.current, gone.rest_advance]
    rfl
  laid := by
    rw [gone.rest_advance]
    exact ⟨.nil, by simp [Token.indents], by simp⟩
  errors := gone.errors
  inner := gone.inner

theorem Moves.all {low high count : Nat} {new' : List SyntaxError} {onward : Mirror like}
    (moves : mirror.Moves low high count new new' onward) (none : onward.leftRun = []) :
    mirror.Gone new onward.left := by
  refine ⟨current_of_nil none, onward.laid, moves.left_errors, fun token member => ?_⟩
  rw [moves.eq] at none
  rw [← take_of_length_le (drop_eq_nil_iff.mp none)] at member
  exact moves.before token member

theorem Gone.report (gone : mirror.Gone new stop) (error : SyntaxError) :
    mirror.Gone (new ++ [error]) (stop.report error).synchronize := by
  have stays : Cursor.nextStatement stop.rest = stop.rest := by
    have ended := gone.ended
    unfold Cursor.current at ended
    cases rest : stop.rest with
    | nil => rfl
    | cons token more =>
      rw [rest] at ended
      change token.kind = .endOfInput at ended
      simp [Cursor.nextStatement, ended]
  have same : (stop.report error).synchronize = stop.report error := Cursor.eq_of_parts stays rfl rfl
  rw [same]
  refine ⟨gone.ended, gone.laid, ?_, gone.inner⟩
  change stop.errors ++ [error] = _
  rw [gone.errors, append_assoc]

theorem head_indent (mirror : Mirror like) :
    mirror.leftRun.head?.map (·.kind) = some .indent ↔ mirror.left.current.kind = .indent := by
  cases run : mirror.leftRun with
  | nil => simp [mirror.current_of_nil run]
  | cons token rest =>
    rw [left, run]
    simp [Cursor.current_push_cons]

theorem resume (mirror : Mirror like) {error error' : SyntaxError} (same : error.Alike like.error error')
    (strands : error.strandsIndent = true ↔ mirror.left.current.kind = .indent) :
    ∃ count onward, mirror.Moves 0 0 count [error] [error'] onward ∧
      onward.left = (mirror.left.report error).synchronize ∧
      (onward.leftRun ≠ [] → onward.right = (mirror.right.report error').synchronize) := by
  have alike : List.Forall₂ (Token.Alike like.error) mirror.leftRun mirror.rightRun :=
    mirror.alike.imp fun _ _ mirrors => mirrors.alike
  obtain ⟨more, skipped⟩ := Cursor.nextStatement_skipped alike mirror.laid mirror.tail_ended
  refine ⟨more, _, ⟨skipped.inner, rfl, .cons same .nil, skipped.bound, ?_⟩, ?_, fun inside => ?_⟩
  · have count : SyntaxError.stranded [error] =
        if mirror.leftRun.head?.map (·.kind) = some .indent then 1 else 0 := by
      simp [SyntaxError.stranded, countP_singleton, mirror.head_indent, strands]
    rw [count]
    exact skipped.shifts
  · exact Cursor.eq_of_parts skipped.left.symm rfl rfl
  · have ahead : more < mirror.leftRun.length := by
      have := length_pos_iff.mpr inside
      simp only [move, length_drop] at this
      omega
    exact Cursor.eq_of_parts (skipped.right ahead _).symm rfl rfl

theorem Collects.resumed {count : Nat} {new' : List SyntaxError} {onward : Mirror like}
    {statements statements' : List Stmt} (written : mirror.left.current.kind.isLayout = false)
    (moves : mirror.Moves 0 0 count new new' onward) (alike : List.Forall₂ like.stmt statements statements') :
    mirror.Collects 1 0 (fun _ => True)
      (statements, if onward.left.size = mirror.left.size then onward.left.advance else onward.left)
      (statements', if onward.right.size = mirror.right.size then onward.right.advance else onward.right) := by
  obtain ⟨left_size, right_size⟩ := moves.size
  by_cases stuck : count = 0
  · subst stuck
    have here : onward.left.current.kind.isLayout = false := by
      rw [moves.eq]
      exact written
    have plain : onward.left.current.kind ≠ .endOfInput ∧ onward.left.current.kind ≠ .indent ∧
        onward.left.current.kind ≠ .dedent := by
      refine ⟨?_, ?_, ?_⟩ <;> intro kind <;> rw [kind] at here <;> cases here
    obtain ⟨last, step, left, right⟩ := exists_advance plain.1 (.single 0 plain.2.1 plain.2.2)
    rw [if_pos (by omega), if_pos (by omega), ← left, ← right]
    exact .read (moves.trans step) alike (Nat.le_refl 1) trivial
  · rw [if_neg (by omega), if_neg (by omega)]
    exact .read moves alike (by omega) trivial

theorem Collects.followed {down least : Nat} {ends : Cursor → Prop} {outcome outcome' : List Stmt × Cursor}
    {collect : Cursor → List Stmt × Cursor} (first : mirror.Collects 1 0 (fun _ => True) outcome outcome')
    (later : ∀ count new new' onward, 0 < count → mirror.Moves 0 0 count new new' onward →
      onward.Collects 0 down ends (collect onward.left) (collect onward.right))
    (lost : ∀ stop new, mirror.Gone new stop → ∃ last, collect stop = ([], last) ∧ mirror.Gone new last)
    (few : least ≤ 1) :
    mirror.Collects least down ends (mirror.left.followed collect outcome)
      (mirror.right.followed collect outcome') := by
  unfold Cursor.followed
  cases first with
  | read moves alike taken _ =>
    obtain ⟨left_size, right_size⟩ := moves.size
    dsimp only
    rw [if_pos (by omega), if_pos (by omega)]
    exact .append (moves.raise down) alike (few.trans taken) (later _ _ _ _ taken moves)
  | @lost statements stop _ new gone dirty =>
    dsimp only
    split
    · obtain ⟨last, collected, gone⟩ := lost stop new gone
      rw [collected]
      exact .lost gone dirty
    · exact .lost gone dirty

theorem Collects.nil {least down : Nat} {ends : Cursor → Prop} (none : least = 0) (flat : down = 0)
    (reached : ends mirror.left) : mirror.Collects least down ends ([], mirror.left) ([], mirror.right) := by
  subst none flat
  exact .read (.refl mirror 0) .nil (Nat.le_refl 0) reached

theorem Moves.owes {down low high count : Nat} {new' : List SyntaxError} {onward : Mirror like}
    (moves : mirror.Moves low high count new new' onward)
    (owes : down + Token.indents mirror.left.rest ≤ Token.dedents mirror.left.rest) :
    down + high + Token.indents onward.left.rest ≤ low + Token.dedents onward.left.rest := by
  have split : mirror.left.rest = mirror.leftRun.take count ++ onward.left.rest := by
    rw [moves.eq]
    change mirror.leftRun ++ mirror.leftEnd.rest =
      mirror.leftRun.take count ++ (mirror.leftRun.drop count ++ mirror.leftEnd.rest)
    rw [← append_assoc, take_append_drop]
  rw [split, Token.indents_append, Token.dedents_append] at owes
  have counted := moves.shifts.count
  omega

theorem exists_stray (indent : mirror.left.current.kind = .indent) (depth : Nat) :
    ∃ onward, mirror.Moves depth (depth + 1) 1 [.atToken mirror.left.current .unexpectedIndent]
        [.atToken mirror.right.current .unexpectedIndent] onward ∧
      onward.left = mirror.left.advance.report (.atToken mirror.left.current .unexpectedIndent) ∧
      onward.right = mirror.right.advance.report (.atToken mirror.right.current .unexpectedIndent) := by
  have more : mirror.left.current.kind ≠ .endOfInput := by simp [indent]
  have alike := mirror.current_alike fun none => more (mirror.current_of_nil none)
  have quiet : (SyntaxError.atToken mirror.left.current .unexpectedIndent).strandsIndent = false :=
    SyntaxError.strandsIndent_atToken rfl
  refine mirror.exists_report more (.cons (.atToken alike (.same _ (by simp))) .nil) ?_
  rw [SyntaxError.stranded, countP_singleton, quiet, if_neg (by simp), Nat.zero_add]
  exact (Token.Shifts.indent indent).raise depth

theorem rest_cons {mirror : Mirror like} (ahead : mirror.leftRun ≠ []) :
    mirror.left.rest = mirror.left.current :: (mirror.leftRun.drop 1 ++ mirror.leftEnd.rest) ∧
      mirror.right.rest = mirror.right.current :: (mirror.rightRun.drop 1 ++ mirror.rightEnd.rest) := by
  rcases mirror.run_cases with ⟨none, _⟩ | ⟨token, token', run, run', left_eq, right_eq, _⟩
  · exact absurd none ahead
  · rw [left, right, left_eq, right_eq]
    exact ⟨rfl, rfl⟩

theorem written_after_indent (indent : mirror.left.current.kind = .indent)
    (some : mirror.left.advance.current.kind ≠ .endOfInput) : mirror.left.advance.current.kind.isLayout = false := by
  have laid := mirror.laid
  rcases mirror.run_cases with ⟨none, _⟩ | ⟨token, _, run, _, left_eq, _, _⟩
  · rw [mirror.current_of_nil none] at indent
    cases indent
  · rw [left, left_eq, Cursor.advance_push_cons] at some ⊢
    rw [left, left_eq] at indent
    rw [left_eq] at laid
    cases run with
    | nil => exact absurd mirror.ended some
    | cons next run => exact laid.next.opens indent

theorem dedents_ended {cursor : Cursor} (ended : cursor.current.kind = .endOfInput)
    (laid : Laid cursor.rest) : Token.dedents cursor.rest = 0 := by
  unfold Cursor.current at ended
  cases rest : cursor.rest with
  | nil => rfl
  | cons token more =>
    rw [rest] at ended laid
    change token.kind = .endOfInput at ended
    rw [laid.last ended, Token.dedents_cons, if_neg (by simp [ended])]
    rfl

end

end Mirror

namespace Parser

variable {mirror : Mirror like} {expr : Precedence → Parser Expr} {block : Parser (Block Stmt)}

section

variable {cursor stop : Cursor} {statement : Stmt}

theorem overIndented_nil (depth : Nat) (rest : cursor.rest = []) :
    overIndented expr block depth cursor = ([], cursor) := by
  cases depth with
  | zero => rw [overIndented]
  | succ depth =>
    rw [overIndented]
    split
    · rfl
    · rename_i token more ahead
      rw [rest] at ahead
      cases ahead

theorem overIndented_cons {depth : Nat} {token : Token} {more : List Token}
    (rest : cursor.rest = token :: more) :
    overIndented expr block (depth + 1) cursor =
      match token.kind with
      | .dedent | .endOfInput => overIndented expr block depth cursor.advance
      | .newline => overIndented expr block (depth + 1) cursor.advance
      | .indent =>
        overIndented expr block (depth + 2) (cursor.advance.report (.atToken token .unexpectedIndent))
      | _ => cursor.followed (overIndented expr block (depth + 1)) (recoveredLine expr block cursor) := by
  rw [overIndented]
  split
  · rename_i ahead
    rw [rest] at ahead
    cases ahead
  · rename_i token' more' ahead
    rw [rest] at ahead
    cases ahead
    rfl

theorem statements_nil {stop skip : Token.Kind → Bool} (rest : cursor.rest = []) :
    statements expr block stop skip cursor = ([], cursor) := by
  rw [statements]
  split
  · rfl
  · rename_i token more ahead
    rw [rest] at ahead
    cases ahead

theorem statements_cons {stop skip : Token.Kind → Bool} {token : Token} {more : List Token}
    (rest : cursor.rest = token :: more) :
    statements expr block stop skip cursor =
      if token.kind = .endOfInput ∨ stop token.kind then ([], cursor)
      else if skip token.kind then statements expr block stop skip cursor.advance
      else cursor.followed (statements expr block stop skip) (recovered expr block cursor) := by
  rw [statements]
  split
  · rename_i ahead
    rw [rest] at ahead
    cases ahead
  · rename_i token' more' ahead
    rw [rest] at ahead
    cases ahead
    rfl

theorem statements_ended {stop skip : Token.Kind → Bool} (ended : cursor.current.kind = .endOfInput) :
    statements expr block stop skip cursor = ([], cursor) := by
  unfold Cursor.current at ended
  cases rest : cursor.rest with
  | nil => exact statements_nil rest
  | cons token more =>
    rw [rest] at ended
    rw [statements_cons rest, if_pos (.inl ended)]

theorem simpleLine_error {error : SyntaxError} (run : lineStatement expr cursor = .error error stop) :
    simpleLine expr cursor = (⟨[], some error⟩, stop) := by
  rw [simpleLine, run]

theorem simpleLine_more (run : lineStatement expr cursor = .ok (statement, true) stop)
    (shorter : stop.size < cursor.size) :
    simpleLine expr cursor =
      ({ (simpleLine expr stop).1 with statements := statement :: (simpleLine expr stop).1.statements },
        (simpleLine expr stop).2) := by
  rw [simpleLine, run]
  simp only [shorter, ↓reduceIte]

theorem simpleLine_last (run : lineStatement expr cursor = .ok (statement, false) stop) :
    simpleLine expr cursor =
      match expectNewline stop with
      | .ok _ last => (⟨[statement], none⟩, last)
      | .error error last => (⟨[statement], some error⟩, last) := by
  rw [simpleLine]
  cases ended : expectNewline stop <;> simp only [run, ended]

end

variable (reads : Readable like expr)

include reads

theorem lineStatement_shorter {twins : Twins like} {statement : Stmt} {stop : Cursor}
    (run : lineStatement expr twins.left = .ok (statement, true) stop) : stop.size < twins.left.size := by
  rcases simpleStatement_reads reads twins with ⟨count, left, _, _⟩ | ⟨count, left, _, _, _⟩
  · have rest := (bind_ok left).symm.trans run
    cases separated : (twins.skip count).left.current.isDelimiter ";" with
    | true =>
      have next := (bind_ok (accept_of_true separated)).symm.trans rest
      injection next with _ stops
      have written : (twins.skip count).left.current.kind.isLayout = false := by
        simp only [Token.isDelimiter, Bool.and_eq_true, beq_iff_eq] at separated
        rw [separated.1]
        rfl
      obtain ⟨token, _, run, _, run_eq, _⟩ := Twins.exists_of_written written
      have fewer : (twins.skip count).leftRun.length ≤ twins.leftRun.length := by
        rw [Twins.skip, length_drop]
        omega
      rw [← stops, Twins.left, Twins.left, run_eq, Cursor.advance_push_cons, Cursor.size_push,
        Cursor.size_push]
      rw [run_eq, length_cons] at fewer
      exact Nat.add_lt_add_right fewer _
    | false =>
      have next := (bind_ok (accept_of_false separated)).symm.trans rest
      injection next with impossible
      injection impossible with _ impossible
      cases impossible
  · cases (bind_error left).symm.trans run

theorem simpleLine_tracks (inside : mirror.left.Inside) :
    mirror.TracksLine (simpleLine expr mirror.left) (simpleLine expr mirror.right) := by
  induction size : mirror.left.size using Nat.strongRecOn generalizing mirror with
  | ind size ih =>
    subst size
    have line : ∀ twins : Twins like, twins.left = mirror.left → twins.right = mirror.right →
        twins.Reads
          (fun read read' => (like.stmt read.1 read'.1 ∧ read.2 = read'.2) ∧
            ∀ statement stop, lineStatement expr mirror.left = .ok (statement, true) stop →
              stop.size < mirror.left.size)
          (lineStatement expr) (lineStatement expr) := by
      intro twins left_eq _
      refine (lineStatement_reads reads twins).mono ?_
      intro read read' alike
      refine ⟨alike, ?_⟩
      rw [← left_eq]
      intro statement stop run
      exact lineStatement_shorter reads run
    rcases Tracks.lift_cases inside line with
      ⟨⟨statement, more⟩, ⟨statement', _⟩, count, onward, moves, left, right, ⟨⟨alike, rfl⟩, shorter⟩, reached⟩ |
      ⟨error, error', count, onward, moves, left, right, alike, reached, quiet⟩
    · cases more with
      | true =>
        have smaller := shorter statement _ left
        obtain ⟨left_size, right_size⟩ := moves.size
        rw [simpleLine_more left smaller, simpleLine_more right (by omega)]
        exact .cons alike moves (ih _ smaller reached rfl)
      | false =>
        rw [simpleLine_last left, simpleLine_last right]
        cases Tracks.expectNewline reached with
        | ok moves' left' right' =>
          rw [left', right']
          exact .read (moves.trans moves') (.cons alike .nil) (by omega)
        | error moves' left' right' same strands =>
          rw [left', right']
          exact .failed (moves.trans moves') (.cons alike .nil) same strands
        | lostOk gone left' _ dirty =>
          rw [left']
          exact .lost (moves.gone gone) (.inl dirty)
        | lostError gone left' =>
          rw [left']
          exact .lost (moves.gone gone) (.inr rfl)
    · rw [simpleLine_error left, simpleLine_error right]
      exact .failed moves .nil (alike.mono like.error_of_line)
        (iff_of_false (by simp [quiet]) reached.kind_ne_indent)

theorem statementLine_tracks (blocks : Mirrored like block) (inside : mirror.left.Inside) :
    mirror.TracksLine (statementLine expr block mirror.left) (statementLine expr block mirror.right) := by
  unfold statementLine
  rcases compound?_tracks reads blocks inside with
    ⟨left, right⟩ | ⟨parser, parser', left, right, tracks⟩
  · rw [left, right]
    exact simpleLine_tracks reads inside
  · rw [left, right]
    exact .of_tracks tracks

variable (blocks : Mirrored like block)

include blocks

theorem recoveredLine_collects (written : mirror.left.current.kind.isLayout = false) :
    mirror.Collects 1 0 (fun _ => True) (recoveredLine expr block mirror.left)
      (recoveredLine expr block mirror.right) := by
  have tracks := statementLine_tracks reads blocks (.inl written)
  unfold recoveredLine
  generalize statementLine expr block mirror.left = outcome at tracks
  generalize statementLine expr block mirror.right = outcome' at tracks
  cases tracks with
  | read moves alike taken => exact .read moves alike taken trivial
  | @lost line stop other new gone dirty =>
    dsimp only
    cases failure : line.failure with
    | none => exact .lost gone (by simpa [failure] using dirty)
    | some error =>
      have resumed := gone.report error
      have soiled : new ++ [error] ≠ [] := by simp
      dsimp only
      split
      · exact .lost resumed.advance soiled
      · exact .lost resumed soiled
  | failed moves alike same strands =>
    obtain ⟨more, last, later, left, right⟩ := resume _ same strands
    have whole := moves.trans later
    dsimp only
    rw [← left]
    by_cases none : last.leftRun = []
    · have gone := whole.all none
      split
      · exact .lost gone.advance (by simp)
      · exact .lost gone (by simp)
    · rw [← right none]
      exact .resumed written whole alike

omit reads blocks in
theorem overIndented_gone {new : List SyntaxError} {stop : Cursor} (depth : Nat) (gone : mirror.Gone new stop) :
    ∃ last, overIndented expr block depth stop = ([], last) ∧ mirror.Gone new last := by
  cases rest : stop.rest with
  | nil => exact ⟨stop, overIndented_nil depth rest, gone⟩
  | cons token more =>
    cases depth with
    | zero => exact ⟨stop, by rw [overIndented], gone⟩
    | succ depth =>
      have ended : token.kind = .endOfInput := by
        have kind := gone.ended
        rw [Cursor.current, rest] at kind
        exact kind
      refine ⟨stop.advance, ?_, gone.advance⟩
      rw [overIndented_cons rest, ended]
      exact overIndented_nil depth gone.rest_advance

theorem overIndented_collects (depth : Nat)
    (owes : depth + Token.indents mirror.left.rest ≤ Token.dedents mirror.left.rest) :
    mirror.Collects 0 depth (fun _ => True) (overIndented expr block depth mirror.left)
      (overIndented expr block depth mirror.right) := by
  -- by the tokens left; the dedents still to come are at least the open levels, so each level is closed
  induction size : mirror.left.size using Nat.strongRecOn generalizing mirror depth with
  | ind size ih =>
    subst size
    cases depth with
    | zero =>
      rw [overIndented, overIndented]
      exact .nil rfl rfl trivial
    | succ depth =>
      have more : mirror.left.current.kind ≠ .endOfInput := by
        intro ended
        rw [dedents_ended ended mirror.laid] at owes
        omega
      have ahead : mirror.leftRun ≠ [] := fun none => more (mirror.current_of_nil none)
      obtain ⟨rest, rest'⟩ := mirror.rest_cons ahead
      have alike := mirror.current_alike ahead
      rw [overIndented_cons rest, overIndented_cons rest', ← alike.kind]
      have next : ∀ depth' new new' onward, mirror.Moves (depth + 1) depth' 1 new new' onward →
          mirror.Collects 0 (depth + 1) (fun _ => True) (overIndented expr block depth' onward.left)
            (overIndented expr block depth' onward.right) := by
        intro depth' new new' onward moves
        have owing := moves.owes owes
        exact .append moves .nil (Nat.zero_le _) (ih _ (by have := moves.size; omega) depth' (by omega) rfl)
      have line : mirror.left.current.kind.isLayout = false →
          mirror.Collects 0 (depth + 1) (fun _ => True)
            (mirror.left.followed (overIndented expr block (depth + 1)) (recoveredLine expr block mirror.left))
            (mirror.right.followed (overIndented expr block (depth + 1))
              (recoveredLine expr block mirror.right)) := by
        intro written
        refine .followed (recoveredLine_collects reads blocks written) ?_ ?_ (Nat.zero_le 1)
        · intro count new new' onward taken moves
          have owing := moves.owes owes
          exact ih _ (by have := moves.size; omega) (depth + 1) (by omega) rfl
        · intro stop new gone
          exact overIndented_gone (depth + 1) gone
      cases kind : mirror.left.current.kind with
      | dedent =>
        obtain ⟨onward, moves, left, right⟩ := mirror.exists_advance more ((Token.Shifts.dedent kind).raise depth)
        dsimp only
        rw [← left, ← right]
        exact next depth _ _ _ moves
      | newline =>
        obtain ⟨onward, moves, left, right⟩ :=
          mirror.exists_advance more (.single (depth + 1) (by simp [kind]) (by simp [kind]))
        dsimp only
        rw [← left, ← right]
        exact next (depth + 1) _ _ _ moves
      | indent =>
        obtain ⟨onward, moves, left, right⟩ := mirror.exists_stray kind (depth + 1)
        dsimp only
        rw [← left, ← right]
        exact next (depth + 2) _ _ _ moves
      | endOfInput => exact absurd kind more
      | _ => exact line (by rw [kind]; rfl)

theorem recovered_collects (more : mirror.left.current.kind ≠ .endOfInput)
    (starts : mirror.left.current.kind ≠ .newline ∧ mirror.left.current.kind ≠ .dedent) :
    mirror.Collects 1 0 (fun _ => True) (recovered expr block mirror.left)
      (recovered expr block mirror.right) := by
  have ahead : mirror.leftRun ≠ [] := fun none => more (mirror.current_of_nil none)
  have alike := mirror.current_alike ahead
  unfold recovered
  rw [← alike.kind]
  by_cases indent : mirror.left.current.kind = .indent
  · have closes : 0 + Token.indents mirror.left.rest ≤ Token.dedents mirror.left.rest := by
      rw [Nat.zero_add]
      exact mirror.laid.closes _ suffix_rfl
    obtain ⟨onward, moves, left, right⟩ := mirror.exists_stray indent 0
    have owing := moves.owes closes
    rw [if_pos indent, if_pos indent, ← left, ← right]
    exact .append moves .nil (Nat.le_refl 1) (overIndented_collects reads blocks 1 (by omega))
  · have written : mirror.left.current.kind.isLayout = false := by
      cases kind : mirror.left.current.kind <;> simp_all [Token.Kind.isLayout]
    rw [if_neg indent, if_neg indent]
    exact recoveredLine_collects reads blocks written

theorem blockLines_collects
    (owes : 1 + Token.indents mirror.left.rest ≤ Token.dedents mirror.left.rest) :
    mirror.Collects 0 0 (fun cursor => cursor.current.kind = .dedent)
      (statements expr block (· == .dedent) (· == .newline) mirror.left)
      (statements expr block (· == .dedent) (· == .newline) mirror.right) := by
  induction size : mirror.left.size using Nat.strongRecOn generalizing mirror with
  | ind size ih =>
    subst size
    have more : mirror.left.current.kind ≠ .endOfInput := by
      intro ended
      rw [dedents_ended ended mirror.laid] at owes
      omega
    have ahead : mirror.leftRun ≠ [] := fun none => more (mirror.current_of_nil none)
    obtain ⟨rest, rest'⟩ := mirror.rest_cons ahead
    have alike := mirror.current_alike ahead
    rw [statements_cons rest, statements_cons rest', ← alike.kind]
    by_cases dedent : mirror.left.current.kind = .dedent
    · rw [if_pos (.inr (by simp [dedent])), if_pos (.inr (by simp [dedent]))]
      exact .nil rfl rfl dedent
    have goes : ¬ (mirror.left.current.kind = .endOfInput ∨ (mirror.left.current.kind == .dedent) = true) := by
      simp [more, dedent]
    rw [if_neg goes, if_neg goes]
    by_cases newline : mirror.left.current.kind = .newline
    · obtain ⟨onward, moves, left, right⟩ := mirror.exists_advance more (.single 0 (by simp [newline]) dedent)
      have owing := moves.owes owes
      rw [if_pos (by simp [newline]), if_pos (by simp [newline]), ← left, ← right]
      exact .append moves .nil (Nat.zero_le 1) (ih _ (by have := moves.size; omega) (by omega) rfl)
    · rw [if_neg (by simp [newline]), if_neg (by simp [newline])]
      refine .followed (recovered_collects reads blocks more ⟨newline, dedent⟩) ?_ ?_ (Nat.zero_le 1)
      · intro count new new' onward taken moves
        have owing := moves.owes owes
        exact ih _ (by have := moves.size; omega) (by omega) rfl
      · intro stop new gone
        exact ⟨stop, statements_ended gone.ended, gone⟩

omit blocks in
theorem blockBody_line_tracks (inside : mirror.left.Inside) (written : mirror.left.current.kind ≠ .newline) :
    mirror.Keeps 0 like.body (blockBody expr block) := by
  have alike : mirror.left.current.Alike like.line mirror.right.current :=
    (mirror.current_mirrors (mirror.ne_nil_of_inside inside)).written inside.kind_ne_dedent
  have written' : mirror.right.current.kind ≠ .newline := by
    rw [← alike.kind]
    exact written
  have left : blockBody expr block mirror.left = _ := if_pos written
  have right : blockBody expr block mirror.right = _ := if_pos written'
  have tracks := simpleLine_tracks reads inside
  generalize simpleLine expr mirror.left = outcome at tracks left
  generalize simpleLine expr mirror.right = outcome' at tracks right
  cases tracks with
  | read moves alikes => exact .ok moves left right (.intro alike.line alikes) (Nat.zero_le _) trivial
  | failed moves alikes same strands => exact .error moves left right same strands
  | @lost line stop other new gone dirty =>
    obtain ⟨statements, failure⟩ := line
    cases failure with
    | none => exact .lostOk gone left (gone.block _) (by simpa using dirty) trivial
    | some error => exact .lostError gone left

omit reads blocks in
theorem blockLines_tracks {start : Nat} {onward : Mirror like} {parser : Parser (Block Stmt)}
    {outcome outcome' : List Stmt × Cursor} (opened : mirror.Moves 0 1 start [] [] onward)
    (left : parser mirror.left = .ok ⟨onward.left.current.line, outcome.1⟩
        (if outcome.2.current.kind = .dedent then outcome.2.advance else outcome.2))
    (right : parser mirror.right = .ok ⟨onward.right.current.line, outcome'.1⟩
        (if outcome'.2.current.kind = .dedent then outcome'.2.advance else outcome'.2))
    (line : like.line onward.left.current.line onward.right.current.line)
    (lines : onward.Collects 0 0 (fun cursor => cursor.current.kind = .dedent) outcome outcome') :
    mirror.Keeps 0 like.body parser := by
  cases lines with
  | lost gone dirty =>
    rw [if_neg (by simp [gone.ended])] at left
    exact .lostOk (opened.gone gone) left (gone.block _) dirty trivial
  | @read _ _ last _ _ _ moves alikes _ dedent =>
    dsimp only at left right
    have more : last.left.current.kind ≠ .endOfInput := by simp [dedent]
    have dedent' : last.right.current.kind = .dedent := by
      rw [← (current_alike fun none => more (current_of_nil none)).kind]
      exact dedent
    obtain ⟨ending, closed, left', right'⟩ := last.exists_advance more (.dedent dedent)
    rw [if_pos dedent, ← left'] at left
    rw [if_pos dedent', ← right'] at right
    exact .ok (opened.trans ((moves.raise 1).trans closed)) left right (.intro line alikes) (Nat.zero_le _) trivial

omit reads blocks in
theorem blockBody_missing_tracks (newline : mirror.left.current.kind = .newline)
    (missing : mirror.left.peek.kind ≠ .indent) :
    mirror.Keeps 0 like.body (blockBody expr block) := by
  have ahead := mirror.ne_nil_of_inside (.inr newline)
  have more : mirror.left.current.kind ≠ .endOfInput := by simp [newline]
  have newline' : mirror.right.current.kind = .newline := by
    rw [← (mirror.current_alike ahead).kind]
    exact newline
  obtain ⟨onward, _, left, right⟩ := mirror.exists_advance more (.single 0 (by simp [newline]) (by simp [newline]))
  have missing' : mirror.right.peek.kind ≠ .indent := by
    rw [← Cursor.current_advance, ← left] at missing
    rw [← Cursor.current_advance, ← right]
    rcases onward.run_cases with ⟨_, none⟩ | ⟨_, _, _, _, some, _⟩
    · rw [Mirror.right, none]
      exact onward.apart.1
    · rw [← (current_alike (by simp [some])).kind]
      exact missing
  have failed : mirror.Keeps 0 like.body (fail .missingBlock) := .fail (.inr newline) _ (by simp)
  refine failed.congr ?_ ?_
  · exact (if_neg (by simp [newline])).trans (if_pos missing)
  · exact (if_neg (by simp [newline'])).trans (if_pos missing')

theorem blockBody_lines_tracks (newline : mirror.left.current.kind = .newline)
    (opens : mirror.left.peek.kind = .indent) :
    mirror.Keeps 0 like.body (blockBody expr block) := by
  have ahead := mirror.ne_nil_of_inside (.inr newline)
  obtain ⟨onward, line, left, right⟩ :=
    mirror.exists_advance (by simp [newline]) (.single 0 (by simp [newline]) (by simp [newline]))
  have indent : onward.left.current.kind = .indent := by
    rw [left, Cursor.current_advance]
    exact opens
  have more : onward.left.current.kind ≠ .endOfInput := by simp [indent]
  obtain ⟨inner, opened, left', right'⟩ := onward.exists_advance more (.indent indent)
  have newline' : mirror.right.current.kind = .newline := by
    rw [← (mirror.current_alike ahead).kind]
    exact newline
  have opens' : mirror.right.peek.kind = .indent := by
    rw [← Cursor.current_advance, ← right, ← (current_alike fun none => more (current_of_nil none)).kind]
    exact indent
  have left_eq : blockBody expr block mirror.left = _ :=
    (if_neg (by simp [newline])).trans (if_neg (by simp [opens]))
  have right_eq : blockBody expr block mirror.right = _ :=
    (if_neg (by simp [newline'])).trans (if_neg (by simp [opens']))
  rw [← left, ← left'] at left_eq
  rw [← right, ← right'] at right_eq
  have whole := line.trans opened
  have closes : 0 + Token.indents mirror.left.rest ≤ Token.dedents mirror.left.rest := by
    rw [Nat.zero_add]
    exact mirror.laid.closes _ suffix_rfl
  have owes := whole.owes closes
  rw [Nat.zero_add, Nat.zero_add] at owes
  have body : inner.left.current.kind ≠ .endOfInput := by
    intro ended
    rw [dedents_ended ended inner.laid] at owes
    omega
  have first : inner.left.current.kind.isLayout = false := by
    rw [left'] at body ⊢
    exact written_after_indent indent body
  exact blockLines_tracks whole left_eq right_eq
    ((current_mirrors fun none => body (current_of_nil none)).line (Cursor.Inside.kind_ne_dedent (.inl first)))
    (blockLines_collects reads blocks owes)

theorem blockBody_mirrored : Mirrored like (blockBody expr block) := by
  intro mirror inside
  by_cases newline : mirror.left.current.kind = .newline
  · by_cases opens : mirror.left.peek.kind = .indent
    · exact blockBody_lines_tracks reads blocks newline opens
    · exact blockBody_missing_tracks newline opens
  · exact blockBody_line_tracks reads inside newline

end Parser

theorem Parser.nestedBlock_mirrored (like : Likeness) (depth : Nat) : Mirrored like (nestedBlock depth) := by
  induction depth with
  | zero =>
    intro mirror inside
    exact .fail inside .tooDeep (by simp)
  | succ depth ih => exact blockBody_mirrored (expression_readable like depth) ih

end SourceAudit
