import SourceAudit.Proofs.Grammar.LineReading
import SourceAudit.Proofs.Grammar.Recovery

open List

namespace SourceAudit

open Layout

def clauseWords : List String := ["elif", "else", "except", "finally"]

structure Likeness.Reflexive (like : Likeness) : Prop where
  line : ∀ line, like.line line line
  stmt : ∀ stmt, like.stmt stmt stmt

def SyntaxError.stranded (errors : List SyntaxError) : Nat := errors.countP (·.strandsIndent)

theorem SyntaxError.stranded_append (errors more : List SyntaxError) :
    stranded (errors ++ more) = stranded errors + stranded more :=
  countP_append

namespace Cursor

def Inside (cursor : Cursor) : Prop :=
  cursor.current.kind.isLayout = false ∨ cursor.current.kind = .newline

theorem Inside.kind_ne_dedent {cursor : Cursor} (inside : cursor.Inside) :
    cursor.current.kind ≠ .dedent := by
  intro dedent
  rcases inside with written | newline
  · rw [dedent] at written
    cases written
  · rw [dedent] at newline
    cases newline

theorem Inside.kind_ne_indent {cursor : Cursor} (inside : cursor.Inside) :
    cursor.current.kind ≠ .indent := by
  intro indent
  rcases inside with written | newline
  · rw [indent] at written
    cases written
  · rw [indent] at newline
    cases newline

def reportAll (cursor : Cursor) (errors : List SyntaxError) : Cursor :=
  { cursor with errors := cursor.errors ++ errors }

theorem push_nil (cursor : Cursor) : cursor.push [] = cursor :=
  eq_of_parts rfl rfl rfl

theorem push_push (cursor : Cursor) (front back : List Token) :
    (cursor.push back).push front = cursor.push (front ++ back) :=
  eq_of_parts (append_assoc _ _ _).symm rfl rfl

theorem exists_push {tokens front back : List Token} (split : tokens = front ++ back) :
    ∃ rest : Cursor, rest.rest = back ∧ rest.errors = [] ∧ rest.push front = ofTokens tokens :=
  ⟨{ rest := back, final := (ofTokens tokens).final, errors := [] }, rfl, rfl,
    eq_of_parts split.symm rfl rfl⟩

theorem reportAll_nil (cursor : Cursor) : cursor.reportAll [] = cursor :=
  eq_of_parts rfl rfl (append_nil _)

theorem reportAll_reportAll (cursor : Cursor) (errors more : List SyntaxError) :
    (cursor.reportAll errors).reportAll more = cursor.reportAll (errors ++ more) :=
  eq_of_parts rfl rfl (append_assoc _ _ _)

end Cursor

/-- Alike tokens of two readings. The line of a dedent shows in errors only. -/
structure Token.Mirrors (like : Likeness) (token other : Token) : Prop where
  alike : token.Alike like.error other
  line : token.kind ≠ .dedent → like.line token.line other.line

theorem Token.Alike.mirrors {like : Likeness} {token other : Token} (alike : token.Alike like.line other) :
    token.Mirrors like other :=
  ⟨alike.mono like.error_of_line, fun _ => alike.line⟩

theorem Token.Mirrors.written {like : Likeness} {token other : Token} (mirrors : token.Mirrors like other)
    (written : token.kind ≠ .dedent) : token.Alike like.line other :=
  ⟨mirrors.alike.kind, mirrors.alike.text, mirrors.line written⟩

/-- Two cursors before alike tokens, whole lines of them. On the left the input ends after these; on
    the right something else may follow that belongs to no statement before it. -/
@[ext] structure Mirror (like : Likeness) where
  leftEnd : Cursor
  rightEnd : Cursor
  leftRun : List Token
  rightRun : List Token
  alike : List.Forall₂ (Token.Mirrors like) leftRun rightRun
  laid : Laid (leftRun ++ leftEnd.rest)
  ended : leftEnd.current.kind = .endOfInput
  apart : rightEnd.current.kind ≠ .indent ∧
    ∀ word ∈ clauseWords, rightEnd.current.isKeyword word = false
  kept : like.Reflexive ∨ ∃ token ∈ leftRun, token.kind = .endOfInput

namespace Mirror

variable {like : Likeness} {α β γ δ : Type}

def left (mirror : Mirror like) : Cursor := mirror.leftEnd.push mirror.leftRun

def right (mirror : Mirror like) : Cursor := mirror.rightEnd.push mirror.rightRun

def Before (mirror : Mirror like) (count : Nat) : Prop :=
  ∀ token ∈ mirror.leftRun.take count, token.kind ≠ .endOfInput

def move (mirror : Mirror like) (count : Nat) (new new' : List SyntaxError)
    (before : mirror.Before count) : Mirror like where
  leftEnd := mirror.leftEnd.reportAll new
  rightEnd := mirror.rightEnd.reportAll new'
  leftRun := mirror.leftRun.drop count
  rightRun := mirror.rightRun.drop count
  alike := forall₂_drop count mirror.alike
  laid := by
    have laid := mirror.laid
    rw [← take_append_drop count mirror.leftRun, append_assoc] at laid
    exact laid.suffix
  ended := mirror.ended
  apart := mirror.apart
  kept := by
    refine mirror.kept.imp id ?_
    rintro ⟨token, member, ended⟩
    rw [← take_append_drop count mirror.leftRun] at member
    rcases mem_append.mp member with member | member
    · exact absurd ended (before token member)
    · exact ⟨token, member, ended⟩

theorem Before.add {mirror : Mirror like} {count more : Nat} {new new' : List SyntaxError}
    (before : mirror.Before count) (onward : (mirror.move count new new' before).Before more) :
    mirror.Before (count + more) := by
  intro token member
  rw [take_add] at member
  rcases mem_append.mp member with member | member
  · exact before token member
  · exact onward token member

theorem move_move (mirror : Mirror like) {count more : Nat} {new new' later later' : List SyntaxError}
    (before : mirror.Before count) (onward : (mirror.move count new new' before).Before more) :
    (mirror.move count new new' before).move more later later' onward =
      mirror.move (count + more) (new ++ later) (new' ++ later') (before.add onward) := by
  ext1
  · exact Cursor.reportAll_reportAll _ _ _
  · exact Cursor.reportAll_reportAll _ _ _
  · exact drop_drop
  · exact drop_drop

theorem before_zero (mirror : Mirror like) : mirror.Before 0 := by
  intro token member
  simp at member

theorem move_zero (mirror : Mirror like) : mirror.move 0 [] [] mirror.before_zero = mirror := by
  ext1
  · exact Cursor.reportAll_nil _
  · exact Cursor.reportAll_nil _
  · rfl
  · rfl

/-- Tokens are passed and alike errors reported for them. The tokens turn `low` open blocks into `high`, and every error
    that left an indent behind leaves one block too many. -/
structure Moves (mirror : Mirror like) (low high count : Nat) (new new' : List SyntaxError) (onward : Mirror like) :
    Prop where
  before : mirror.Before count
  eq : onward = mirror.move count new new' before
  errors : List.Forall₂ (SyntaxError.Alike like.error) new new'
  bound : count ≤ mirror.leftRun.length
  shifts : Token.Shifts low (SyntaxError.stranded new + high) (mirror.leftRun.take count)

structure Gone (mirror : Mirror like) (new : List SyntaxError) (stop : Cursor) : Prop where
  ended : stop.current.kind = .endOfInput
  laid : Laid stop.rest
  errors : stop.errors = mirror.leftEnd.errors ++ new
  inner : ∀ token ∈ mirror.leftRun, token.kind ≠ .endOfInput

def edge (mirror : Mirror like) {new : List SyntaxError} {stop : Cursor} (gone : mirror.Gone new stop) :
    Mirror like where
  leftEnd := stop
  rightEnd := mirror.rightEnd
  leftRun := []
  rightRun := []
  alike := .nil
  laid := gone.laid
  ended := gone.ended
  apart := mirror.apart
  kept := by
    refine mirror.kept.imp id ?_
    rintro ⟨token, member, ended⟩
    exact absurd ended (gone.inner token member)

namespace Moves

variable {mirror middle onward : Mirror like} {low mid high count more : Nat} {new new' later later' : List SyntaxError}

theorem refl (mirror : Mirror like) (level : Nat) : mirror.Moves level level 0 [] [] mirror := by
  refine ⟨mirror.before_zero, mirror.move_zero.symm, .nil, Nat.zero_le _, ?_⟩
  rw [SyntaxError.stranded, countP_nil, Nat.zero_add]
  exact .nil level

theorem trans (moves : mirror.Moves low mid count new new' middle)
    (onwards : middle.Moves mid high more later later' onward) :
    mirror.Moves low high (count + more) (new ++ later) (new' ++ later') onward := by
  obtain ⟨before, rfl, errors, bound, shifts⟩ := moves
  obtain ⟨before', rfl, errors', bound', shifts'⟩ := onwards
  have bound' : more ≤ (mirror.leftRun.drop count).length := bound'
  rw [length_drop] at bound'
  refine ⟨before.add before', mirror.move_move before before', rel_append errors errors', by omega, ?_⟩
  rw [take_add, SyntaxError.stranded_append, Nat.add_assoc]
  exact shifts.append (shifts'.raise _)

theorem raise (moves : mirror.Moves low high count new new' onward) (level : Nat) :
    mirror.Moves (level + low) (level + high) count new new' onward := by
  refine ⟨moves.before, moves.eq, moves.errors, moves.bound, ?_⟩
  rw [Nat.add_left_comm]
  exact moves.shifts.raise level

theorem size (moves : mirror.Moves low high count new new' onward) :
    onward.left.size + count = mirror.left.size ∧ onward.right.size + count = mirror.right.size := by
  obtain ⟨before, rfl, -, bound, -⟩ := moves
  have same := mirror.alike.length_eq
  simp only [left, right, move, Cursor.size_push, length_drop, Cursor.reportAll]
  omega

theorem left_errors (moves : mirror.Moves low high count new new' onward) :
    onward.left.errors = mirror.left.errors ++ new := by
  rw [moves.eq]
  rfl

theorem gone {stop : Cursor} (moves : mirror.Moves low high count new new' onward) (gone : onward.Gone later stop) :
    mirror.Gone (new ++ later) stop := by
  obtain ⟨before, rfl, -⟩ := moves
  refine ⟨gone.ended, gone.laid, ?_, fun token member => ?_⟩
  · rw [← append_assoc]
    exact gone.errors
  · rw [← take_append_drop count mirror.leftRun] at member
    exact (mem_append.mp member).elim (before token) (gone.inner token)

end Moves

theorem Gone.of_edge {mirror : Mirror like} {new later : List SyntaxError} {stop last : Cursor}
    {gone : mirror.Gone new stop} (onward : (mirror.edge gone).Gone later last) :
    mirror.Gone (new ++ later) last where
  ended := onward.ended
  laid := onward.laid
  errors := by
    have errors : last.errors = stop.errors ++ later := onward.errors
    rw [errors, gone.errors, append_assoc]
  inner := gone.inner

theorem Gone.moved {mirror onward : Mirror like} {new later later' : List SyntaxError} {stop : Cursor}
    (gone : mirror.Gone new stop) {low high count : Nat}
    (moves : (mirror.edge gone).Moves low high count later later' onward) : mirror.Gone (new ++ later) onward.left := by
  obtain ⟨before, rfl, -⟩ := moves
  refine ⟨?_, ?_, ?_, gone.inner⟩
  · change (Cursor.push (stop.reportAll later) (([] : List Token).drop count)).current.kind = _
    rw [drop_nil]
    exact gone.ended
  · change Laid (([] : List Token).drop count ++ stop.rest)
    rw [drop_nil]
    exact gone.laid
  · change stop.errors ++ later = _
    rw [gone.errors, append_assoc]

theorem exists_le_length {tokens tokens' : List Token} (same : tokens.length = tokens'.length) (count : Nat) :
    ∃ count', count' ≤ tokens.length ∧ tokens.drop count' = tokens.drop count ∧
      tokens'.drop count' = tokens'.drop count := by
  by_cases short : count ≤ tokens.length
  · exact ⟨count, short, rfl, rfl⟩
  · refine ⟨tokens.length, Nat.le_refl _, ?_, ?_⟩
    · rw [drop_length, drop_of_length_le (by omega)]
    · rw [same, drop_length, drop_of_length_le (by omega)]

theorem split_line {run run' tail : List Token}
    (alike : List.Forall₂ (Token.Mirrors like) run run') (laid : Laid (run ++ tail))
    (ended : ∀ token ∈ tail.head?, token.kind = .endOfInput)
    (inside : ∃ token ∈ (run ++ tail).head?, token.kind.isLayout = false ∨ token.kind = .newline) :
    ∃ line last rest line' last' rest', run = line ++ last :: rest ∧ run' = line' ++ last' :: rest' ∧
      List.Forall₂ (Token.Alike like.line) line line' ∧ last.Alike like.line last' ∧
      (∀ token ∈ line, token.kind.isLayout = false) ∧ last.kind = .newline := by
  induction alike with
  | nil =>
    obtain ⟨token, found, kinds⟩ := inside
    have kind := ended token found
    rcases kinds with written | newline
    · simp [kind, Token.Kind.isLayout] at written
    · simp [kind] at newline
  | @cons token token' run run' first others ih =>
    obtain ⟨_, ⟨⟩, kinds⟩ := inside
    by_cases newline : token.kind = .newline
    · exact ⟨[], token, run, [], token', run', rfl, rfl, .nil, first.written (by simp [newline]), by simp,
        newline⟩
    · have written := kinds.resolve_right newline
      have flat : token.kind ≠ .dedent := by
        intro dedent
        simp [dedent, Token.Kind.isLayout] at written
      have goes : ∃ next ∈ (run ++ tail).head?, next.kind.isLayout = false ∨ next.kind = .newline := by
        rw [cons_append] at laid
        cases more : run ++ tail with
        | nil =>
          have last := laid.ends token (by rw [more]; rfl)
          simp [last, Token.Kind.isLayout] at written
        | cons next rest =>
          rw [more] at laid
          exact ⟨next, rfl, laid.next.line written⟩
      obtain ⟨line, last, rest, line', last', rest', rfl, rfl, alikes, same, content, final⟩ :=
        ih laid.rest goes
      refine ⟨token :: line, last, rest, token' :: line', last', rest', rfl, rfl,
        .cons (first.written flat) alikes, same, ?_, final⟩
      intro other member
      rcases mem_cons.mp member with rfl | member
      · exact written
      · exact content other member

theorem tail_ended (mirror : Mirror like) : ∀ token ∈ mirror.leftEnd.rest.head?, token.kind = .endOfInput := by
  intro token found
  have kind := mirror.ended
  rw [Cursor.current, found] at kind
  exact kind

theorem exists_line {mirror : Mirror like} (inside : mirror.left.Inside) :
    ∃ line last rest line' last' rest', mirror.leftRun = line ++ last :: rest ∧
      mirror.rightRun = line' ++ last' :: rest' ∧ List.Forall₂ (Token.Alike like.line) line line' ∧
      last.Alike like.line last' ∧ (∀ token ∈ line, token.kind.isLayout = false) ∧
      last.kind = .newline := by
  refine split_line mirror.alike mirror.laid mirror.tail_ended ?_
  · have written : ((mirror.leftRun ++ mirror.leftEnd.rest).head?.getD mirror.left.endToken).kind.isLayout = false ∨
        ((mirror.leftRun ++ mirror.leftEnd.rest).head?.getD mirror.left.endToken).kind = .newline := inside
    cases ahead : (mirror.leftRun ++ mirror.leftEnd.rest).head? with
    | none =>
      rw [ahead] at written
      rcases written with written | written <;> cases written
    | some token =>
      rw [ahead] at written
      exact ⟨token, rfl, written⟩

theorem run_cases (mirror : Mirror like) : mirror.leftRun = [] ∧ mirror.rightRun = [] ∨
    ∃ token token' run run', mirror.leftRun = token :: run ∧ mirror.rightRun = token' :: run' ∧
      token.Mirrors like token' := by
  have alike := mirror.alike
  generalize mirror.leftRun = run at alike
  generalize mirror.rightRun = run' at alike
  cases alike with
  | nil => exact .inl ⟨rfl, rfl⟩
  | cons first others => exact .inr ⟨_, _, _, _, rfl, rfl, first⟩

theorem current_of_nil {mirror : Mirror like} (none : mirror.leftRun = []) :
    mirror.left.current.kind = .endOfInput := by
  rw [left, none]
  exact mirror.ended

theorem current_mirrors {mirror : Mirror like} (some : mirror.leftRun ≠ []) :
    mirror.left.current.Mirrors like mirror.right.current := by
  rcases mirror.run_cases with ⟨none, _⟩ | ⟨token, token', run, run', left_eq, right_eq, alike⟩
  · exact absurd none some
  · rw [left, right, left_eq, right_eq]
    exact alike

theorem current_alike {mirror : Mirror like} (some : mirror.leftRun ≠ []) :
    mirror.left.current.Alike like.error mirror.right.current :=
  (mirror.current_mirrors some).alike

theorem ne_nil_of_inside {mirror : Mirror like} (inside : mirror.left.Inside) : mirror.leftRun ≠ [] := by
  intro none
  have kind := mirror.current_of_nil none
  rcases inside with written | newline
  · simp [kind, Token.Kind.isLayout] at written
  · simp [kind] at newline

theorem isKeyword_clause (mirror : Mirror like) {word : String} (clause : word ∈ clauseWords) :
    mirror.right.current.isKeyword word = mirror.left.current.isKeyword word := by
  rcases mirror.run_cases with ⟨none, none'⟩ | ⟨token, token', run, run', some, _, _⟩
  · have left_eq : mirror.left.current.isKeyword word = false := by
      simp [Token.isKeyword, mirror.current_of_nil none]
    rw [left_eq, right, none']
    exact mirror.apart.2 word clause
  · exact (mirror.current_alike (by simp [some])).test (·.isKeyword word) fun _ _ => rfl

theorem take_one {mirror : Mirror like} (some : mirror.leftRun ≠ []) :
    mirror.leftRun.take 1 = [mirror.left.current] := by
  rcases mirror.run_cases with ⟨none, _⟩ | ⟨token, token', run, run', left_eq, _, _⟩
  · exact absurd none some
  · rw [left, left_eq]
    rfl

theorem before_one {mirror : Mirror like} (more : mirror.left.current.kind ≠ .endOfInput) :
    mirror.Before 1 := by
  intro token member
  rw [mirror.take_one fun none => more (mirror.current_of_nil none), mem_singleton] at member
  rw [member]
  exact more

section

variable {mirror : Mirror like} {low high : Nat} (more : mirror.left.current.kind ≠ .endOfInput)

include more

theorem exists_report {new new' : List SyntaxError} (errors : List.Forall₂ (SyntaxError.Alike like.error) new new')
    (shifts : Token.Shifts low (SyntaxError.stranded new + high) [mirror.left.current]) :
    ∃ onward, mirror.Moves low high 1 new new' onward ∧ onward.left = mirror.left.advance.reportAll new ∧
      onward.right = mirror.right.advance.reportAll new' := by
  have some : mirror.leftRun ≠ [] := fun none => more (mirror.current_of_nil none)
  refine ⟨_, ⟨mirror.before_one more, rfl, errors, length_pos_iff.mpr some, ?_⟩, ?_⟩
  · rw [mirror.take_one some]
    exact shifts
  · rcases mirror.run_cases with ⟨none, _⟩ | ⟨token, token', run, run', left_eq, right_eq, _⟩
    · exact absurd none some
    · simp only [move, left, right, left_eq, right_eq]
      exact ⟨Cursor.eq_of_parts rfl rfl rfl, Cursor.eq_of_parts rfl rfl rfl⟩

theorem exists_advance (shifts : Token.Shifts low high [mirror.left.current]) :
    ∃ onward, mirror.Moves low high 1 [] [] onward ∧ onward.left = mirror.left.advance ∧
      onward.right = mirror.right.advance := by
  have shifts : Token.Shifts low (SyntaxError.stranded [] + high) [mirror.left.current] := by
    rwa [SyntaxError.stranded, countP_nil, Nat.zero_add]
  obtain ⟨onward, moves, left, right⟩ := mirror.exists_report more .nil shifts
  rw [Cursor.reportAll_nil] at left right
  exact ⟨onward, moves, left, right⟩

end

theorem inside_advance {mirror : Mirror like} (written : mirror.left.current.kind.isLayout = false) :
    mirror.left.advance.Inside := by
  have laid := mirror.laid
  rcases mirror.run_cases with ⟨none, _⟩ | ⟨token, _, run, _, some, _, _⟩
  · rw [mirror.current_of_nil none] at written
    cases written
  · rw [some] at laid
    rw [left, some] at written ⊢
    rw [Cursor.advance_push_cons]
    cases ahead : run ++ mirror.leftEnd.rest with
    | nil =>
      rw [cons_append, ahead] at laid
      rw [Cursor.current_push_cons, laid.ends token rfl] at written
      cases written
    | cons next more =>
      rw [cons_append, ahead] at laid
      have first : (mirror.leftEnd.push run).current = next := by
        change (run ++ mirror.leftEnd.rest).head?.getD _ = next
        rw [ahead]
        rfl
      unfold Cursor.Inside
      rw [first]
      exact laid.next.line written

/-- What two parsers of statements do with a mirror: they take equally many tokens, report alike
    errors and end alike, or the left one has met an error and comes to the end of its input. -/
inductive Tracks (mirror : Mirror like) (least : Nat) (post : α → Cursor → Prop) (V : α → β → Prop)
    (parser : Parser α) (other : Parser β) : Prop where
  | ok {value : α} {value' : β} {onward : Mirror like} {count : Nat} {new new' : List SyntaxError}
      (moves : mirror.Moves 0 0 count new new' onward) (left : parser mirror.left = .ok value onward.left)
      (right : other mirror.right = .ok value' onward.right) (alike : V value value') (taken : least ≤ count)
      (reached : post value onward.left)
  | error {error error' : SyntaxError} {onward : Mirror like} {count : Nat} {new new' : List SyntaxError}
      (moves : mirror.Moves 0 0 count new new' onward) (left : parser mirror.left = .error error onward.left)
      (right : other mirror.right = .error error' onward.right) (alike : error.Alike like.error error')
      (strands : error.strandsIndent = true ↔ onward.left.current.kind = .indent)
  | lostOk {value : α} {value' : β} {stop : Cursor} {new : List SyntaxError}
      (gone : mirror.Gone new stop) (left : parser mirror.left = .ok value stop)
      (alike : V value value') (dirty : new ≠ []) (reached : post value stop)
  | lostError {error : SyntaxError} {stop : Cursor} {new : List SyntaxError}
      (gone : mirror.Gone new stop) (left : parser mirror.left = .error error stop)

abbrev Keeps (mirror : Mirror like) (least : Nat) (V : α → α → Prop) (parser : Parser α) : Prop :=
  mirror.Tracks least (fun _ _ => True) V parser parser

namespace Tracks

variable {mirror : Mirror like} {least least' : Nat} {post : α → Cursor → Prop} {goal : γ → Cursor → Prop}
  {V : α → β → Prop} {W : γ → δ → Prop} {parser : Parser α} {other : Parser β}

theorem pure {value : α} {value' : β} (alike : V value value') (reached : post value mirror.left) :
    mirror.Tracks 0 post V (Pure.pure value) (Pure.pure value') :=
  .ok (.refl mirror 0) rfl rfl alike (Nat.zero_le _) reached

theorem after_moves {count : Nat} {new new' : List SyntaxError} {onward : Mirror like} {parser' : Parser α}
    {other' : Parser β} (moves : mirror.Moves 0 0 count new new' onward) (taken : least ≤ count)
    (left : parser' mirror.left = parser onward.left) (right : other' mirror.right = other onward.right)
    (tracks : onward.Tracks least' post V parser other) : mirror.Tracks least post V parser' other' := by
  cases tracks with
  | ok moves' left' right' alike _ reached =>
    exact .ok (moves.trans moves') (left.trans left') (right.trans right') alike (Nat.le_add_right_of_le taken) reached
  | error moves' left' right' alike strands =>
    exact .error (moves.trans moves') (left.trans left') (right.trans right') alike strands
  | lostOk gone left' alike dirty reached =>
    refine .lostOk (moves.gone gone) (left.trans left') alike ?_ reached
    exact fun clean => dirty (append_eq_nil_iff.mp clean).2
  | lostError gone left' => exact .lostError (moves.gone gone) (left.trans left')

theorem after_edge {stop : Cursor} {new : List SyntaxError} {parser' : Parser α}
    {other' : Parser β} (gone : mirror.Gone new stop) (dirty : new ≠ [])
    (left : parser' mirror.left = parser stop)
    (onward : (mirror.edge gone).Tracks least' post V parser other) :
    mirror.Tracks least post V parser' other' := by
  have soiled : ∀ later, new ++ later ≠ [] := fun later clean => dirty (append_eq_nil_iff.mp clean).1
  have still : (mirror.edge gone).left = stop := Cursor.push_nil stop
  rw [← still] at left
  cases onward with
  | ok moves left' _ alike _ reached => exact .lostOk (gone.moved moves) (left.trans left') alike (soiled _) reached
  | error moves left' => exact .lostError (gone.moved moves) (left.trans left')
  | lostOk gone' left' alike _ reached =>
    exact .lostOk (Gone.of_edge gone') (left.trans left') alike (soiled _) reached
  | lostError gone' left' => exact .lostError (Gone.of_edge gone') (left.trans left')

theorem bind {next : α → Parser γ} {next' : β → Parser δ}
    (first : mirror.Tracks least post V parser other)
    (second : ∀ (onward : Mirror like) value value', V value value' → post value onward.left →
      onward.Tracks 0 goal W (next value) (next' value')) :
    mirror.Tracks least goal W (parser >>= next) (other >>= next') := by
  cases first with
  | error moves left right alike strands =>
    exact .error moves (Parser.bind_error left) (Parser.bind_error right) alike strands
  | lostError gone left => exact .lostError gone (Parser.bind_error left)
  | ok moves left right alike taken reached =>
    exact after_moves moves taken (Parser.bind_ok left) (Parser.bind_ok right) (second _ _ _ alike reached)
  | @lostOk value value' stop new gone left alike dirty reached =>
    have still : (mirror.edge gone).left = stop := Cursor.push_nil stop
    refine after_edge gone dirty (Parser.bind_ok left) (second _ value value' alike ?_)
    rw [still]
    exact reached

theorem mono {W : α → β → Prop} {goal : α → Cursor → Prop}
    (tracks : mirror.Tracks least post V parser other)
    (weaken : ∀ value value', V value value' → W value value')
    (reach : ∀ value cursor, post value cursor → goal value cursor) (fewer : least' ≤ least) :
    mirror.Tracks least' goal W parser other := by
  cases tracks with
  | ok moves left right alike taken reached =>
    exact .ok moves left right (weaken _ _ alike) (fewer.trans taken) (reach _ _ reached)
  | error moves left right alike strands => exact .error moves left right alike strands
  | lostOk gone left alike dirty reached =>
    exact .lostOk gone left (weaken _ _ alike) dirty (reach _ _ reached)
  | lostError gone left => exact .lostError gone left

theorem map {f : α → γ} {g : β → δ} (tracks : mirror.Tracks least post V parser other)
    (alike : ∀ value value', V value value' → W (f value) (g value'))
    (reach : ∀ value cursor, post value cursor → goal (f value) cursor) :
    mirror.Tracks least goal W (f <$> parser) (g <$> other) := by
  rw [map_eq_pure_bind, map_eq_pure_bind]
  refine tracks.bind ?_
  intro onward value value' same reached
  exact .pure (alike value value' same) (reach value _ reached)

theorem relax (tracks : mirror.Tracks least post V parser other) :
    mirror.Tracks 0 post V parser other :=
  tracks.mono (fun _ _ alike => alike) (fun _ _ reached => reached) (Nat.zero_le _)

theorem lift_cases (inside : mirror.left.Inside)
    (reads : ∀ twins : Twins like, twins.left = mirror.left → twins.right = mirror.right →
      twins.Reads V parser other) :
    (∃ value value' count onward, mirror.Moves 0 0 count [] [] onward ∧
      parser mirror.left = .ok value onward.left ∧ other mirror.right = .ok value' onward.right ∧ V value value' ∧
      onward.left.Inside) ∨
    ∃ error error' count onward, mirror.Moves 0 0 count [] [] onward ∧
      parser mirror.left = .error error onward.left ∧ other mirror.right = .error error' onward.right ∧
      error.Alike like.line error' ∧ onward.left.Inside ∧ error.strandsIndent = false := by
  obtain ⟨line, last, rest, line', last', rest', run_eq, run_eq', alikes, same, content, final⟩ :=
    mirror.exists_line inside
  let twins : Twins like :=
    ⟨mirror.leftEnd.push (last :: rest), mirror.rightEnd.push (last' :: rest'), line, line', alikes, content,
      by simp [Cursor.current_push_cons, final, Token.Kind.isLayout], same⟩
  have left_eq : twins.left = mirror.left := by
    rw [Mirror.left, run_eq]
    exact Cursor.push_push _ _ _
  have right_eq : twins.right = mirror.right := by
    rw [Mirror.right, run_eq']
    exact Cursor.push_push _ _ _
  -- a place of the line is a place of the run, and it is on the line still
  have stops : ∀ count, ∃ count' onward, mirror.Moves 0 0 count' [] [] onward ∧
      (twins.skip count).left = onward.left ∧ (twins.skip count).right = onward.right ∧
      (twins.skip count).left.Inside := by
    intro count
    obtain ⟨count', bound, drop_eq, drop_eq'⟩ := exists_le_length alikes.length_eq count
    have bound' : count' ≤ line'.length := by
      rw [← alikes.length_eq]
      exact bound
    have written : ∀ token ∈ mirror.leftRun.take count', token.kind.isLayout = false := by
      intro token member
      rw [run_eq, take_append_of_le_length bound] at member
      exact content token (mem_of_mem_take member)
    refine ⟨count', _, ⟨?_, rfl, .nil, ?_, ?_⟩, ?_, ?_, ?_⟩
    · intro token member ended
      have := written token member
      simp [ended, Token.Kind.isLayout] at this
    · rw [run_eq, length_append]
      omega
    · refine .flat 0 ?_
      intro token member
      have := written token member
      constructor <;> intro kind <;> simp [kind, Token.Kind.isLayout] at this
    · refine Eq.trans (Cursor.push_push _ _ _) ?_
      change _ = Cursor.push (mirror.leftEnd.reportAll []) (mirror.leftRun.drop count')
      rw [run_eq, drop_append_of_le_length bound, drop_eq, Cursor.reportAll_nil]
      rfl
    · refine Eq.trans (Cursor.push_push _ _ _) ?_
      change _ = Cursor.push (mirror.rightEnd.reportAll []) (mirror.rightRun.drop count')
      rw [run_eq', drop_append_of_le_length bound', drop_eq', Cursor.reportAll_nil]
      rfl
    · change (Cursor.push (mirror.leftEnd.push (last :: rest)) (line.drop count)).Inside
      cases ahead : line.drop count with
      | nil => exact .inr final
      | cons token more =>
        refine .inl (content token ?_)
        refine mem_of_mem_drop (i := count) ?_
        rw [ahead]
        exact mem_cons_self
  rcases reads twins left_eq right_eq with ⟨count, left, right, alike⟩ | ⟨count, left, right, alike, quiet⟩
  all_goals
    obtain ⟨count', onward, moves, left_stop, right_stop, reached⟩ := stops count
    rw [left_eq, left_stop] at left
    rw [right_eq, right_stop] at right
    rw [left_stop] at reached
  · exact .inl ⟨_, _, count', onward, moves, left, right, alike, reached⟩
  · exact .inr ⟨_, _, count', onward, moves, left, right, alike, reached, quiet⟩

theorem lift_at (inside : mirror.left.Inside)
    (reads : ∀ twins : Twins like, twins.left = mirror.left → twins.right = mirror.right →
      twins.Reads V parser other) :
    mirror.Tracks 0 (fun _ cursor => cursor.Inside) V parser other := by
  rcases lift_cases inside reads with ⟨value, value', count, onward, moves, left, right, alike, reached⟩ |
    ⟨error, error', count, onward, moves, left, right, alike, reached, quiet⟩
  · exact .ok moves left right alike (Nat.zero_le _) reached
  · exact .error moves left right (alike.mono like.error_of_line)
      (iff_of_false (by simp [quiet]) reached.kind_ne_indent)

theorem lift (inside : mirror.left.Inside) (reads : like.Reads V parser other) :
    mirror.Tracks 0 (fun _ cursor => cursor.Inside) V parser other :=
  lift_at inside fun twins _ _ => reads twins

theorem fail (inside : mirror.left.Inside) (cause : SyntaxError.Cause)
    (plain : ∀ what found, cause ≠ .expected what found) :
    mirror.Tracks 0 (fun _ _ => True) V (Parser.fail cause) (Parser.fail cause) :=
  (lift inside (.fail cause plain)).mono (fun _ _ alike => alike) (fun _ _ _ => trivial)
    (Nat.le_refl 0)

theorem congr {parser' : Parser α} {other' : Parser β}
    (tracks : mirror.Tracks least post V parser other)
    (left : parser' mirror.left = parser mirror.left) (right : other' mirror.right = other mirror.right) :
    mirror.Tracks least post V parser' other' := by
  cases tracks with
  | ok moves left' right' alike taken reached =>
    exact .ok moves (left.trans left') (right.trans right') alike taken reached
  | error moves left' right' alike strands => exact .error moves (left.trans left') (right.trans right') alike strands
  | lostOk gone left' alike dirty reached => exact .lostOk gone (left.trans left') alike dirty reached
  | lostError gone left' => exact .lostError gone (left.trans left')

theorem current {next : Token → Parser α} {next' : Token → Parser β}
    (tracks : mirror.Tracks least post V (next mirror.left.current) (next' mirror.right.current)) :
    mirror.Tracks least post V (Parser.current >>= next) (Parser.current >>= next') :=
  tracks.congr rfl rfl

theorem unexpected (what : Expected)
    (strands : mirror.left.current.kind = .indent → what = .decorated ∨ what = .handlerOrFinally) :
    mirror.Tracks least post V (Parser.unexpected what) (Parser.unexpected what) := by
  by_cases none : mirror.leftRun = []
  · have gone : mirror.Gone [] mirror.left := by
      refine ⟨mirror.current_of_nil none, mirror.laid, (append_nil _).symm, ?_⟩
      simp [none]
    exact .lostError gone rfl
  · have alike := mirror.current_alike none
    refine .error (.refl mirror 0) rfl rfl (.atToken alike (.expected what alike)) ?_
    rw [SyntaxError.strandsIndent_expected]
    exact ⟨fun holds => holds.1, fun indent => ⟨indent, strands indent⟩⟩

theorem advance (more : mirror.left.current.kind ≠ .endOfInput)
    (flat : mirror.left.current.kind ≠ .indent ∧ mirror.left.current.kind ≠ .dedent) :
    mirror.Tracks 1 (fun _ cursor => cursor = mirror.left.advance)
      (fun token token' => token = mirror.left.current ∧ token.Alike like.line token')
      Parser.advance Parser.advance := by
  obtain ⟨onward, moves, left, right⟩ := mirror.exists_advance more (.single 0 flat.1 flat.2)
  have some : mirror.leftRun ≠ [] := fun none => more (mirror.current_of_nil none)
  exact .ok moves (congrArg (EStateM.Result.ok _) left.symm) (congrArg (EStateM.Result.ok _) right.symm)
    ⟨rfl, (mirror.current_mirrors some).written flat.2⟩ (Nat.le_refl 1) left

theorem advance_word
    (kinds : mirror.left.current.kind = .keyword ∨ mirror.left.current.kind = .operator) :
    mirror.Tracks 1 (fun _ cursor => cursor.Inside)
      (fun token token' => token = mirror.left.current ∧ token.Alike like.line token')
      Parser.advance Parser.advance := by
  have written : mirror.left.current.kind.isLayout = false := by
    rcases kinds with kind | kind <;> rw [kind] <;> rfl
  refine (advance (by rcases kinds with kind | kind <;> simp [kind])
    (by rcases kinds with kind | kind <;> simp [kind])).mono (fun _ _ alike => alike) ?_ (Nat.le_refl 1)
  rintro _ _ rfl
  exact mirror.inside_advance written

theorem expectNewline (inside : mirror.left.Inside) :
    mirror.Keeps 1 (fun _ _ => True) Parser.expectNewline := by
  have same := (mirror.current_alike (mirror.ne_nil_of_inside inside)).kind
  apply current
  rw [← same]
  rcases inside with written | newline
  · have wrong : mirror.Keeps 1 (fun _ _ => True) (Parser.unexpected .endOfLine : Parser Unit) := by
      exact .unexpected .endOfLine fun indent => absurd indent (Cursor.Inside.kind_ne_indent (.inl written))
    cases kind : mirror.left.current.kind with
    | newline => rw [kind] at written; cases written
    | endOfInput => rw [kind] at written; cases written
    | _ => exact wrong
  · rw [newline]
    refine bind (advance (by simp [newline]) (by simp [newline])) ?_
    intro _ _ _ _ _
    exact .pure trivial trivial

theorem atKeyword_bind {word : String} {parser' : Parser α} {other' : Parser β} (some : mirror.leftRun ≠ [])
    (yes : mirror.left.current.kind = .keyword → mirror.Tracks least post V parser other)
    (no : mirror.Tracks least post V parser' other') :
    mirror.Tracks least post V (Parser.atKeyword word >>= fun found => if found = true then parser else parser')
      (Parser.atKeyword word >>= fun found => if found = true then other else other') := by
  have same : mirror.right.current.isKeyword word = mirror.left.current.isKeyword word :=
    (mirror.current_alike some).test (·.isKeyword word) fun _ _ => rfl
  have chosen : mirror.Tracks least post V (if mirror.left.current.isKeyword word then parser else parser')
      (if mirror.right.current.isKeyword word then other else other') :=
    rel_ite (by rw [same]) (fun found => yes (Token.kind_of_isKeyword found)) fun _ => no
  exact chosen.congr rfl rfl

theorem atKeyword {word : String} (clause : word ∈ clauseWords) :
    mirror.Tracks 0 (fun value cursor => value = true → cursor.current.kind = .keyword) Eq
      (Parser.atKeyword word) (Parser.atKeyword word) := by
  apply current
  rw [mirror.isKeyword_clause clause]
  exact .pure rfl Token.kind_of_isKeyword

theorem acceptKeyword {word : String} (clause : word ∈ clauseWords) :
    mirror.Tracks 0 (fun value cursor => value = true → cursor.Inside)
      Eq (Parser.acceptKeyword word) (Parser.acceptKeyword word) := by
  have same : mirror.left.current.isKeyword word = true ↔ mirror.right.current.isKeyword word = true := by
    rw [mirror.isKeyword_clause clause]
  apply current
  refine rel_ite same ?_ ?_
  · intro found
    refine bind (advance_word (.inl (Token.kind_of_isKeyword found))).relax ?_
    intro _ _ _ _ inside
    exact .pure rfl fun _ => inside
  · intro _
    exact .pure rfl (by simp)

theorem whenever {test : Parser Bool} {inside : Cursor → Prop}
    (asks : mirror.Tracks 0 (fun value cursor => value = true → inside cursor) Eq test test)
    (reads : ∀ onward : Mirror like, inside onward.left →
      onward.Tracks 0 (fun _ _ => True) V parser other) :
    mirror.Tracks 0 (fun _ _ => True) (Option.Rel V) (Parser.whenever test parser) (Parser.whenever test other) := by
  refine bind asks ?_
  rintro onward taken _ rfl reached
  cases taken with
  | true =>
    refine bind (reads onward (reached rfl)) ?_
    intro _ value value' alike _
    exact .pure (.some alike) trivial
  | false => exact .pure .none trivial

theorem many {step : Parser (Option α)} {step' : Parser (Option β)}
    (reads : ∀ onward : Mirror like, onward.Tracks 0 (fun _ _ => True) (Option.Rel V) step step') :
    mirror.Tracks 0 (fun _ _ => True) (List.Forall₂ V) (Parser.many step) (Parser.many step') := by
  induction size : mirror.left.size using Nat.strongRecOn generalizing mirror with
  | ind size ih =>
    subst size
    have more : ∀ (onward : Mirror like) value value', onward.left.size < mirror.left.size → V value value' →
        onward.Tracks 0 (fun _ _ => True) (List.Forall₂ V)
          ((value :: ·) <$> Parser.many step) ((value' :: ·) <$> Parser.many step') := by
      intro onward value value' shorter alike
      exact (ih _ shorter rfl).map (fun _ _ alikes => .cons alike alikes) fun _ _ _ => trivial
    cases reads mirror with
    | error moves left right alike strands =>
      exact .error moves (Parser.many_error left) (Parser.many_error right) alike strands
    | lostError gone left => exact .lostError gone (Parser.many_error left)
    | @ok _ _ _ count _ _ moves left right alike taken =>
      cases alike with
      | none => exact .ok moves (Parser.many_none left) (Parser.many_none right) .nil taken trivial
      | some alike =>
        obtain ⟨left_size, right_size⟩ := moves.size
        by_cases progress : 0 < count
        · exact after_moves moves taken (Parser.many_some left (by omega)) (Parser.many_some right (by omega))
            (more _ _ _ (by omega) alike)
        · exact .ok moves (Parser.many_last left (by omega)) (Parser.many_last right (by omega)) (.cons alike .nil)
            taken trivial
    | @lostOk _ _ stop _ gone left alike dirty =>
      cases alike with
      | none => exact .lostOk gone (Parser.many_none left) .nil dirty trivial
      | some alike =>
        by_cases shorter : stop.size < mirror.left.size
        · have still : (mirror.edge gone).left = stop := Cursor.push_nil stop
          refine after_edge gone dirty (Parser.many_some left shorter) (more _ _ _ ?_ alike)
          rw [still]
          exact shorter
        · exact .lostOk gone (Parser.many_last left shorter) (.cons alike .nil) dirty trivial

end Tracks

end Mirror
end SourceAudit
