import SourceAudit.Grammar.Cursor
import SourceAudit.Proofs.Grammar.Likeness

namespace SourceAudit

theorem rel_ite {α β : Type} {R : α → β → Prop} {c d : Prop} [Decidable c] [Decidable d] {a a' : α} {b b' : β}
    (same : c ↔ d) (yes : c → R a b) (no : ¬ c → R a' b') : R (if c then a else a') (if d then b else b') := by
  by_cases holds : c
  · rw [if_pos holds, if_pos (same.mp holds)]
    exact yes holds
  · rw [if_neg holds, if_neg (mt same.mpr holds)]
    exact no holds

namespace Token

/-- The closing brackets still owed after a delimiter, innermost first; none if it closes a bracket
    that is not the innermost one. -/
def owedAt (owed : List String) (symbol : String) : Option (List String) :=
  match symbol with
  | "(" => some (")" :: owed)
  | "[" => some ("]" :: owed)
  | "\x7b" => some ("\x7d" :: owed)
  | ")" | "]" | "\x7d" =>
    match owed with
    | [] => none
    | closer :: outer => if closer = symbol then some outer else none
  | _ => some owed

/-- The closing brackets owed after a token. There is no way on from an illegal token or from the end
    of a line inside brackets. -/
def owedAfter (owed : List String) (token : Token) : Option (List String) :=
  match token.kind with
  | .illegal => none
  | .newline => if owed = [] then some [] else none
  | .delimiter => owedAt owed token.text
  | _ => some owed

def owedThrough (owed : List String) (tokens : List Token) : Option (List String) :=
  tokens.foldlM owedAfter owed

theorem owedThrough_append (owed : List String) (front back : List Token) :
    owedThrough owed (front ++ back) = (owedThrough owed front).bind (owedThrough · back) := by
  unfold owedThrough
  rw [List.foldlM_append]
  rfl

theorem owedThrough_singleton (owed : List String) (token : Token) :
    owedThrough owed [token] = owedAfter owed token := by
  unfold owedThrough
  rw [List.foldlM_cons]
  cases owedAfter owed token <;> rfl

theorem kind_of_isKeyword {token : Token} {word : String} (found : token.isKeyword word = true) :
    token.kind = .keyword := by
  simp only [isKeyword, Bool.and_eq_true, beq_iff_eq] at found
  exact found.1

theorem Alike.test {α : Type} {lines : Nat → Nat → Prop} {token other : Token}
    (alike : token.Alike lines other) (test : Token → α)
    (blind : ∀ token line, test { token with line } = test token) : test other = test token := by
  have same : other = { token with line := other.line } := by
    obtain ⟨kind, text, _⟩ := alike
    cases token
    cases other
    simp_all
  rw [same]
  exact blind token other.line

end Token

namespace SyntaxError

/-- Whether the error was raised at an indent, where a compound statement had to go on. -/
def strandsIndent (error : SyntaxError) : Bool :=
  match error.cause with
  | .expected .decorated found | .expected .handlerOrFinally found => found.kind == .indent
  | _ => false

theorem Alike.atToken {lines : Nat → Nat → Prop} {token other : Token} {cause cause' : Cause}
    (alike : token.Alike lines other) (causes : Cause.Alike lines cause cause') :
    (atToken token cause).Alike lines (atToken other cause') := by
  refine ⟨alike.line, ?_⟩
  unfold SyntaxError.atToken
  rw [alike.test (·.fault?) fun _ _ => rfl]
  cases token.fault? with
  | none => exact causes
  | some fault => exact .same _ (by simp)

theorem strandsIndent_atToken {token : Token} {cause : Cause}
    (quiet : strandsIndent ⟨token.line, cause⟩ = false) :
    (atToken token cause).strandsIndent = false := by
  unfold SyntaxError.atToken
  cases token.fault? with
  | none => exact quiet
  | some fault => rfl

theorem strandsIndent_of_plain {line : Nat} {cause : Cause} (plain : ∀ what found, cause ≠ .expected what found) :
    strandsIndent ⟨line, cause⟩ = false := by
  unfold strandsIndent
  split
  · rename_i found same
    exact absurd same (plain _ _)
  · rename_i found same
    exact absurd same (plain _ _)
  · rfl

theorem strandsIndent_expected (what : Expected) (token : Token) :
    (atToken token (.expected what token)).strandsIndent = true ↔
      token.kind = .indent ∧ (what = .decorated ∨ what = .handlerOrFinally) := by
  unfold SyntaxError.atToken
  cases fault : token.fault? with
  | none =>
    cases what <;> simp [strandsIndent]
  | some found =>
    have illegal : token.kind = .illegal := by
      unfold Token.fault? at fault
      split at fault
      · assumption
      · cases fault
    simp [strandsIndent, illegal]

end SyntaxError

namespace Cursor

def push (cursor : Cursor) (tokens : List Token) : Cursor where
  rest := tokens ++ cursor.rest
  final := cursor.final
  errors := cursor.errors

theorem current_push_nil (cursor : Cursor) : (cursor.push []).current = cursor.current := rfl

theorem current_push_cons (cursor : Cursor) (token : Token) (tokens : List Token) :
    (cursor.push (token :: tokens)).current = token := rfl

theorem advance_push_cons (cursor : Cursor) (token : Token) (tokens : List Token) :
    (cursor.push (token :: tokens)).advance = cursor.push tokens :=
  eq_of_parts rfl rfl rfl

theorem current_advance (cursor : Cursor) : cursor.advance.current = cursor.peek := by
  unfold peek current advance drop
  rw [List.head?_drop]
  rfl

theorem size_push (cursor : Cursor) (tokens : List Token) :
    (cursor.push tokens).size = tokens.length + cursor.rest.length := by
  simp [push]

end Cursor

namespace Parser

variable {α γ : Type} {cursor stop : Cursor} {error : SyntaxError}

section

variable {test : Token → Bool}

theorem accept_of_true (passes : test cursor.current = true) :
    accept test cursor = .ok true cursor.advance := by
  change (if test cursor.current = true then _ else _ : Parser Bool) cursor = _
  rw [passes]
  rfl

theorem accept_of_false (plain : test cursor.current = false) : accept test cursor = .ok false cursor := by
  change (if test cursor.current = true then _ else _ : Parser Bool) cursor = _
  rw [plain]
  rfl

end

section

variable {first : Parser α} {next : α → Parser γ}

theorem bind_ok {value : α} (run : first cursor = .ok value stop) :
    (first >>= next) cursor = next value stop := by
  change EStateM.bind first next cursor = _
  simp only [EStateM.bind, run]

theorem bind_error (run : first cursor = .error error stop) :
    (first >>= next) cursor = .error error stop := by
  change EStateM.bind first next cursor = _
  simp only [EStateM.bind, run]

end

section

variable {step : Parser (Option α)} {value : α}

theorem many_error (run : step cursor = .error error stop) : many step cursor = .error error stop := by
  rw [many, run]

theorem many_none (run : step cursor = .ok none stop) : many step cursor = .ok [] stop := by
  rw [many, run]

theorem many_some (run : step cursor = .ok (some value) stop) (shorter : stop.size < cursor.size) :
    many step cursor = ((value :: ·) <$> many step) stop := by
  rw [many, run]
  simp only [shorter, ↓reduceIte]
  change _ = EStateM.map (value :: ·) (many step) stop
  unfold EStateM.map
  cases many step stop <;> rfl

theorem many_last (run : step cursor = .ok (some value) stop) (shorter : ¬ stop.size < cursor.size) :
    many step cursor = .ok [value] stop := by
  rw [many, run]
  simp only [shorter, ↓reduceIte]

theorem many_bind_some {next : List α → Parser γ} (run : step cursor = .ok (some value) stop)
    (shorter : stop.size < cursor.size) :
    (many step >>= next) cursor = (many step >>= fun values => next (value :: values)) stop := by
  have same : (many step >>= next) cursor = (((value :: ·) <$> many step) >>= next) stop := by
    change EStateM.bind _ _ _ = EStateM.bind _ _ _
    simp only [EStateM.bind, many_some run shorter]
  rw [same, bind_map_left]

end

end Parser

/-- Two cursors that stand before alike tokens, up to the layout tokens that end their line. -/
structure Twins (like : Likeness) where
  leftEnd : Cursor
  rightEnd : Cursor
  leftRun : List Token
  rightRun : List Token
  alike : List.Forall₂ (Token.Alike like.line) leftRun rightRun
  written : ∀ token ∈ leftRun, token.kind.isLayout = false
  layout : leftEnd.current.kind.isLayout = true
  ends : leftEnd.current.Alike like.line rightEnd.current

namespace Twins

variable {like : Likeness} {α β γ δ : Type}

def left (twins : Twins like) : Cursor := twins.leftEnd.push twins.leftRun

def right (twins : Twins like) : Cursor := twins.rightEnd.push twins.rightRun

def skip (twins : Twins like) (count : Nat) : Twins like :=
  { twins with
    leftRun := twins.leftRun.drop count
    rightRun := twins.rightRun.drop count
    alike := List.forall₂_drop count twins.alike
    written := fun token member => twins.written token (List.mem_of_mem_drop member) }

@[simp] theorem skip_zero (twins : Twins like) : twins.skip 0 = twins := rfl

@[simp] theorem skip_skip (twins : Twins like) (first second : Nat) :
    (twins.skip first).skip second = twins.skip (first + second) := by
  simp [skip, List.drop_drop]

theorem current_alike (twins : Twins like) :
    twins.left.current.Alike like.line twins.right.current := by
  unfold left right
  have alike := twins.alike
  generalize twins.leftRun = run at alike
  generalize twins.rightRun = other at alike
  cases alike with
  | nil => exact twins.ends
  | cons first => exact first

theorem exists_of_written {twins : Twins like} (written : twins.left.current.kind.isLayout = false) :
    ∃ token other run run', twins.leftRun = token :: run ∧ twins.rightRun = other :: run' := by
  obtain ⟨leftEnd, rightEnd, leftRun, rightRun, alike, content, layout, ends⟩ := twins
  cases alike with
  | nil =>
    simp only [left, Cursor.current_push_nil] at written
    rw [layout] at written
    cases written
  | cons first others => exact ⟨_, _, _, _, rfl, rfl⟩

theorem advance_eq {twins : Twins like} (written : twins.left.current.kind.isLayout = false) :
    twins.left.advance = (twins.skip 1).left ∧ twins.right.advance = (twins.skip 1).right := by
  obtain ⟨token, other, run, run', left_eq, right_eq⟩ := exists_of_written written
  change (twins.leftEnd.push twins.leftRun).advance = twins.leftEnd.push (twins.leftRun.drop 1) ∧
    (twins.rightEnd.push twins.rightRun).advance = twins.rightEnd.push (twins.rightRun.drop 1)
  rw [left_eq, right_eq]
  exact ⟨Cursor.advance_push_cons _ _ _, Cursor.advance_push_cons _ _ _⟩

theorem peek_alike {twins : Twins like} (written : twins.left.current.kind.isLayout = false) :
    twins.left.peek.Alike like.line twins.right.peek := by
  obtain ⟨left_eq, right_eq⟩ := advance_eq written
  rw [← Cursor.current_advance, ← Cursor.current_advance, left_eq, right_eq]
  exact (twins.skip 1).current_alike

section

variable (twins : Twins like) {count : Nat}

theorem size_left_lt : (twins.skip count).left.size < twins.left.size ↔
    (twins.skip count).leftRun.length < twins.leftRun.length := by
  simp only [left, Cursor.size_push]
  exact Nat.add_lt_add_iff_right

theorem size_right_lt : (twins.skip count).right.size < twins.right.size ↔
    (twins.skip count).leftRun.length < twins.leftRun.length := by
  simp only [right, Cursor.size_push, twins.alike.length_eq, (twins.skip count).alike.length_eq]
  exact Nat.add_lt_add_iff_right

end

/-- What two parsers do with alike tokens: they take equally many of them and end alike, and an error
    leaves no indent behind. -/
inductive Reads (twins : Twins like) (V : α → β → Prop) (parser : Parser α) (other : Parser β) : Prop where
  | ok {value : α} {value' : β} (count : Nat)
      (left : parser twins.left = .ok value (twins.skip count).left)
      (right : other twins.right = .ok value' (twins.skip count).right) (alike : V value value')
  | error {error error' : SyntaxError} (count : Nat)
      (left : parser twins.left = .error error (twins.skip count).left)
      (right : other twins.right = .error error' (twins.skip count).right)
      (alike : error.Alike like.line error') (quiet : error.strandsIndent = false)

end Twins

def Likeness.Reads {α β : Type} (like : Likeness) (V : α → β → Prop) (parser : Parser α) (other : Parser β) :
    Prop :=
  ∀ twins : Twins like, twins.Reads V parser other

abbrev Twins.Keeps {like : Likeness} {α : Type} (twins : Twins like) (V : α → α → Prop) (parser : Parser α) : Prop :=
  twins.Reads V parser parser

abbrev Likeness.Keeps {α : Type} (like : Likeness) (V : α → α → Prop) (parser : Parser α) : Prop :=
  like.Reads V parser parser

variable {like : Likeness} {α β γ δ : Type} {V : α → β → Prop} {W : γ → δ → Prop}
  {parser : Parser α} {other : Parser β}

namespace Twins.Reads

variable {twins : Twins like}

theorem after_skip {count : Nat} {parser' : Parser α} {other' : Parser β}
    (left : parser' twins.left = parser (twins.skip count).left)
    (right : other' twins.right = other (twins.skip count).right)
    (onward : (twins.skip count).Reads V parser other) : twins.Reads V parser' other' := by
  rcases onward with ⟨more, left', right', alike⟩ | ⟨more, left', right', alike, quiet⟩
  · rw [skip_skip] at left' right'
    exact .ok (count + more) (left.trans left') (right.trans right') alike
  · rw [skip_skip] at left' right'
    exact .error (count + more) (left.trans left') (right.trans right') alike quiet

/-- Like `bind`, for a second parser that relies on where the first one stopped. -/
theorem bind_at {next : α → Parser γ} {next' : β → Parser δ} (first : twins.Reads V parser other)
    (second : ∀ count value value', parser twins.left = .ok value (twins.skip count).left →
      V value value' → (twins.skip count).Reads W (next value) (next' value')) :
    twins.Reads W (parser >>= next) (other >>= next') := by
  cases first with
  | error count left right alike quiet =>
    exact .error count (Parser.bind_error left) (Parser.bind_error right) alike quiet
  | ok count left right alike =>
    exact after_skip (Parser.bind_ok left) (Parser.bind_ok right) (second count _ _ left alike)

theorem bind {next : α → Parser γ} {next' : β → Parser δ} (first : twins.Reads V parser other)
    (second : ∀ value value', V value value' → like.Reads W (next value) (next' value')) :
    twins.Reads W (parser >>= next) (other >>= next') :=
  first.bind_at fun _ value value' _ alike => second value value' alike _

theorem skip {next : Parser γ} {next' : Parser δ} (first : twins.Reads V parser other)
    (second : like.Reads W next next') :
    twins.Reads W (parser >>= fun _ => next) (other >>= fun _ => next') :=
  first.bind fun _ _ _ => second

theorem mono {W : α → β → Prop} (reads : twins.Reads V parser other)
    (weaken : ∀ value value', V value value' → W value value') : twins.Reads W parser other := by
  cases reads with
  | error count left right alike quiet => exact .error count left right alike quiet
  | ok count left right alike => exact .ok count left right (weaken _ _ alike)

theorem current {next : Token → Parser α} {next' : Token → Parser β}
    (reads : twins.Reads V (next twins.left.current) (next' twins.right.current)) :
    twins.Reads V (Parser.current >>= next) (Parser.current >>= next') :=
  after_skip rfl rfl ((twins.skip_zero).symm ▸ reads)

theorem peek {next : Token → Parser α} {next' : Token → Parser β}
    (reads : twins.Reads V (next twins.left.peek) (next' twins.right.peek)) :
    twins.Reads V (Parser.peek >>= next) (Parser.peek >>= next') :=
  after_skip rfl rfl ((twins.skip_zero).symm ▸ reads)

theorem advance (written : twins.left.current.kind.isLayout = false) :
    twins.Keeps (fun token other => token = twins.left.current ∧ token.Alike like.line other) Parser.advance := by
  obtain ⟨left_eq, right_eq⟩ := advance_eq written
  exact .ok 1 (congrArg (EStateM.Result.ok _) left_eq) (congrArg (EStateM.Result.ok _) right_eq)
    ⟨rfl, twins.current_alike⟩

end Twins.Reads

namespace Likeness.Reads

theorem pure {value : α} {value' : β} (alike : V value value') :
    like.Reads V (Pure.pure value) (Pure.pure value') :=
  fun _ => .ok 0 rfl rfl alike

theorem bind {next : α → Parser γ} {next' : β → Parser δ} (first : like.Reads V parser other)
    (second : ∀ value value', V value value' → like.Reads W (next value) (next' value')) :
    like.Reads W (parser >>= next) (other >>= next') :=
  fun twins => (first twins).bind second

theorem skip {next : Parser γ} {next' : Parser δ} (first : like.Reads V parser other)
    (second : like.Reads W next next') :
    like.Reads W (parser >>= fun _ => next) (other >>= fun _ => next') :=
  first.bind fun _ _ _ => second

theorem mono {W : α → β → Prop} (reads : like.Reads V parser other)
    (weaken : ∀ value value', V value value' → W value value') : like.Reads W parser other :=
  fun twins => (reads twins).mono weaken

theorem map {f : α → γ} {g : β → δ} (reads : like.Reads V parser other)
    (alike : ∀ value value', V value value' → W (f value) (g value')) :
    like.Reads W (f <$> parser) (g <$> other) := by
  rw [map_eq_pure_bind, map_eq_pure_bind]
  exact reads.bind fun value value' same => .pure (alike value value' same)

theorem ite {condition : Prop} [Decidable condition] {parser' : Parser α} {other' : Parser β}
    (yes : like.Reads V parser other) (no : like.Reads V parser' other') :
    like.Reads V (if condition then parser else parser') (if condition then other else other') :=
  fun twins => rel_ite Iff.rfl (fun _ => yes twins) fun _ => no twins

theorem choice {test test' : Parser Bool} {parser' : Parser α} {other' : Parser β}
    (asks : like.Reads Eq test test')
    (yes : like.Reads V parser other) (no : like.Reads V parser' other') :
    like.Reads V (test >>= fun taken => if taken = true then parser else parser')
      (test' >>= fun taken => if taken = true then other else other') := by
  refine asks.bind ?_
  rintro taken _ rfl
  exact .ite yes no

theorem throw {error error' : SyntaxError} (alike : error.Alike like.line error')
    (quiet : error.strandsIndent = false) :
    like.Reads V (MonadExcept.throw error) (MonadExcept.throw error') :=
  fun _ => .error 0 rfl rfl alike quiet

theorem fail (cause : SyntaxError.Cause) (plain : ∀ what found, cause ≠ .expected what found) :
    like.Reads V (Parser.fail cause) (Parser.fail cause) := by
  intro twins
  refine .error 0 rfl rfl (.atToken twins.current_alike (.same cause plain)) ?_
  exact SyntaxError.strandsIndent_atToken (SyntaxError.strandsIndent_of_plain plain)

theorem unexpected (what : Expected) (inner : what ≠ .decorated ∧ what ≠ .handlerOrFinally) :
    like.Reads V (Parser.unexpected what) (Parser.unexpected what) := by
  intro twins
  refine .error 0 rfl rfl (.atToken twins.current_alike (.expected what twins.current_alike)) ?_
  rw [Bool.eq_false_iff, ne_eq, SyntaxError.strandsIndent_expected]
  exact fun strands => strands.2.elim inner.1 inner.2

theorem ask (test : Token → Bool) (blind : ∀ token line, test { token with line } = test token) :
    like.Keeps Eq (return test (← Parser.current)) := by
  intro twins
  apply Twins.Reads.current
  rw [twins.current_alike.test test blind]
  exact pure rfl twins

theorem tested {test : Token → Bool} {parser' : Parser α} {other' : Parser β}
    (blind : ∀ token line, test { token with line } = test token)
    (yes : like.Reads V parser other) (no : like.Reads V parser' other') :
    like.Reads V (Parser.current >>= fun token => if test token = true then parser else parser')
      (Parser.current >>= fun token => if test token = true then other else other') := by
  intro twins
  apply Twins.Reads.current
  rw [twins.current_alike.test test blind]
  exact ite yes no twins

theorem accept {test : Token → Bool} (blind : ∀ token line, test { token with line } = test token)
    (written : ∀ token : Token, test token = true → token.kind.isLayout = false) :
    like.Keeps Eq (Parser.accept test) := by
  intro twins
  apply Twins.Reads.current
  rw [twins.current_alike.test test blind]
  refine rel_ite Iff.rfl ?_ ?_
  · intro passes
    exact (Twins.Reads.advance (written _ passes)).skip (pure rfl)
  · intro _
    exact pure rfl twins

theorem atOperator (symbol : String) :
    like.Keeps Eq (Parser.atOperator symbol) :=
  ask (·.isOperator symbol) fun _ _ => rfl

theorem atDelimiter (symbol : String) :
    like.Keeps Eq (Parser.atDelimiter symbol) :=
  ask (·.isDelimiter symbol) fun _ _ => rfl

theorem atKeyword {word : String} {parser' : Parser α} {other' : Parser β}
    (yes : ∀ twins : Twins like, twins.left.current.isKeyword word = true → twins.Reads V parser other)
    (no : like.Reads V parser' other') :
    like.Reads V (Parser.atKeyword word >>= fun found => if found = true then parser else parser')
      (Parser.atKeyword word >>= fun found => if found = true then other else other') := by
  intro twins
  have same := twins.current_alike.test (·.isKeyword word) fun _ _ => rfl
  unfold Parser.atKeyword
  rw [bind_assoc, bind_assoc]
  exact .current (rel_ite (by rw [same]) (yes twins) fun _ => no twins)

theorem line : like.Keeps like.line Parser.line :=
  fun twins => .current (pure twins.current_alike.line twins)

theorem acceptWritten {kind : Token.Kind} (written : kind.isLayout = false) (text : String) :
    like.Keeps Eq (Parser.accept fun token => token.kind == kind && token.text == text) := by
  refine accept (fun _ _ => rfl) fun token passes => ?_
  simp only [Bool.and_eq_true, beq_iff_eq] at passes
  rw [passes.1]
  exact written

theorem acceptKeyword (word : String) :
    like.Keeps Eq (Parser.acceptKeyword word) :=
  acceptWritten rfl word

theorem acceptOperator (symbol : String) :
    like.Keeps Eq (Parser.acceptOperator symbol) :=
  acceptWritten rfl symbol

theorem acceptDelimiter (symbol : String) :
    like.Keeps Eq (Parser.acceptDelimiter symbol) :=
  acceptWritten rfl symbol

theorem expectKeyword (word : String) :
    like.Keeps (fun _ _ => True) (Parser.expectKeyword word) :=
  choice (acceptKeyword word) (pure trivial) (unexpected _ (by simp))

theorem expectDelimiter (symbol : String) :
    like.Keeps (fun _ _ => True) (Parser.expectDelimiter symbol) :=
  choice (acceptDelimiter symbol) (pure trivial) (unexpected _ (by simp))

theorem closed (symbol : String) {value : α} {value' : β} (alike : V value value') :
    like.Reads V (do Parser.expectDelimiter symbol; return value)
      (do Parser.expectDelimiter symbol; return value') :=
  skip (expectDelimiter symbol) (pure alike)

theorem expectIdentifier (what : Expected)
    (inner : what ≠ .decorated ∧ what ≠ .handlerOrFinally) :
    like.Keeps Eq (Parser.expectIdentifier what) := by
  intro twins
  apply Twins.Reads.current
  rw [twins.current_alike.test (·.kind) fun _ _ => rfl]
  refine rel_ite Iff.rfl ?_ ?_
  · intro identifier
    refine .bind (.advance (by rw [identifier]; rfl)) ?_
    intro token other same
    exact pure same.2.text
  · intro _
    exact unexpected what inner twins

theorem whenever {test test' : Parser Bool} (asks : like.Reads Eq test test')
    (reads : like.Reads V parser other) :
    like.Reads (Option.Rel V) (Parser.whenever test parser) (Parser.whenever test' other) :=
  choice asks (bind reads fun _ _ alike => pure (.some alike)) (pure .none)

theorem many {step : Parser (Option α)} {step' : Parser (Option β)}
    (reads : like.Reads (Option.Rel V) step step') :
    like.Reads (List.Forall₂ V) (Parser.many step) (Parser.many step') := by
  intro twins
  induction size : twins.leftRun.length using Nat.strongRecOn generalizing twins with
  | ind size ih =>
    subst size
    cases reads twins with
    | error count left right alike quiet =>
      exact .error count (Parser.many_error left) (Parser.many_error right) alike quiet
    | ok count left right alike =>
      cases alike with
      | none => exact .ok count (Parser.many_none left) (Parser.many_none right) .nil
      | @some value value' alike =>
        by_cases shorter : (twins.skip count).leftRun.length < twins.leftRun.length
        · have rest := ih _ shorter (twins.skip count) rfl
          refine .after_skip (Parser.many_some left ?_) (Parser.many_some right ?_) ?_
          · exact twins.size_left_lt.mpr shorter
          · exact twins.size_right_lt.mpr shorter
          · rw [map_eq_pure_bind, map_eq_pure_bind]
            exact rest.bind fun values values' alikes => pure (.cons alike alikes)
        · refine .ok count (Parser.many_last left ?_) (Parser.many_last right ?_) (.cons alike .nil)
          · exact mt twins.size_left_lt.mp shorter
          · exact mt twins.size_right_lt.mp shorter

theorem moreItems {stop : Token → Bool} {item : Parser α} {item' : Parser β}
    (blind : ∀ token line, stop { token with line } = stop token) (reads : like.Reads V item item') :
    like.Reads (List.Forall₂ V) (Parser.moreItems stop item) (Parser.moreItems stop item') := by
  refine many (choice (acceptDelimiter ",") (tested blind (pure .none) ?_) (pure .none))
  exact reads.map fun _ _ alike => .some alike

theorem items {stop : Token → Bool} {item : Parser α} {item' : Parser β}
    (blind : ∀ token line, stop { token with line } = stop token) (reads : like.Reads V item item') :
    like.Reads (List.Forall₂ V) (Parser.items stop item) (Parser.items stop item') := by
  refine tested blind (pure .nil) (bind reads ?_)
  intro value value' alike
  exact bind (moreItems blind reads) fun values values' alikes => pure (.cons alike alikes)

theorem apart {inner : Twins like} (reads : inner.Reads V parser other) :
    like.Reads V (Parser.apart parser inner.left) (Parser.apart other inner.right) := by
  unfold Parser.apart
  cases reads with
  | error count left right alike quiet =>
    rw [left, right]
    exact throw alike quiet
  | ok count left right alike =>
    rw [left, right]
    exact pure alike

theorem mapM {P : α → β → Prop} {f : α → Parser γ} {g : β → Parser δ} {list : List α} {list' : List β}
    (alikes : List.Forall₂ P list list')
    (reads : ∀ value value', P value value' → like.Reads W (f value) (g value')) :
    like.Reads (List.Forall₂ W) (list.mapM f) (list'.mapM g) := by
  induction alikes with
  | nil => exact pure .nil
  | cons first others ih =>
    rw [List.mapM_cons, List.mapM_cons]
    refine bind (reads _ _ first) ?_
    intro result result' alike
    exact bind ih fun results results' alikes => pure (.cons alike alikes)

end Likeness.Reads
end SourceAudit
