import SourceAudit.Proofs.Grammar.Tracking

namespace SourceAudit

open Mirror

variable {like : Likeness}

def Mirrored (like : Likeness) (block : Parser (Block Stmt)) : Prop :=
  ∀ mirror : Mirror like, mirror.left.Inside →
    mirror.Keeps 0 like.body block

namespace Parser

inductive Clause.Alike (like : Likeness) : Clause → Clause → Prop where
  | intro {m n : Nat} {a b : Expr} {c d : Block Stmt} (line : like.line m n) (test : like.expr a b)
      (body : like.body c d) : Clause.Alike like ⟨m, a, c⟩ ⟨n, b, d⟩

theorem Clause.Alike.statement {clause clause' : Clause} {alternate alternate' : Option Stmt}
    (clauses : clause.Alike like clause') (alternates : Option.Rel like.stmt alternate alternate') :
    like.stmt (clause.statement alternate) (clause'.statement alternate') := by
  cases clauses with
  | intro line test body => exact like.stmt_intro line (.ifElse test body alternates)

theorem Clause.foldr_alike {clauses clauses' : List Clause} {last last' : Option Stmt}
    (alikes : List.Forall₂ (Clause.Alike like) clauses clauses') (lasts : Option.Rel like.stmt last last') :
    Option.Rel like.stmt (clauses.foldr (fun clause rest => some (clause.statement rest)) last)
      (clauses'.foldr (fun clause rest => some (clause.statement rest)) last') := by
  induction alikes with
  | nil => exact lasts
  | cons first _ ih => exact .some (first.statement ih)

variable {mirror : Mirror like} {expr : Precedence → Parser Expr} {block : Parser (Block Stmt)}

section

variable (blocks : Mirrored like block)

include blocks

theorem suite_tracks (inside : mirror.left.Inside) :
    mirror.Keeps 0 like.body (suite block) := by
  refine .bind (.lift inside (.expectDelimiter ":")) ?_
  intro onward _ _ _ inside
  exact blocks onward inside

theorem elseSuite_tracks :
    mirror.Keeps 0 (Option.Rel like.body) (elseSuite block) :=
  .whenever (.acceptKeyword (by simp [clauseWords])) fun _ inside => suite_tracks blocks inside

theorem elseStatement_tracks :
    mirror.Keeps 0 (Option.Rel like.stmt) (elseStatement block) := by
  refine .bind (.atKeyword (by simp [clauseWords])) ?_
  rintro onward found _ rfl keyword
  cases found with
  | false => exact .pure .none trivial
  | true =>
    refine .bind (Tracks.advance_word (.inl (keyword rfl))).relax ?_
    intro onward token token' tokens inside
    refine .bind (suite_tracks blocks inside) ?_
    intro onward body body' bodies _
    exact .pure (.some (like.stmt_intro tokens.2.line (.block bodies))) trivial

end

section

variable {γ δ : Type} {goal : γ → Cursor → Prop} {W : γ → δ → Prop}
  {next : List Expr → Parser γ} {next' : List Expr → Parser δ}

theorem decorator_none {cursor : Cursor} (plain : cursor.current.isOperator "@" = false) :
    decorator expr cursor = .ok none cursor :=
  bind_ok (accept_of_false plain)

variable (reads : Readable like expr)

include reads

theorem decorator_tracks (starts : mirror.left.current.isOperator "@" = true) :
    mirror.Tracks 1 (fun value _ => value.isSome = true) (Option.Rel like.expr) (decorator expr) (decorator expr) := by
  have operator : mirror.left.current.kind = .operator := by
    simp only [Token.isOperator, Bool.and_eq_true, beq_iff_eq] at starts
    exact starts.1
  have some : mirror.leftRun ≠ [] := by
    intro none
    rw [mirror.current_of_nil none] at operator
    cases operator
  have starts' : mirror.right.current.isOperator "@" = true := by
    rw [(mirror.current_alike some).test (·.isOperator "@") fun _ _ => rfl]
    exact starts
  have taken : mirror.Tracks 1 (fun taken cursor => taken = true ∧ cursor.Inside)
      Eq (acceptOperator "@") (acceptOperator "@") := by
    apply Tracks.current
    refine rel_ite (iff_of_true starts starts') ?_ fun plain => absurd starts plain
    intro _
    refine .bind (Tracks.advance_word (.inr operator)) ?_
    intro onward _ _ _ inside
    exact .pure rfl ⟨rfl, inside⟩
  refine .bind taken ?_
  rintro onward _ _ rfl ⟨rfl, inside⟩
  refine .bind (.lift inside (reads _)) ?_
  intro onward value value' alike inside
  refine .bind (Tracks.expectNewline inside).relax ?_
  intro onward _ _ _ _
  exact .pure (.some alike) rfl

theorem decorators_step (starts : mirror.left.current.isOperator "@" = true)
    (stops : ∀ decorators cursor, cursor.current.kind = .endOfInput →
      ∃ error, next decorators cursor = .error error cursor)
    (onwards : ∀ (onward : Mirror like) value value', onward.left.size < mirror.left.size →
      like.expr value value' → onward.Tracks 0 goal W (many (decorator expr) >>= fun values => next (value :: values))
        (many (decorator expr) >>= fun values => next' (value' :: values))) :
    mirror.Tracks 1 goal W (many (decorator expr) >>= next) (many (decorator expr) >>= next') := by
  cases decorator_tracks reads starts with
  | error moves left right alike strands =>
    exact .error moves (bind_error (many_error left)) (bind_error (many_error right)) alike strands
  | lostError gone left => exact .lostError gone (bind_error (many_error left))
  | ok moves left right alike taken reached =>
    obtain ⟨left_size, right_size⟩ := moves.size
    cases alike with
    | none => cases reached
    | some alike =>
      exact .after_moves moves taken (many_bind_some left (by omega)) (many_bind_some right (by omega))
        (onwards _ _ _ (by omega) alike)
  | @lostOk _ _ stop new gone left alike dirty reached =>
    cases alike with
    | none => cases reached
    | @some value value' alike =>
      -- the input has ended, so nothing is decorated
      have plain : stop.current.isOperator "@" = false := by simp [Token.isOperator, gone.ended]
      have all : many (decorator expr) mirror.left = .ok [value] stop := by
        by_cases shorter : stop.size < mirror.left.size
        · rw [many_some left shorter]
          exact bind_ok (many_none (decorator_none plain))
        · exact many_last left shorter
      obtain ⟨error, fails⟩ := stops [value] stop gone.ended
      exact .lostError gone ((bind_ok all).trans fails)

theorem decorators_tracks
    (stops : ∀ decorators cursor, cursor.current.kind = .endOfInput →
      ∃ error, next decorators cursor = .error error cursor)
    (goes : ∀ (onward : Mirror like) decorators decorators', onward.leftRun ≠ [] →
      List.Forall₂ like.expr decorators decorators' →
      onward.Tracks 0 goal W (next decorators) (next' decorators')) :
    mirror.Tracks 0 goal W (many (decorator expr) >>= next) (many (decorator expr) >>= next') := by
  induction size : mirror.left.size using Nat.strongRecOn generalizing mirror next next' with
  | ind size ih =>
    subst size
    cases starts : mirror.left.current.isOperator "@" with
    | true =>
      refine (decorators_step reads starts stops ?_).relax
      intro onward value value' shorter alike
      refine ih _ shorter ?_ ?_ rfl
      · intro decorators cursor ended
        exact stops (value :: decorators) cursor ended
      · intro onward decorators decorators' some alikes
        exact goes onward _ _ some (.cons alike alikes)
    | false =>
      have all : many (decorator expr) mirror.left = .ok [] mirror.left :=
        many_none (decorator_none starts)
      by_cases none : mirror.leftRun = []
      · obtain ⟨error, fails⟩ := stops [] mirror.left (mirror.current_of_nil none)
        have gone : mirror.Gone [] mirror.left := by
          refine ⟨mirror.current_of_nil none, mirror.laid, (List.append_nil _).symm, ?_⟩
          simp [none]
        exact .lostError gone ((bind_ok all).trans fails)
      · have starts' : mirror.right.current.isOperator "@" = false := by
          rw [(mirror.current_alike none).test (·.isOperator "@") fun _ _ => rfl]
          exact starts
        have all' : many (decorator expr) mirror.right = .ok [] mirror.right :=
          many_none (decorator_none starts')
        exact (goes mirror [] [] none .nil).congr (bind_ok all) (bind_ok all')

end

variable (reads : Readable like expr) (blocks : Mirrored like block)

include reads blocks

theorem clause_tracks (keyword : mirror.left.current.kind = .keyword) :
    mirror.Keeps 1 (Clause.Alike like) (clause expr block) := by
  refine .bind (Tracks.advance_word (.inl keyword)) ?_
  intro onward token token' tokens inside
  refine .bind (.lift inside (reads _)) ?_
  intro onward test test' tests inside
  refine .bind (suite_tracks blocks inside) ?_
  intro onward body body' bodies _
  exact .pure (.intro tokens.2.line tests bodies) trivial

theorem ifStatement_tracks (keyword : mirror.left.current.kind = .keyword) :
    mirror.Keeps 1 like.stmt (ifStatement expr block) := by
  have further : ∀ onward : Mirror like, onward.Keeps 0 (Option.Rel (Clause.Alike like))
      (whenever (Parser.atKeyword "elif") (clause expr block)) := fun onward =>
    .whenever (.atKeyword (by simp [clauseWords])) fun _ found => (clause_tracks reads blocks found).relax
  refine .bind (clause_tracks reads blocks keyword) ?_
  intro onward first first' firsts _
  refine .bind (.many further) ?_
  intro onward others others' alikes _
  refine .bind (elseStatement_tracks blocks) ?_
  intro onward last last' lasts _
  exact .pure (firsts.statement (Clause.foldr_alike alikes lasts)) trivial

theorem whileShape_tracks (keyword : mirror.left.current.kind = .keyword) :
    mirror.Keeps 1 like.shape (whileShape expr block) := by
  refine .bind (Tracks.advance_word (.inl keyword)) ?_
  intro onward _ _ _ inside
  refine .bind (.lift inside (reads _)) ?_
  intro onward test test' tests inside
  refine .bind (suite_tracks blocks inside) ?_
  intro onward body body' bodies _
  refine .bind (elseSuite_tracks blocks) ?_
  intro onward orelse orelse' others _
  exact .pure (.whileLoop tests bodies others) trivial

theorem forShape_tracks (keyword : mirror.left.current.kind = .keyword) (isAsync : Bool) :
    mirror.Keeps 1 like.shape (forShape expr block isAsync) := by
  refine .bind (Tracks.advance_word (.inl keyword)) ?_
  intro onward _ _ _ inside
  refine .bind (.lift inside (targetList_reads reads)) ?_
  intro onward target target' targets inside
  refine .bind (.lift inside (assignable_reads targets)) ?_
  intro onward _ _ _ inside
  refine .bind (.lift inside (.expectKeyword "in")) ?_
  intro onward _ _ _ inside
  refine .bind (.lift inside (expressionList_reads reads)) ?_
  intro onward iterated iterated' iterables inside
  refine .bind (suite_tracks blocks inside) ?_
  intro onward body body' bodies _
  refine .bind (elseSuite_tracks blocks) ?_
  intro onward orelse orelse' others _
  exact .pure (.forLoop isAsync targets iterables bodies others) trivial

theorem functionShape_tracks (keyword : mirror.left.current.kind = .keyword)
    {decorators decorators' : List Expr} (alikes : List.Forall₂ like.expr decorators decorators')
    (isAsync : Bool) :
    mirror.Tracks 1 (fun _ _ => True) like.shape
      (functionShape expr block decorators isAsync) (functionShape expr block decorators' isAsync) := by
  refine .bind (Tracks.advance_word (.inl keyword)) ?_
  intro onward _ _ _ inside
  refine .bind (.lift inside (.expectIdentifier _ (by simp))) ?_
  rintro onward name _ rfl inside
  refine .bind (.lift inside (.expectDelimiter "(")) ?_
  intro onward _ _ _ inside
  refine .bind (.lift inside (params_reads reads ")" true)) ?_
  intro onward params params' alike inside
  refine .bind (.lift inside (.expectDelimiter ")")) ?_
  intro onward _ _ _ inside
  refine .bind (.lift inside (.whenever (.acceptOperator "->") (reads _))) ?_
  intro onward hint hint' returns inside
  refine .bind (suite_tracks blocks inside) ?_
  intro onward body body' bodies _
  exact .pure (.functionDef (.intro name isAsync alike returns bodies alikes)) trivial

theorem classShape_tracks (keyword : mirror.left.current.kind = .keyword)
    {decorators decorators' : List Expr} (alikes : List.Forall₂ like.expr decorators decorators') :
    mirror.Tracks 1 (fun _ _ => True) like.shape (classShape expr block decorators) (classShape expr block decorators') := by
  have defined : ∀ (onward : Mirror like) name bases bases',
      List.Forall₂ (Argument.Alike like.expr) bases bases' → onward.left.Inside →
      onward.Tracks 0 (fun _ _ => True) like.shape (return .classDef ⟨name, bases, ← suite block, decorators⟩)
        (return .classDef ⟨name, bases', ← suite block, decorators'⟩) := by
    intro onward name bases bases' alike inside
    refine .bind (suite_tracks blocks inside) ?_
    intro onward body body' bodies _
    exact .pure (.classDef (.intro name alike bodies alikes)) trivial
  refine .bind (Tracks.advance_word (.inl keyword)) ?_
  intro onward _ _ _ inside
  refine .bind (.lift inside (.expectIdentifier _ (by simp))) ?_
  rintro onward name _ rfl inside
  refine .bind (.lift inside (.acceptDelimiter "(")) ?_
  rintro onward bracketed _ rfl inside
  cases bracketed with
  | true =>
    refine .bind (.lift inside (arguments_reads reads)) ?_
    intro onward bases bases' alike inside
    exact defined onward name bases bases' alike inside
  | false => exact defined onward name [] [] .nil inside

theorem withShape_tracks (keyword : mirror.left.current.kind = .keyword) (isAsync : Bool) :
    mirror.Keeps 1 like.shape (withShape expr block isAsync) := by
  refine .bind (Tracks.advance_word (.inl keyword)) ?_
  intro onward _ _ _ inside
  refine .bind (.lift inside (.items (fun _ _ => rfl) (withItem_reads reads))) ?_
  intro onward entries entries' alikes inside
  refine .bind (suite_tracks blocks inside) ?_
  intro onward body body' bodies _
  exact .pure (.withItems isAsync alikes bodies) trivial

theorem handler_tracks (keyword : mirror.left.current.kind = .keyword) :
    mirror.Keeps 1 (Handler.Alike like.line like.expr like.stmt) (handler expr block) := by
  refine .bind (Tracks.advance_word (.inl keyword)) ?_
  intro onward token token' tokens inside
  refine .bind (.lift inside (.atDelimiter ":")) ?_
  rintro onward bare _ rfl inside
  cases bare with
  | true =>
    refine .bind (suite_tracks blocks inside) ?_
    intro onward body body' bodies _
    exact .pure (.intro none tokens.2.line .none bodies) trivial
  | false =>
    refine .bind (.lift inside (reads _)) ?_
    intro onward caught caught' exceptions inside
    refine .bind (.lift inside (.whenever (.acceptKeyword "as") (.expectIdentifier _ (by simp)))) ?_
    intro onward name name' names inside
    rw [optionRel_eq] at names
    subst names
    refine .bind (suite_tracks blocks inside) ?_
    intro onward body body' bodies _
    exact .pure (.intro name tokens.2.line (.some exceptions) bodies) trivial

theorem tryShape_tracks (keyword : mirror.left.current.kind = .keyword) :
    mirror.Keeps 1 like.shape (tryShape expr block) := by
  have caught : ∀ onward : Mirror like, onward.Keeps 0 (Option.Rel (Handler.Alike like.line like.expr like.stmt))
      (whenever (Parser.atKeyword "except") (handler expr block)) := fun onward =>
    .whenever (.atKeyword (by simp [clauseWords])) fun _ found => (handler_tracks reads blocks found).relax
  refine .bind (Tracks.advance_word (.inl keyword)) ?_
  intro onward _ _ _ inside
  refine .bind (suite_tracks blocks inside) ?_
  intro onward body body' bodies _
  refine .bind (.many caught) ?_
  intro onward handlers handlers' alikes _
  refine .bind (elseSuite_tracks blocks) ?_
  intro onward orelse orelse' others _
  refine .bind (.whenever (.acceptKeyword (by simp [clauseWords])) fun _ inside =>
    suite_tracks blocks inside) ?_
  intro onward last last' lasts _
  have same : (handlers.isEmpty && last.isNone) = true ↔ (handlers'.isEmpty && last'.isNone) = true := by
    cases alikes <;> cases lasts <;> simp
  refine rel_ite same ?_ ?_
  · intro _
    exact .unexpected .handlerOrFinally fun _ => .inr rfl
  · intro _
    exact .pure (.tryExcept bodies alikes others lasts) trivial

theorem asyncShape_tracks (keyword : mirror.left.current.kind = .keyword)
    {decorators decorators' : List Expr} (alikes : List.Forall₂ like.expr decorators decorators') :
    mirror.Tracks 1 (fun _ _ => True) like.shape (asyncShape expr block decorators) (asyncShape expr block decorators') := by
  refine .bind (Tracks.advance_word (.inl keyword)) ?_
  intro onward _ _ _ inside
  have some := onward.ne_nil_of_inside inside
  have wrong : ∀ what, onward.Keeps 0 like.shape (unexpected what) := by
    intro what
    exact .unexpected what fun indent => absurd indent inside.kind_ne_indent
  have same : (!decorators.isEmpty) = true ↔ (!decorators'.isEmpty) = true := by
    cases alikes <;> simp
  refine .atKeyword_bind some (fun found => (functionShape_tracks reads blocks found alikes true).relax) ?_
  refine rel_ite same (fun _ => wrong _) fun _ => ?_
  refine .atKeyword_bind some (fun found => (forShape_tracks reads blocks found true).relax) ?_
  exact .atKeyword_bind some (fun found => (withShape_tracks reads blocks found true).relax) (wrong _)

theorem decorated_tracks (some : mirror.leftRun ≠ []) {decorators decorators' : List Expr}
    (alikes : List.Forall₂ like.expr decorators decorators') :
    mirror.Tracks 0 (fun _ _ => True) like.shape
      (do
        if ← atKeyword "def" then functionShape expr block decorators false
        else if ← atKeyword "class" then classShape expr block decorators
        else if ← atKeyword "async" then asyncShape expr block decorators
        else unexpected .decorated)
      (do
        if ← atKeyword "def" then functionShape expr block decorators' false
        else if ← atKeyword "class" then classShape expr block decorators'
        else if ← atKeyword "async" then asyncShape expr block decorators'
        else unexpected .decorated) := by
  refine .atKeyword_bind some (fun found => (functionShape_tracks reads blocks found alikes false).relax) ?_
  refine .atKeyword_bind some (fun found => (classShape_tracks reads blocks found alikes).relax) ?_
  refine .atKeyword_bind some (fun found => (asyncShape_tracks reads blocks found alikes).relax) ?_
  exact .unexpected .decorated fun _ => .inl rfl

theorem decoratedShape_tracks (starts : mirror.left.current.isOperator "@" = true) :
    mirror.Keeps 1 like.shape (decoratedShape expr block) := by
  have stops : ∀ decorators cursor, cursor.current.kind = .endOfInput → ∃ error,
      (do
        if ← atKeyword "def" then functionShape expr block decorators false
        else if ← atKeyword "class" then classShape expr block decorators
        else if ← atKeyword "async" then asyncShape expr block decorators
        else unexpected .decorated) cursor = .error error cursor := by
    intro decorators cursor ended
    have wordless : ∀ word, atKeyword word cursor = .ok false cursor := by
      intro word
      change EStateM.Result.ok (cursor.current.isKeyword word) cursor = _
      simp [Token.isKeyword, ended]
    refine ⟨.atToken cursor.current (.expected .decorated cursor.current), ?_⟩
    rw [bind_ok (wordless "def")]
    refine (bind_ok (wordless "class")).trans ?_
    exact bind_ok (wordless "async")
  refine decorators_step reads starts stops ?_
  intro onward value value' _ alike
  refine decorators_tracks reads ?_ ?_
  · intro decorators cursor ended
    exact stops (value :: decorators) cursor ended
  · intro onward decorators decorators' some alikes
    exact decorated_tracks reads blocks some (.cons alike alikes)

theorem compound?_tracks (inside : mirror.left.Inside) :
    (compound? expr block mirror.left.current = none ∧ compound? expr block mirror.right.current = none) ∨
    ∃ parser parser', compound? expr block mirror.left.current = some parser ∧
      compound? expr block mirror.right.current = some parser' ∧
      mirror.Tracks 1 (fun _ _ => True) like.stmt parser parser' := by
  have alike : mirror.left.current.Alike like.line mirror.right.current :=
    (mirror.current_mirrors (mirror.ne_nil_of_inside inside)).written inside.kind_ne_dedent
  have same : mirror.right.current.isOperator "@" = mirror.left.current.isOperator "@" :=
    alike.test (·.isOperator "@") fun _ _ => rfl
  have located : ∀ {shape shape'}, mirror.Tracks 1 (fun _ _ => True) like.shape shape shape' →
      mirror.Tracks 1 (fun _ _ => True) like.stmt
        ((Stmt.mk mirror.left.current.line ·) <$> shape) ((Stmt.mk mirror.right.current.line ·) <$> shape') :=
    fun tracks => tracks.map (fun _ _ shapes => like.stmt_intro alike.line shapes) fun _ _ _ => trivial
  unfold compound?
  simp only [same, ← alike.kind, ← alike.text]
  split
  · rename_i starts
    exact .inr ⟨_, _, rfl, rfl, located (decoratedShape_tracks reads blocks starts)⟩
  split
  · rename_i keyword
    split
    · exact .inr ⟨_, _, rfl, rfl, ifStatement_tracks reads blocks keyword⟩
    · exact .inr ⟨_, _, rfl, rfl, located (whileShape_tracks reads blocks keyword)⟩
    · exact .inr ⟨_, _, rfl, rfl, located (forShape_tracks reads blocks keyword false)⟩
    · exact .inr ⟨_, _, rfl, rfl, located (functionShape_tracks reads blocks keyword .nil false)⟩
    · exact .inr ⟨_, _, rfl, rfl, located (classShape_tracks reads blocks keyword .nil)⟩
    · exact .inr ⟨_, _, rfl, rfl, located (tryShape_tracks reads blocks keyword)⟩
    · exact .inr ⟨_, _, rfl, rfl, located (withShape_tracks reads blocks keyword false)⟩
    · exact .inr ⟨_, _, rfl, rfl, located (asyncShape_tracks reads blocks keyword .nil)⟩
    · exact .inl ⟨rfl, rfl⟩
  · exact .inl ⟨rfl, rfl⟩

end Parser
end SourceAudit
