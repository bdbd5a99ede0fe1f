import SourceAudit.Proofs.Grammar.Enclosure
import SourceAudit.Proofs.Grammar.Outline
import SourceAudit.Proofs.Grammar.StatementRunning

open List

namespace SourceAudit

open Token SourceAudit.Parser

namespace Outline

def tokens (outlines : List Outline) : List Token := Row.allTokens (allRows outlines)

def under (body : Indented) : List Token := newline :: indent :: (tokens body.outlines ++ [dedent])

theorem rows_ne_nil (outline : Outline) : outline.rows ≠ [] := by
  cases outline <;> simp [rows]

theorem tokens_cons (outline : Outline) (outlines : List Outline) :
    tokens (outline :: outlines) = Row.allTokens outline.rows ++ tokens outlines := by
  rw [tokens, allRows, Row.allTokens_append]
  rfl

@[simp] theorem tokens_headed (word : String) (known : word ∈ keywords) (inside : List Token)
    (balanced : Balanced inside) (body : Indented) :
    (headed (.heading word known inside balanced) body).tokens =
      keyword word :: (inside ++ delimiter ":" :: under body) := by
  obtain ⟨extra, first, others⟩ := body
  have some : first.rows ++ allRows others ≠ [] := by simp [rows_ne_nil]
  rw [headed, Row.tokens, enclosed_of_ne_nil (Row.allTokens_ne_nil some)]
  simp [Phrase.tokens, Phrase.heading, under, Indented.outlines, tokens, allRows]

theorem statements_eq (outlines : List Outline) : statements outlines = outlines.map statement := by
  induction outlines with
  | nil => rfl
  | cons outline outlines ih => rw [statements, ih, map_cons]

theorem block_eq (body : Indented) : block body = ⟨1, body.outlines.map statement⟩ := by
  obtain ⟨extra, first, others⟩ := body
  rw [block, statements_eq]
  rfl

@[simp] theorem optionalBlock_eq (body : Option Indented) : optionalBlock body = body.map block := by
  cases body <;> rfl

def elifTokens (clause : Identifier × Indented) : List Token :=
  keyword "elif" :: clause.1.token :: delimiter ":" :: under clause.2

def exceptTokens (clause : Option Binding × Indented) : List Token :=
  keyword "except" :: (clause.1.toList.flatMap Binding.tokens ++ delimiter ":" :: under clause.2)

def optionalTokens (word : String) (body : Option Indented) : List Token :=
  body.toList.flatMap fun body => keyword word :: delimiter ":" :: under body

@[simp] theorem allTokens_elifRows (clauses : List (Identifier × Indented)) :
    Row.allTokens (elifRows clauses) = clauses.flatMap elifTokens := by
  induction clauses with
  | nil => rfl
  | cons clause clauses ih =>
    rw [elifRows, Row.allTokens, ih, testLine, tokens_headed]
    rfl

@[simp] theorem allTokens_handlerRows (clauses : List (Option Binding × Indented)) :
    Row.allTokens (handlerRows clauses) = clauses.flatMap exceptTokens := by
  induction clauses with
  | nil => rfl
  | cons clause clauses ih =>
    rw [handlerRows, Row.allTokens, ih, exceptLine, tokens_headed]
    rfl

@[simp] theorem allTokens_optionalRow (word : String) (known : word ∈ keywords) (body : Option Indented) :
    Row.allTokens (optionalRow (.heading word known [] .nil) body) = optionalTokens word body := by
  cases body with
  | none => rfl
  | some body =>
    rw [optionalRow, Row.allTokens, Row.allTokens, tokens_headed]
    rfl

attribute [local simp] rows Row.allTokens

theorem allTokens_ifElse (test : Identifier) (body : Indented) (others : List (Identifier × Indented))
    (orelse : Option Indented) :
    Row.allTokens (ifElse test body others orelse).rows =
      keyword "if" :: named test.text :: delimiter ":" ::
        (under body ++ (others.flatMap elifTokens ++ optionalTokens "else" orelse)) := by
  simp [Row.allTokens_append, testLine, elseLine]

theorem allTokens_whileLoop (test : Identifier) (body : Indented) (orelse : Option Indented) :
    Row.allTokens (whileLoop test body orelse).rows =
      keyword "while" :: named test.text :: delimiter ":" ::
        (under body ++ optionalTokens "else" orelse) := by
  simp [testLine, elseLine]

theorem allTokens_forLoop (target iterated : Identifier) (body : Indented) (orelse : Option Indented) :
    Row.allTokens (forLoop target iterated body orelse).rows =
      keyword "for" :: named target.text :: keyword "in" :: named iterated.text :: delimiter ":" ::
        (under body ++ optionalTokens "else" orelse) := by
  simp [forLine, elseLine]

theorem allTokens_functionDef (name : Identifier) (params : List Identifier) (body : Indented) :
    Row.allTokens (functionDef name params body).rows =
      keyword "def" :: named name.text :: delimiter "(" ::
        (separated (params.map fun param => [named param.text]) ++ delimiter ")" :: delimiter ":" ::
          under body) := by
  simp [functionLine, listed, bracketed]

theorem allTokens_classDef (name : Identifier) (bases : List Identifier) (body : Indented) :
    Row.allTokens (classDef name bases body).rows =
      keyword "class" :: named name.text :: ((if bases = [] then [] else
        delimiter "(" :: (separated (bases.map fun base => [named base.text]) ++ [delimiter ")"])) ++
          delimiter ":" :: under body) := by
  simp [classLine, listed, bracketed]

theorem allTokens_withItems (first : Binding) (others : List Binding) (body : Indented) :
    Row.allTokens (withItems first others body).rows =
      keyword "with" :: (separated ((first :: others).map Binding.tokens) ++ delimiter ":" ::
        under body) := by
  simp [withLine]

theorem allTokens_tryExcept (body handler : Indented) (caught : Option Binding)
    (others : List (Option Binding × Indented)) (orelse last : Option Indented) :
    Row.allTokens (tryExcept body caught handler others orelse last).rows =
      keyword "try" :: delimiter ":" :: (under body ++ (((caught, handler) :: others).flatMap exceptTokens ++
        (optionalTokens "else" orelse ++ optionalTokens "finally" last))) := by
  simp [Row.allTokens_append, tryLine, elseLine, finallyLine, exceptLine, exceptTokens]

theorem allTokens_tryFinally (body last : Indented) (orelse : Option Indented) :
    Row.allTokens (tryFinally body orelse last).rows =
      keyword "try" :: delimiter ":" :: (under body ++
        (optionalTokens "else" orelse ++ optionalTokens "finally" (some last))) := by
  simp [Row.allTokens_append, tryLine, elseLine, finallyLine, optionalTokens]

theorem alternate_eq (clauses : List (Identifier × Indented)) (last : Option (Block Stmt)) :
    alternate clauses last =
      (clauses.map fun clause => (⟨1, clause.1.expr, block clause.2⟩ : Clause)).foldr
        (fun clause rest => some (clause.statement rest)) (last.map fun body => ⟨1, .block body⟩) := by
  induction clauses with
  | nil => rfl
  | cons clause clauses ih =>
    rw [alternate, ih]
    rfl

theorem handlers_eq (clauses : List (Option Binding × Indented)) :
    handlers clauses = clauses.map fun clause => caughtBy clause.1 (block clause.2) := by
  induction clauses with
  | nil => rfl
  | cons clause clauses ih => rw [handlers, ih, map_cons]

end Outline

namespace Parser

open Outline (under elifTokens exceptTokens optionalTokens)

variable (base : Cursor) (expr : Precedence → Parser Expr) (block : Parser (Block Stmt))

/-- Names are read up to a token that ends an expression. -/
def ReadsNames : Prop :=
  ∀ (name : Identifier) {precedence : Precedence} {next : Token} (more : List Token),
    next.Ends precedence →
    expr precedence (base.push (named name.text :: next :: more)) =
      .ok name.expr (base.push (next :: more))

def ReadsBlock (body : Indented) : Prop :=
  ∀ more, block (base.push (under body ++ more)) = .ok (Outline.block body) (base.push more)

def IsApart (next : Token) : Prop := ∀ word ∈ clauseWords, next.isKeyword word = false

instance (next : Token) : Decidable (IsApart next) :=
  inferInstanceAs (Decidable (∀ word ∈ clauseWords, next.isKeyword word = false))

def ReadsLines (outline : Outline) : Prop :=
  ∀ ⦃next : Token⦄ (more : List Token), IsApart next →
    statementLine expr block (base.push (Row.allTokens outline.rows ++ next :: more)) =
      (⟨[outline.statement], none⟩, base.push (next :: more))

variable {base expr block}

theorem run_suite {body : Indented} (reads : ReadsBlock base block body) (more : List Token) :
    suite block (base.push (delimiter ":" :: (under body ++ more))) =
      .ok (Outline.block body) (base.push more) := by
  simp [suite, reads more]

theorem run_optional {word : String} {body : Option Indented}
    (reads : ∀ inner ∈ body, ReadsBlock base block inner) (more : List Token)
    (stops : (base.push more).current.isKeyword word = false) :
    whenever (acceptKeyword word) (suite block) (base.push (optionalTokens word body ++ more)) =
      .ok (body.map Outline.block) (base.push more) := by
  cases body with
  | none => simp [optionalTokens, whenever, stops]
  | some inner => simp [optionalTokens, whenever, run_suite (reads inner rfl)]

theorem run_elseStatement {body : Option Indented}
    (reads : ∀ inner ∈ body, ReadsBlock base block inner) (more : List Token)
    (stops : (base.push more).current.isKeyword "else" = false) :
    elseStatement block (base.push (optionalTokens "else" body ++ more)) =
      .ok (body.map fun inner => ⟨1, .block (Outline.block inner)⟩) (base.push more) := by
  cases body with
  | none => simp [optionalTokens, elseStatement, stops]
  | some inner => simp [optionalTokens, elseStatement, run_suite (reads inner rfl)]

theorem run_clause (names : ReadsNames base expr) (word : String) (test : Identifier) {body : Indented}
    (reads : ReadsBlock base block body) (more : List Token) :
    clause expr block
        (base.push (keyword word :: named test.text :: delimiter ":" :: (under body ++ more))) =
      .ok ⟨1, test.expr, Outline.block body⟩ (base.push more) := by
  simp [clause, names test _ Token.ends_colon, run_suite reads]

section

variable {α γ : Type} {written : γ → List Token} {result : γ → α}

theorem eq_map_of_forall₂ {values : List γ} {results : List α}
    (same : List.Forall₂ (fun value found => found = result value) values results) :
    results = values.map result := by
  induction same with
  | nil => rfl
  | cons first _ ih => rw [map_cons, first, ih]

theorem run_many_map {step : Parser (Option α)} {values : List γ} {more : List Token}
    (stops : step (base.push more) = .ok none (base.push more))
    (some : ∀ value, written value ≠ [])
    (reads : ∀ value ∈ values, ∀ rest,
      step (base.push (written value ++ rest)) = .ok (.some (result value)) (base.push rest)) :
    many step (base.push (values.flatMap written ++ more)) =
      .ok (values.map result) (base.push more) := by
  have run := run_many base (fun _ => True) (R := fun value found => found = result value)
    trivial stops (fun value _ _ => ⟨some value, trivial⟩)
    (fun value member rest _ => ⟨_, reads value member rest, _, rfl, rfl⟩)
  obtain ⟨results, run, same⟩ := run
  rw [run, eq_map_of_forall₂ same]

theorem run_items_map {stop : Token → Bool} {item : Parser α} {values : List γ} {closer : String}
    (more : List Token) (apart : closer ∉ ["(", "[", ","])
    (closes : values = [] → stop (delimiter closer) = true)
    (begins : ∀ value rest, stop (base.push (written value ++ rest)).current = false)
    (reads : ∀ value symbol rest, symbol = "," ∨ symbol = closer →
      item (base.push (written value ++ delimiter symbol :: rest)) =
        .ok (result value) (base.push (delimiter symbol :: rest))) :
    items stop item (base.push (separated (values.map written) ++ delimiter closer :: more)) =
      .ok (values.map result) (base.push (delimiter closer :: more)) := by
  have entries : ReadsItems base stop item written closer (fun value found => found = result value)
      values :=
    ⟨apart, fun value _ => begins value,
      fun value _ symbol rest _ link => ⟨_, reads value symbol rest link, rfl⟩⟩
  obtain ⟨results, run, same⟩ := entries.run_items closes more
  rw [run, eq_map_of_forall₂ same]

end

theorem statementLine_compound {cursor after : Cursor} {parser : Parser Stmt} {statement : Stmt}
    (starts : compound? expr block cursor.current = some parser)
    (run : parser cursor = .ok statement after) :
    statementLine expr block cursor = (⟨[statement], none⟩, after) := by
  rw [statementLine, starts]
  dsimp only
  rw [run]

theorem run_elifs (names : ReadsNames base expr) {clauses : List (Identifier × Indented)}
    (reads : ∀ clause ∈ clauses, ReadsBlock base block clause.2) (more : List Token)
    (stops : (base.push more).current.isKeyword "elif" = false) :
    many (whenever (atKeyword "elif") (clause expr block))
        (base.push (clauses.flatMap elifTokens ++ more)) =
      .ok (clauses.map fun clause => ⟨1, clause.1.expr, Outline.block clause.2⟩) (base.push more) := by
  apply run_many_map
  · simp [whenever, stops]
  · intro clause
    exact cons_ne_nil _ _
  · intro clause member rest
    simp [whenever, elifTokens, run_clause names "elif" clause.1 (reads clause member)]

@[simp] theorem run_assignable (name : Identifier) (cursor : Cursor) :
    assignable name.expr cursor = .ok () cursor := by
  simp [assignable, Identifier.expr, Expr.unassignable?]

theorem run_paramNames (names : List Identifier) (more : List Token) :
    params expr ")" true
        (base.push (separated (names.map fun name => [named name.text]) ++ delimiter ")" :: more)) =
      .ok (names.map Identifier.param) (base.push (delimiter ")" :: more)) := by
  have entries : items (·.isDelimiter ")") (paramEntry expr ")" true)
      (base.push (separated (names.map fun name => [named name.text]) ++ delimiter ")" :: more)) =
      .ok (names.map fun name => some name.param) (base.push (delimiter ")" :: more)) := by
    apply run_items_map more (by decide) (fun _ => rfl)
    · intro name rest
      rfl
    · rintro name follower rest (rfl | rfl) <;>
        simp [paramEntry, param, whenever, Identifier.param]
  simp [params, entries, filterMap_map]

theorem run_argumentNames (reads : ReadsNames base expr) (names : List Identifier) (more : List Token) :
    arguments expr
        (base.push (separated (names.map fun name => [named name.text]) ++ delimiter ")" :: more)) =
      .ok (names.map Identifier.argument) (base.push more) := by
  have entries : items (·.isDelimiter ")") (argument expr)
      (base.push (separated (names.map fun name => [named name.text]) ++ delimiter ")" :: more)) =
      .ok (names.map Identifier.argument) (base.push (delimiter ")" :: more)) := by
    apply run_items_map more (by decide) (fun _ => rfl)
    · intro name rest
      rfl
    · rintro name follower rest (rfl | rfl) <;>
        simp [argument, Cursor.peek_push, reads name _ (.delimiter _),
          Identifier.argument]
  simp [arguments, entries]

theorem run_binding (names : ReadsNames base expr) (binding : Binding) {next : String}
    (follows : next = "," ∨ next = ":") (more : List Token) :
    withItem expr (base.push (binding.tokens ++ delimiter next :: more)) =
      .ok binding.item (base.push (delimiter next :: more)) := by
  obtain ⟨value, name⟩ := binding
  have ends : (delimiter next).Ends .lowest :=
    .delimiter (by rcases follows with rfl | rfl <;> decide)
  cases name with
  | none => simp [Binding.tokens, Binding.item, withItem, names value _ ends]
  | some name =>
    simp [Binding.tokens, Binding.item, withItem, names name _ ends,
      names value _ Token.ends_as]

theorem run_handler (names : ReadsNames base expr) (caught : Option Binding) {body : Indented}
    (reads : ReadsBlock base block body) (more : List Token) :
    handler expr block (base.push (exceptTokens (caught, body) ++ more)) =
      .ok (Outline.caughtBy caught (Outline.block body)) (base.push more) := by
  rcases caught with _ | ⟨value, _ | name⟩
  · simp [exceptTokens, handler, run_suite reads, Outline.caughtBy]
  · simp [exceptTokens, Binding.tokens, handler, names value _ Token.ends_colon, whenever,
      run_suite reads, Outline.caughtBy]
  · simp [exceptTokens, Binding.tokens, handler, names value _ Token.ends_as,
      whenever, run_suite reads, Outline.caughtBy]

theorem run_handlers (names : ReadsNames base expr) {clauses : List (Option Binding × Indented)}
    (reads : ∀ clause ∈ clauses, ReadsBlock base block clause.2) (more : List Token)
    (stops : (base.push more).current.isKeyword "except" = false) :
    many (whenever (atKeyword "except") (handler expr block))
        (base.push (clauses.flatMap exceptTokens ++ more)) =
      .ok (Outline.handlers clauses) (base.push more) := by
  rw [Outline.handlers_eq]
  apply run_many_map
  · simp [whenever, stops]
  · intro clause
    exact cons_ne_nil _ _
  · intro clause member rest
    have run := run_handler names clause.1 (reads clause member) rest
    have starts : (base.push (exceptTokens clause ++ rest)).current.isKeyword "except" = true := rfl
    simp [whenever, starts, run]

attribute [local simp] Outline.statement

theorem readsLines_ifElse (names : ReadsNames base expr) {test : Identifier} {body : Indented}
    {others : List (Identifier × Indented)} {orelse : Option Indented}
    (reads : ∀ inner ∈ (Outline.ifElse test body others orelse).bodies, ReadsBlock base block inner) :
    ReadsLines base expr block (.ifElse test body others orelse) := by
  intro next more apart
  have noElse : next.isKeyword "else" = false := apart "else" (by decide)
  have noElif : next.isKeyword "elif" = false := apart "elif" (by decide)
  simp only [Outline.bodies, mem_cons, mem_append, mem_map, Option.mem_toList] at reads
  have last : elseStatement block (base.push (optionalTokens "else" orelse ++ next :: more)) = _ :=
    run_elseStatement (fun inner member => reads inner (.inr (.inr member))) _ (by simpa using noElse)
  have clauses : many (whenever (atKeyword "elif") (clause expr block))
      (base.push (others.flatMap elifTokens ++ (optionalTokens "else" orelse ++ next :: more))) = _ :=
    run_elifs names (fun clause member => reads clause.2 (.inr (.inl ⟨clause, member, rfl⟩))) _
      (by cases orelse <;> simp [optionalTokens, noElif])
  rw [Outline.allTokens_ifElse]
  apply statementLine_compound rfl
  simp [ifStatement, run_clause names "if" test (reads body (.inl rfl)), clauses, last,
    Outline.alternate_eq, Clause.statement, Function.comp_def]

theorem readsLines_whileLoop (names : ReadsNames base expr) {test : Identifier} {body : Indented}
    {orelse : Option Indented}
    (reads : ∀ inner ∈ (Outline.whileLoop test body orelse).bodies, ReadsBlock base block inner) :
    ReadsLines base expr block (.whileLoop test body orelse) := by
  intro next more apart
  simp only [Outline.bodies, mem_cons, Option.mem_toList] at reads
  have last : elseSuite block (base.push (optionalTokens "else" orelse ++ next :: more)) = _ :=
    run_optional (fun inner member => reads inner (.inr member)) _
      (by simpa using apart "else" (by decide))
  rw [Outline.allTokens_whileLoop]
  apply statementLine_compound rfl
  simp [whileShape, names test _ Token.ends_colon, run_suite (reads body (.inl rfl)), last]

theorem readsLines_forLoop (names : ReadsNames base expr) {target iterated : Identifier} {body : Indented}
    {orelse : Option Indented}
    (reads : ∀ inner ∈ (Outline.forLoop target iterated body orelse).bodies,
      ReadsBlock base block inner) :
    ReadsLines base expr block (.forLoop target iterated body orelse) := by
  intro next more apart
  simp only [Outline.bodies, mem_cons, Option.mem_toList] at reads
  have last : elseSuite block (base.push (optionalTokens "else" orelse ++ next :: more)) = _ :=
    run_optional (fun inner member => reads inner (.inr member)) _
      (by simpa using apart "else" (by decide))
  rw [Outline.allTokens_forLoop]
  apply statementLine_compound rfl
  simp [forShape, targetList, names target _ Token.ends_in, names iterated _ Token.ends_colon,
    expressionList, run_suite (reads body (.inl rfl)), last]

theorem readsLines_functionDef {name : Identifier} {params : List Identifier} {body : Indented}
    (reads : ReadsBlock base block body) :
    ReadsLines base expr block (.functionDef name params body) := by
  intro next more apart
  rw [Outline.allTokens_functionDef]
  apply statementLine_compound rfl
  simp [functionShape, run_paramNames, whenever, run_suite reads]

theorem readsLines_classDef (names : ReadsNames base expr) {name : Identifier} {bases : List Identifier}
    {body : Indented} (reads : ReadsBlock base block body) :
    ReadsLines base expr block (.classDef name bases body) := by
  intro next more apart
  rw [Outline.allTokens_classDef]
  apply statementLine_compound rfl
  by_cases none : bases = []
  · simp [none, classShape, run_suite reads]
  · simp [none, classShape, run_argumentNames names, run_suite reads]

theorem readsLines_withItems (names : ReadsNames base expr) {first : Binding} {others : List Binding}
    {body : Indented} (reads : ReadsBlock base block body) :
    ReadsLines base expr block (.withItems first others body) := by
  intro next more apart
  have entries : items (fun _ => false) (withItem expr)
      (base.push (separated ((first :: others).map Binding.tokens) ++
        delimiter ":" :: (under body ++ next :: more))) =
      .ok ((first :: others).map Binding.item)
        (base.push (delimiter ":" :: (under body ++ next :: more))) := by
    refine run_items_map _ (by decide) (by simp) (by simp) ?_
    intro binding symbol rest link
    exact run_binding names binding link rest
  rw [map_cons] at entries
  rw [Outline.allTokens_withItems]
  apply statementLine_compound rfl
  simp [withShape, entries, run_suite reads]

theorem run_tryShape (names : ReadsNames base expr) (body : Indented)
    (clauses : List (Option Binding × Indented)) (orelse last : Option Indented)
    (guarded : clauses = [] → last.isSome = true) (first : ReadsBlock base block body)
    (handles : ∀ clause ∈ clauses, ReadsBlock base block clause.2)
    (others : ∀ inner ∈ orelse, ReadsBlock base block inner)
    (final : ∀ inner ∈ last, ReadsBlock base block inner) {next : Token} (more : List Token)
    (apart : IsApart next) :
    tryShape expr block (base.push (keyword "try" :: delimiter ":" ::
        (under body ++ (clauses.flatMap exceptTokens ++
          (optionalTokens "else" orelse ++ (optionalTokens "finally" last ++ next :: more)))))) =
      .ok (.tryExcept (Outline.block body) (Outline.handlers clauses) (Outline.optionalBlock orelse)
        (Outline.optionalBlock last)) (base.push (next :: more)) := by
  have noExcept : next.isKeyword "except" = false := apart "except" (by decide)
  have noElse : next.isKeyword "else" = false := apart "else" (by decide)
  have noFinally : next.isKeyword "finally" = false := apart "finally" (by decide)
  have runFinal := run_optional final (next :: more) (by simpa using noFinally)
  have runElse : elseSuite block _ = _ :=
    run_optional others (optionalTokens "finally" last ++ next :: more)
      (by cases last <;> simp [optionalTokens, noElse])
  have runHandlers := run_handlers names handles
    (optionalTokens "else" orelse ++ (optionalTokens "finally" last ++ next :: more))
    (by cases orelse <;> cases last <;> simp [optionalTokens, noExcept])
  have accepted : ((Outline.handlers clauses).isEmpty && (last.map Outline.block).isNone) = false := by
    cases clauses with
    | nil =>
      obtain ⟨inner, rfl⟩ := Option.isSome_iff_exists.mp (guarded rfl)
      rfl
    | cons clause clauses => rfl
  simp only [tryShape, run_bind, run_advance, Cursor.advance_push_cons, run_suite first, runHandlers,
    runElse, runFinal, accepted, Bool.false_eq_true, ↓reduceIte, run_pure, Outline.optionalBlock_eq]

theorem readsLines_tryExcept (names : ReadsNames base expr) {body handler : Indented}
    {caught : Option Binding} {others : List (Option Binding × Indented)} {orelse last : Option Indented}
    (reads : ∀ inner ∈ (Outline.tryExcept body caught handler others orelse last).bodies,
      ReadsBlock base block inner) :
    ReadsLines base expr block (.tryExcept body caught handler others orelse last) := by
  intro next more apart
  simp only [Outline.bodies, mem_cons, mem_append, mem_map, Option.mem_toList] at reads
  have handles : ∀ clause ∈ (caught, handler) :: others, ReadsBlock base block clause.2 := by
    intro clause member
    rcases mem_cons.mp member with rfl | member
    · exact reads handler (.inr (.inl rfl))
    · exact reads clause.2 (.inr (.inr (.inl ⟨clause, member, rfl⟩)))
  have run := run_tryShape names body ((caught, handler) :: others) orelse last (by simp)
    (reads body (.inl rfl)) handles (fun inner member => reads inner (.inr (.inr (.inr (.inl member)))))
    (fun inner member => reads inner (.inr (.inr (.inr (.inr member))))) more apart
  rw [Outline.allTokens_tryExcept]
  apply statementLine_compound rfl
  simp only [append_assoc, cons_append, run_map, run]
  rfl

theorem readsLines_tryFinally (names : ReadsNames base expr) {body last : Indented}
    {orelse : Option Indented}
    (reads : ∀ inner ∈ (Outline.tryFinally body orelse last).bodies, ReadsBlock base block inner) :
    ReadsLines base expr block (.tryFinally body orelse last) := by
  intro next more apart
  simp only [Outline.bodies, mem_cons, mem_append, Option.mem_toList, not_mem_nil,
    or_false] at reads
  have final : ∀ inner ∈ some last, ReadsBlock base block inner := by
    rintro _ ⟨⟩
    exact reads last (.inr (.inr rfl))
  have run := run_tryShape names body [] orelse (some last) (fun _ => rfl) (reads body (.inl rfl))
    (forall_mem_nil _) (fun inner member => reads inner (.inr (.inl member))) final more apart
  rw [flatMap_nil, nil_append] at run
  rw [Outline.allTokens_tryFinally]
  apply statementLine_compound rfl
  simp only [append_assoc, cons_append, run_map, run]
  rfl

theorem statementLine_simple {first : Token} {tokens more : List Token} {statement : Stmt}
    (starts : compound? expr block first = none)
    (run : simpleStatement expr (base.push (first :: tokens)) =
      .ok statement (base.push (newline :: more))) :
    statementLine expr block (base.push (first :: tokens)) =
      (⟨[statement], none⟩, base.push more) := by
  unfold statementLine
  rw [Cursor.current_push_cons, starts]
  exact run_simpleLine run rfl

theorem readsLines_pass : ReadsLines base expr block .pass := by
  intro next more _
  have written : Row.allTokens Outline.pass.rows = [keyword "pass", newline] := rfl
  rw [written]
  apply statementLine_simple rfl
  simp [simpleStatement, keywordStatement, keyword]

theorem readsLines_bare (names : ReadsNames base expr) (name : Identifier) :
    ReadsLines base expr block (.bare name) := by
  intro next more _
  have written : Row.allTokens (Outline.bare name).rows = [named name.text, newline] := rfl
  have ends : newline.Ends .lowest := Token.ends_newline _ rfl
  have run := run_expressionStatement (names name (next :: more) ends) rfl
  rw [written]
  apply statementLine_simple rfl
  simp [simpleStatement, run]

theorem run_assignedValue (names : ReadsNames base expr) (value : Identifier) (more : List Token) :
    assignedValues expr (base.push (operator "=" :: named value.text :: newline :: more)) =
      .ok [value.expr] (base.push (newline :: more)) := by
  have ends : newline.Ends .lowest := Token.ends_newline _ rfl
  have list := run_expressionList (names value more ends) rfl
  have step : whenever (acceptOperator "=") (expressionList expr)
      (base.push (operator "=" :: named value.text :: newline :: more)) =
      .ok (some value.expr) (base.push (newline :: more)) := by
    simp [whenever, list]
  have shorter : (base.push (newline :: more)).size <
      (base.push (operator "=" :: named value.text :: newline :: more)).size := by
    simp only [Cursor.size_push, length_cons]
    omega
  have done : assignedValues expr (base.push (newline :: more)) = .ok [] (base.push (newline :: more)) :=
    run_assignedValues_none rfl
  unfold assignedValues at done ⊢
  rw [Parser.many_some step shorter, run_map, done]

theorem readsLines_assign (names : ReadsNames base expr) (target value : Identifier) :
    ReadsLines base expr block (.assign target value) := by
  intro next more _
  have written : Row.allTokens (Outline.assign target value).rows =
      [named target.text, operator "=", named value.text, newline] := rfl
  have first := run_expressionList
    (names target (named value.text :: newline :: next :: more) (Token.ends_equals .lowest)) rfl
  rw [written]
  apply statementLine_simple rfl
  simp [simpleStatement, expressionStatement, first, run_assignedValue names]

theorem readsLines (names : ReadsNames base expr) (outline : Outline)
    (reads : ∀ body ∈ outline.bodies, ReadsBlock base block body) :
    ReadsLines base expr block outline := by
  cases outline with
  | pass => exact readsLines_pass
  | bare name => exact readsLines_bare names name
  | assign target value => exact readsLines_assign names target value
  | ifElse => exact readsLines_ifElse names reads
  | whileLoop => exact readsLines_whileLoop names reads
  | forLoop => exact readsLines_forLoop names reads
  | functionDef _ _ body => exact readsLines_functionDef (reads body (mem_singleton_self body))
  | classDef _ _ body => exact readsLines_classDef names (reads body (mem_singleton_self body))
  | withItems _ _ body => exact readsLines_withItems names (reads body (mem_singleton_self body))
  | tryExcept => exact readsLines_tryExcept names reads
  | tryFinally => exact readsLines_tryFinally names reads

end Parser
end SourceAudit
