import SourceAudit.Proofs.Grammar.BlockReading
import SourceAudit.Proofs.Grammar.ExpressionTakings
import SourceAudit.Proofs.Text.Splitting

open List

namespace SourceAudit

theorem Text.IsWord.not_mem {text : String} (word : IsWord text) {c : Char} (other : isIdentifierChar c = false) :
    c ∉ text.toList := by
  intro member
  rw [word.2 c member] at other
  cases other

theorem Dotted.segments_intercalate {first : String} {others : List String}
    (words : ∀ word ∈ first :: others, Text.IsWord word) :
    segments (".".intercalate (first :: others)) = first :: others := by
  have joined : (".".intercalate (first :: others)).toList =
      ['.'].intercalate (first.toList :: others.map String.toList) := String.toList_intercalate
  have some : ".".intercalate (first :: others) ≠ "" := by
    intro none
    rw [none] at joined
    have start := (words first mem_cons_self).1
    cases others with
    | nil => simp_all
    | cons second others => simp [intercalate_cons_cons] at joined
  have parts : Text.split (· == '.') (['.'].intercalate (first.toList :: others.map String.toList)) =
      first.toList :: others.map String.toList := by
    apply Text.split_intercalate
    intro part member
    obtain ⟨word, found, rfl⟩ := mem_map.mp (show part ∈ (first :: others).map String.toList from member)
    exact (words word found).not_mem (by decide)
  rw [segments, if_neg some, joined, parts]
  simp

theorem Dotted.segments_word {word : String} (isWord : Text.IsWord word) : segments word = [word] :=
  @segments_intercalate word [] (by simpa using isWord)

theorem Alias.names_mk {name : String} (asName : Option String)
    (words : ∀ word ∈ Dotted.segments name, Text.IsWord word) :
    names ⟨name, asName⟩ = Dotted.segments name ++ asName.toList := by
  have other : name ≠ "*" := by
    rintro rfl
    exact (words "*" (by decide)).not_mem (c := '*') (by decide) (by decide)
  rw [names, if_neg other]

theorem Expr.unassignable?_line {target culprit : Expr} (found : target.unassignable? = some culprit) :
    culprit.line ∈ lines [target] := by
  have inside : ∀ (line : Nat) (shape : Shape Expr), ∀ item ∈ shape.children,
      ∀ place ∈ lines [item], place ∈ lines [⟨line, shape⟩] := by
    intro line shape item member place found
    obtain ⟨front, back, split⟩ := append_of_mem member
    rw [lines_cons, children_mk, split, ← singleton_append (l := back), lines_append, lines_append]
    simp only [mem_cons, mem_append]
    exact .inr (.inl (.inr (.inl found)))
  fun_induction unassignable? target with
  | case1 => cases found
  | case2 => cases found
  | case3 => cases found
  | case4 line items ih =>
    obtain ⟨⟨item, member⟩, _, culprit⟩ := exists_of_findSome?_eq_some found
    exact inside line (.tuple items) item member _ (ih item member culprit)
  | case5 line items ih =>
    obtain ⟨⟨item, member⟩, _, culprit⟩ := exists_of_findSome?_eq_some found
    exact inside line (.list items) item member _ (ih item member culprit)
  | case6 line inner ih =>
    exact inside line (.starred inner) inner (mem_singleton_self inner) _ (ih found)
  | case7 other =>
    cases found
    simp

theorem Expr.assignable_of_none {target : Expr} (none : target.unassignable? = none) : target.Assignable := by
  fun_induction unassignable? target with
  | case1 line name => exact .identifier line name
  | case2 line value name => exact .attribute line value name
  | case3 line value index => exact .subscript line value index
  | case4 line items ih =>
    refine .tuple line fun item member => ih item member ?_
    exact List.findSome?_eq_none_iff.mp none ⟨item, member⟩ (mem_attach items _)
  | case5 line items ih =>
    refine .list line fun item member => ih item member ?_
    exact List.findSome?_eq_none_iff.mp none ⟨item, member⟩ (mem_attach items _)
  | case6 line inner ih => exact .starred line (ih none)
  | case7 other => cases none

def Stmt.tallied (holds : Stmt → Prop) (statement : Stmt) : Tally :=
  ⟨statement.names, Stmt.lines [statement], [], holds statement⟩

def Stmt.tally : Stmt → Tally := tallied Whole

def Stmt.Shape.tally (shape : Stmt.Shape Stmt) : Tally :=
  ⟨shape.names, Node.lines (Node.ofStmt true shape), [], Stmt.Whole ⟨0, shape⟩⟩

def Handler.tally (handler : Handler Stmt) : Tally :=
  ⟨handler.names, Node.lines (Node.ofHandler handler), [], (Node.ofHandler handler).Forall Node.Whole⟩

def WithItem.tally (item : WithItem) : Tally :=
  ⟨item.children.flatMap Expr.names, Expr.lines item.children, [],
    item.children.Forall Expr.Whole ∧ ∀ target ∈ item.target, target.Assignable⟩

theorem Stmt.tallied_all {holds : Stmt → Prop} (statements : List Stmt) : Tally.all (tallied holds) statements =
    ⟨statements.flatMap names, lines statements, [], statements.Forall holds⟩ := by
  induction statements with
  | nil => simp [Tally.all]
  | cons statement statements ih =>
    have rest := congrArg Tally.lines ih
    simp only [Tally.all] at rest
    simp [Tally.all, tallied, ← rest]

theorem Stmt.tally_all (statements : List Stmt) :
    Tally.all tally statements = ⟨statements.flatMap names, lines statements, [], statements.Forall Whole⟩ :=
  tallied_all statements

theorem Stmt.tally_singleton (statement : Stmt) : Tally.all tally [statement] = statement.tally := by
  rw [Tally.all_cons, Tally.all_nil, Tally.append_nothing]

namespace Parser.Clause

def tally (clause : Clause) : Tally :=
  ⟨clause.test.names ++ clause.body.names,
    clause.line :: (Expr.lines [clause.test] ++ Node.lines [.block clause.body]), [],
    clause.test.Whole ∧ (Node.block clause.body).Sound⟩

def tallies (alternate : Option Stmt) : Tally := .all (Stmt.tallied Stmt.Alternate) alternate.toList

theorem tally_statement (clause : Clause) (alternate : Option Stmt) {holds : Stmt → Prop}
    (same : holds (clause.statement alternate) ↔ (Node.stmt (clause.statement alternate)).Sound) :
    (clause.statement alternate).tallied holds = clause.tally ++ tallies alternate := by
  rw [Stmt.tallied, same, Stmt.sound_iff, tallies, Stmt.tallied_all]
  simp [statement, tally, Stmt.Shape.names, Stmt.Shape.entries, Node.ofStmt, Node.Whole, Stmt.Shape.IsWellShaped,
    Stmt.Alternate, and_assoc, forall_iff_forall_mem, imp_and, forall_and]

theorem tally_foldr (clauses : List Clause) (last : Option Stmt) :
    tallies (clauses.foldr (fun clause rest => some (clause.statement rest)) last) =
      .all tally clauses ++ tallies last := by
  induction clauses with
  | nil => exact (Tally.nothing_append _).symm
  | cons clause clauses ih =>
    have whole := @tally_statement clause (clauses.foldr (fun clause rest => some (clause.statement rest)) last)
      Stmt.Alternate (and_iff_left (.inl rfl))
    rw [ih] at whole
    rw [foldr_cons, tallies, Option.toList_some, Tally.all_cons, whole, Tally.all_nil, Tally.append_nothing,
      Tally.all_cons, Tally.append_assoc]

end Parser.Clause

namespace Parser

section

variable {α : Type} {cursor : Cursor} {owed owed' : List String} {before : Tally} {after : α → Tally} {gain : α → Prop}
  {next : Parser α}

theorem Serves.assignable {target : Expr} (known : ∀ line ∈ Expr.lines [target], line ∈ before.lines)
    (rest : target.Assignable → Serves .line cursor owed owed' before after gain next) :
    Serves .line cursor owed owed' before after gain (Parser.assignable target >>= fun _ => next) := by
  unfold Parser.assignable
  cases found : target.unassignable? with
  | none => exact rest (Expr.assignable_of_none found)
  | some culprit =>
    refine ⟨.refl cursor, fun ordered climb => ?_⟩
    exact ⟨rfl, climb.bounds _ (known _ (Expr.unassignable?_line found))⟩

theorem Serves.forM_assignable {targets : List Expr} (known : ∀ line ∈ Expr.lines targets, line ∈ before.lines)
    (rest : (∀ target ∈ targets, target.Assignable) → Serves .line cursor owed owed' before after gain next) :
    Serves .line cursor owed owed' before after gain (targets.forM Parser.assignable >>= fun _ => next) := by
  induction targets with
  | nil => exact rest (by simp)
  | cons target targets ih =>
    rw [← singleton_append, Expr.lines_append] at known
    change Serves .line cursor owed owed' before after gain
      ((Parser.assignable target >>= fun _ => targets.forM Parser.assignable) >>= fun _ => next)
    rw [bind_assoc]
    refine .assignable (fun line member => known line (mem_append_left _ member)) fun first =>
      ih (fun line member => ?_) fun others => rest (forall_mem_cons.mpr ⟨first, others⟩)
    exact known line (mem_append_right _ member)

end

attribute [local simp] Node.ofStmt Node.ofHandler Assignment.children WithItem.children FunctionDef.header
  Stmt.Shape.names Stmt.Shape.entries Stmt.tallied Stmt.tally Stmt.Shape.tally Handler.tally WithItem.tally
  Clause.tally Clause.tallies Block.tally Expr.tallied Expr.tally Param.tally Argument.tally Tally.all Tally.nothing Tally.bare
  Tally.rule Tally.named Tally.line Stmt.Whole Stmt.IsBlock Stmt.sound_iff Stmt.Shape.kind Stmt.Shape.IsWellShaped
  Assignment.isWellShaped_iff Node.Whole forall_flatMap forall_list_true and_assoc Function.comp_def

variable {expr : Precedence → Parser Expr} {block : Parser (Block Stmt)} {cursor : Cursor} {owed : List String}

theorem segment_serves :
    Steps .line cursor [] (fun name => .named [name]) (whenever (acceptOperator ".") (expectIdentifier .name)) :=
  .whenever (fun _ => .operator (.inl rfl)) fun _ => .identifier _

theorem dottedName_serves : Spans cursor [] (fun name => .named (Dotted.segments name)) dottedName := by
  refine .expectIdentifier _ ((Serves.many fun _ => segment_serves).next fun others _ => ?_)
  refine .pure_of (fun words => ?_) (fun climb => climb.le) (.inr rfl) fun _ => trivial
  have same : (Tally.nothing ++ .named [cursor.current.text] ++ .all (fun name => .named [name]) others).names =
      cursor.current.text :: others := by simp
  rw [same] at words ⊢
  exact (Dotted.segments_intercalate words).symm

theorem asName_serves (what : Expected) :
    Spans cursor owed (fun name => .named name.toList) (whenever (acceptKeyword "as") (expectIdentifier what)) := by
  refine .acceptKeyword "as" (.inr (by decide)) (fun _ => .expectIdentifier what (.pure ?_)) fun _ => ?_
  · simp
  · exact .pure rfl

theorem importedModule_serves : Spans cursor [] (fun imported => .named imported.names) importedModule := by
  refine dottedName_serves.next fun name _ => (asName_serves .aliasName).next fun asName _ => ?_
  refine .pure_of (fun words => ?_) id (.inr rfl) fun _ => trivial
  exact (Alias.names_mk asName fun word member => words word (mem_append_left _ member)).symm

theorem importedName_serves : Spans cursor owed (fun imported => .named imported.names) importedName := by
  refine .expectIdentifier _ ((asName_serves .aliasName).next fun asName _ =>
    .pure_of (fun words => ?_) id (.inr rfl) fun _ => trivial)
  have word := Dotted.segments_word (words cursor.current.text (by simp))
  rw [Alias.names_mk asName, word]
  · rfl
  · intro segment member
    rw [word] at member
    exact words segment (mem_append_left _ member)

theorem relativeDots_serves : Steps .line cursor [] (fun _ => .nothing) relativeDots := by
  refine .acceptOperator "." (.inl rfl) (fun _ => .pure (by simp)) fun _ => ?_
  exact .acceptOperator "..." (.inl rfl) (fun _ => .pure (by simp)) fun _ => .ended (by simp)

theorem fromImport_serves : Spans cursor [] Stmt.Shape.tally fromImport := by
  refine (Serves.many fun _ => relativeDots_serves).next fun dots _ => ?_
  have silent : Tally.nothing ++ .all (fun _ => .nothing) dots = .nothing := by simp
  rw [silent]
  have names : ∀ (module : String) (stop : Cursor),
      Serves .line stop [] [] (.nothing ++ .named (Dotted.segments module)) Stmt.Shape.tally (fun _ => False) (do
        expectKeyword "import"
        if ← acceptOperator "*" then return .importFrom (dots.foldl (· + ·) 0) module [⟨"*", none⟩]
        if ← acceptDelimiter "(" then
          let names ← items (·.isDelimiter ")") importedName
          expectDelimiter ")"
          return .importFrom (dots.foldl (· + ·) 0) module names
        return .importFrom (dots.foldl (· + ·) 0) module (← items (fun _ => false) importedName)) := by
    intro module stop
    refine .expectKeyword "import" (.inl rfl) (.acceptOperator "*" (.inl rfl) (fun _ => ?_) fun _ => ?_)
    · exact .pure (by simp [Alias.names])
    refine .acceptDelimiter "(" rfl (fun _ => ?_) fun _ => ?_
    · refine (Serves.items _ fun _ => importedName_serves).next fun names _ => .expectDelimiter ")" rfl ?_
      exact .pure (by simp)
    · exact (Serves.items _ fun _ => importedName_serves).next fun names _ => .pure (by simp)
  have bare : ∀ {stop : Cursor}, Spans stop [] (fun name => .named (Dotted.segments name)) (pure "") := .pure rfl
  exact .ask (.ite (fun _ => bare.next names) fun _ => dottedName_serves.next names)

section

variable (reads : ReadsExpr expr)

include reads

theorem assigned_serves :
    Steps .line cursor [] Expr.tally (whenever (acceptOperator "=") (expressionList expr)) :=
  .whenever (fun _ => .operator (.inl rfl)) fun _ => expressionList_serves reads

theorem expressionStatement_serves : Gains cursor [] Stmt.Shape.tally (expressionStatement expr) := by
  refine (expressionList_serves reads).lead fun first _ => ?_
  refine (Serves.many fun _ => assigned_serves reads).next fun values stop => ?_
  cases last : values.getLast? with
  | some value =>
    obtain ⟨front, rfl⟩ := List.getLast?_eq_some_iff.mp last
    refine .forM_assignable (fun line member => ?_) fun assignable => .pure_bare ?_
    · simp only [dropLast_concat, Expr.lines_cons, mem_cons, mem_append] at member
      simp only [Tally.nothing, Tally.rule, Tally.append_eq, Expr.tally, Expr.tallied, Tally.all, flatMap_append,
        mem_append, Expr.lines_cons, Expr.lines_nil, append_nil, Expr.flatMap_lines, mem_cons]
      tauto
    · rw [dropLast_concat, forall_mem_cons] at assignable
      simp +contextual [assignable]
  | none =>
    have none : values = [] := List.getLast?_eq_none_iff.mp last
    have same : Tally.nothing ++ first.tally ++ .all Expr.tally values = first.tally := by simp [none]
    rw [same]
    refine .current ?_
    cases found : BinaryOp.ofAugmented? stop.current with
    | some op =>
      have kind := BinaryOp.operator_of_augmented found
      refine .assignable (fun _ member => member) fun assignable => .taken (.word (.inl rfl) (.inr kind)) ?_
      exact (expressionList_serves reads).next fun value _ => .pure_bare (by simp [assignable])
    | none =>
      refine .acceptDelimiter ":" rfl (fun _ => .assignable (fun _ member => member) fun assignable => ?_) fun _ => ?_
      · refine (reads.gains .lowest).next fun hint _ => (assigned_serves reads).next fun value _ => ?_
        exact .pure_bare (by simp [assignable])
      · exact .pure_bare (by simp)

theorem raised_serves : Spans cursor [] Stmt.Shape.tally (raised expr) := by
  refine .ask (.ite (fun _ => .pure (by simp)) fun _ => (reads.gains .lowest).next fun exception _ => ?_)
  refine (Serves.whenever (fun _ => .keyword (.inl rfl)) fun _ => reads.gains .lowest).next fun cause _ => ?_
  exact .pure_bare (by simp)

theorem deleted_serves : Spans cursor [] Stmt.Shape.tally (deleted expr) := by
  refine (expressionList_serves reads).next fun target _ => ?_
  obtain ⟨place, shape⟩ := target
  cases shape with
  | tuple targets =>
    refine .pure_of (fun _ => ?_) (fun climb => ?_) (.inr rfl) fun sound => ?_
    · simp [Expr.Shape.names, Expr.Shape.entries, Expr.Shape.children]
    · simp only [Tally.nothing, Tally.rule, Tally.append_eq, Expr.tally, Expr.tallied, Expr.lines_cons, nil_append,
        climb_cons] at climb
      simpa [Expr.Shape.children] using climb.2.lower climb.1
    · simpa [Expr.Shape.Fits, Expr.Shape.IsWellShaped, Expr.Shape.children] using sound
  | _ => exact .pure_bare (by simp)

theorem keywordStatement_serves {word : String} (found : cursor.current.kind = .keyword) :
    Gains cursor [] Stmt.Shape.tally (keywordStatement expr word) := by
  have taken : ∀ {next : Parser (Stmt.Shape Stmt)}, Spans cursor.advance [] Stmt.Shape.tally next →
      Gains cursor [] Stmt.Shape.tally (advance >>= fun _ => next) :=
    fun rest => .taken (.word (.inl rfl) (.inl found)) rest
  unfold keywordStatement
  split
  · exact taken (.pure (by simp))
  · exact taken (.pure (by simp))
  · exact taken (.pure (by simp))
  · refine taken (.ask (.ite (fun _ => .pure (by simp)) fun _ => ?_))
    exact (expressionList_serves reads).next fun value _ => .pure_bare (by simp)
  · exact taken ((Serves.items_some fun _ => importedModule_serves).next fun names _ => .pure (by simp))
  · exact taken fromImport_serves
  · exact taken (raised_serves reads)
  · refine taken ((reads.gains .lowest).next fun test _ => ?_)
    refine (Serves.whenever (fun _ => .delimiter rfl) fun _ => reads.gains .lowest).next fun message _ => ?_
    exact .pure_bare (by simp)
  · exact taken (deleted_serves reads)
  · exact taken ((Serves.items_some fun _ => .identifier _).next fun names _ => .pure (by simp))
  · exact taken ((Serves.items_some fun _ => .identifier _).next fun names _ => .pure (by simp))
  · exact .fail _
  · exact .fail _
  · exact .fail _
  · exact .fail _
  · exact expressionStatement_serves reads

theorem simpleStatement_serves : Gains cursor [] Stmt.tally (simpleStatement expr) := by
  refine .current (.located (.ite (fun word => ?_) fun _ => ?_))
  · exact (keywordStatement_serves reads word).lead fun shape _ => .pure (by simp)
  · exact (expressionStatement_serves reads).lead fun shape _ => .pure (by simp)

theorem lineStatement_serves : Gains cursor [] (fun read => read.1.tally) (lineStatement expr) := by
  refine (simpleStatement_serves reads).lead fun statement _ => ?_
  rw [Tally.nothing_append]
  exact .acceptDelimiter ";" rfl (fun _ => .current (.pure rfl)) fun _ => .pure rfl

theorem withItem_serves : Spans cursor [] WithItem.tally (withItem expr) := by
  refine (reads.gains .lowest).next fun context _ => .acceptKeyword "as" (.inl rfl) (fun _ => ?_) fun _ => ?_
  · refine (reads.gains .lowest).next fun target _ => .assignable (fun _ member => ?_) fun assignable => ?_
    · exact mem_append_right _ member
    · exact .pure_bare (by simp [assignable])
  · exact .pure_bare (by simp)

theorem decorator_serves :
    Serves .line cursor [] [] .nothing (fun value => .all Expr.tally value.toList)
      (fun value => value.isSome ∨ cursor.current.isOperator "@" = true) (decorator expr) := by
  refine .acceptOperator "@" (.inl rfl) (fun _ => ?_) fun other => .ended (by simp [other])
  exact (reads.gains .lowest).next fun value _ => .expectNewline fun _ => .pure (by simp)

theorem decorator_steps : Steps .line cursor [] Expr.tally (decorator expr) :=
  (decorator_serves reads).weaken fun _ => .inl

end

/-- A reader of blocks, which stand after a colon: that is the one that an indent needs. -/
def Fills (block : Parser (Block Stmt)) : Prop :=
  ∀ colon : Cursor, colon.current.isDelimiter ":" = true →
    colon.Fits .block [] [] .nothing Block.tally (fun _ => True) (block colon.advance)

section

variable (blocks : block.Fills)

include blocks

theorem suite_serves : Serves .block cursor [] [] .nothing Block.tally (fun _ => True) (suite block) := by
  unfold Serves suite
  cases found : cursor.current.isDelimiter ":" with
  | true =>
    have passes : expectDelimiter ":" cursor = .ok () cursor.advance := Parser.bind_ok (accept_of_true found)
    rw [bind_ok passes]
    exact blocks cursor found
  | false =>
    have fails : expectDelimiter ":" cursor = .error _ cursor := Parser.bind_ok (accept_of_false found)
    rw [bind_error fails]
    exact .here cursor _ rfl

theorem elseSuite_serves : Steps .block cursor [] Block.tally (elseSuite block) :=
  .whenever (fun _ => .keyword (.inl rfl)) fun _ => suite_serves blocks

theorem elseStatement_serves :
    Serves .block cursor [] [] .nothing Clause.tallies (fun _ => False) (elseStatement block) := by
  refine .ask (.ite (fun found => ?_) fun _ => .pure rfl)
  refine .taken_line (.keyword (.inl rfl) found) ((suite_serves blocks).next fun body _ => ?_)
  rw [Tally.nothing_append]
  refine .pure_of (fun _ => by simp [Block.names_eq body]) (fun climb => ?_) (.inr (by simp)) fun sound => ?_
  · simp only [Tally.line, Tally.append_eq, Block.tally, nil_append, singleton_append, climb_cons,
      Node.lines_block, Node.lines_nil, append_nil] at climb
    simpa using ⟨climb.1, climb.2.2.lower climb.2.1⟩
  · -- the statement has the rules and the children of its block
    obtain ⟨rules, slices, below⟩ := sound.2
    exact ⟨.intro rules slices below, .inr rfl⟩

end

theorem started {α : Type} {before : Tally} {after : α → Tally} {next : Token → Parser α}
    (word : cursor.current.kind = .keyword)
    (rest : Serves .block cursor.advance [] [] before after (fun _ => False) (next cursor.current)) :
    Serves .block cursor [] [] before after (fun _ => True) (advance >>= next) :=
  .taken (.word (.inl rfl) (.inl word)) rest

section

variable (reads : ReadsExpr expr) (blocks : block.Fills)

include reads blocks

theorem clause_serves (word : cursor.current.kind = .keyword) :
    Serves .block cursor [] [] .nothing Clause.tally (fun _ => True) (clause expr block) := by
  refine .located (started word ((reads.gains .lowest).lifted.next fun test _ => ?_))
  exact (suite_serves blocks).next fun body _ => .pure_bare (by simp)

theorem elif_serves : Steps .block cursor [] Clause.tally (whenever (atKeyword "elif") (clause expr block)) :=
  .whenever_word fun found => clause_serves reads blocks (Token.kind_of_isKeyword found)

theorem ifStatement_serves (word : cursor.current.kind = .keyword) :
    Serves .block cursor [] [] .nothing Stmt.tally (fun _ => True) (ifStatement expr block) := by
  refine (clause_serves reads blocks word).lead fun first _ => ?_
  refine (Serves.many fun _ => elif_serves reads blocks).next fun others _ => ?_
  refine (elseStatement_serves blocks).next fun last _ => .pure ?_
  rw [Stmt.tally, Clause.tally_statement _ _ (and_iff_left (by simp [Clause.statement])), Clause.tally_foldr]
  simp

section

variable {decorators : List Expr} (word : cursor.current.kind = .keyword)

include word

theorem whileShape_serves :
    Serves .block cursor [] [] .nothing Stmt.Shape.tally (fun _ => True) (whileShape expr block) := by
  refine started word ((reads.gains .lowest).lifted.next fun test _ => (suite_serves blocks).next fun body _ => ?_)
  exact (elseSuite_serves blocks).next fun orelse _ => .pure_bare (by simp)

theorem forShape_serves (isAsync : Bool) :
    Serves .block cursor [] [] .nothing Stmt.Shape.tally (fun _ => True) (forShape expr block isAsync) := by
  have head : Spans cursor.advance [] (fun head => head.1.tally ++ head.2.tally ++ .rule head.1.Assignable) (do
      let target ← targetList expr
      assignable target
      expectKeyword "in"
      let iterated ← expressionList expr
      return (target, iterated) : Parser (Expr × Expr)) := by
    refine (targetList_serves reads).next fun target _ => .assignable (fun _ member => member) fun assignable => ?_
    refine .expectKeyword "in" (.inl rfl) ((expressionList_serves reads).next fun iterated _ => .pure ?_)
    simp [assignable]
  have rest : ∀ (head : Expr × Expr) (stop : Cursor), Serves .block stop [] []
      (.nothing ++ (head.1.tally ++ head.2.tally ++ .rule head.1.Assignable)) Stmt.Shape.tally (fun _ => False) (do
        let body ← suite block
        return .forLoop isAsync head.1 head.2 body (← elseSuite block)) := by
    intro head stop
    refine (suite_serves blocks).next fun body _ => (elseSuite_serves blocks).next fun orelse _ => ?_
    exact .pure_bare (by simp [and_comm])
  have whole := head.lifted.next rest
  simp only [bind_assoc, pure_bind] at whole
  exact started word whole

theorem functionShape_serves (isAsync : Bool) :
    Serves .block cursor [] [] (.all Expr.tally decorators) Stmt.Shape.tally (fun _ => True)
      (functionShape expr block decorators isAsync) := by
  refine started word (.expectIdentifier _ (.expectDelimiter "(" rfl ?_))
  refine (params_serves reads _ _).lifted.next fun params _ => .expectDelimiter ")" rfl ?_
  refine (Serves.whenever (fun _ => .operator (.inl rfl)) fun _ => (reads.gains .lowest).lifted).next fun returns _ => ?_
  refine (suite_serves blocks).next fun body _ => .pure_bare ?_
  simp [forall_list_and, ← forall_iff_forall_mem, and_comm, and_left_comm]

theorem classShape_serves :
    Serves .block cursor [] [] (.all Expr.tally decorators) Stmt.Shape.tally (fun _ => True)
      (classShape expr block decorators) := by
  refine started word (.expectIdentifier _ ?_)
  have rest : ∀ (bases : List (Argument Expr)) (stop : Cursor), Serves .block stop [] []
      (.all Expr.tally decorators ++ .named [cursor.advance.current.text] ++ .all Argument.tally bases)
      Stmt.Shape.tally (fun _ => False)
      (do return .classDef ⟨cursor.advance.current.text, bases, ← suite block, decorators⟩) :=
    fun bases stop => (suite_serves blocks).next fun body _ => .pure_bare (by simp)
  have bare : ∀ {stop : Cursor}, Serves .block stop [] [] .nothing (.all Argument.tally) (fun _ => False) (pure []) :=
    .pure rfl
  exact .acceptDelimiter "(" rfl (fun _ => (arguments_serves reads).lifted.next rest) fun _ => bare.next rest

theorem handler_serves :
    Serves .block cursor [] [] .nothing Handler.tally (fun _ => True) (handler expr block) := by
  refine started word (.ask (.ite (fun _ => ?_) fun _ => (reads.gains .lowest).lifted.next fun caught _ => ?_))
  · exact (suite_serves blocks).next fun body _ => .pure_bare (by simp [Handler.names])
  · refine (asName_serves .name).lifted.next fun name _ => (suite_serves blocks).next fun body _ => ?_
    exact .pure_bare (by simp [Handler.names])

omit word in
theorem except_serves : Steps .block cursor [] Handler.tally (whenever (atKeyword "except") (handler expr block)) :=
  .whenever_word fun found => handler_serves reads blocks (Token.kind_of_isKeyword found)

theorem tryShape_serves :
    Serves .block cursor [] [] .nothing Stmt.Shape.tally (fun _ => True) (tryShape expr block) := by
  refine started word ((suite_serves blocks).next fun body _ => ?_)
  refine (Serves.many fun _ => except_serves reads blocks).next fun handlers _ => ?_
  refine (elseSuite_serves blocks).next fun orelse _ => ?_
  refine (Serves.whenever (fun _ => .keyword (.inl rfl)) fun _ => suite_serves blocks).next fun last _ => ?_
  refine .ite (fun _ => .refused _) fun handled => .pure_bare ?_
  have handled : handlers ≠ [] ∨ last.isSome = true := by
    cases handlers <;> cases last <;> simp_all
  simp [handled]

theorem withShape_serves (isAsync : Bool) :
    Serves .block cursor [] [] .nothing Stmt.Shape.tally (fun _ => True) (withShape expr block isAsync) := by
  refine started word ((Serves.items _ fun _ => withItem_serves reads).lifted.next fun entries _ => ?_)
  refine (suite_serves blocks).next fun body _ => .pure_bare ?_
  simp [flatMap_assoc, forall_list_and, ← forall_iff_forall_mem, and_comm, and_left_comm]

theorem asyncShape_serves :
    Serves .block cursor [] [] (.all Expr.tally decorators) Stmt.Shape.tally (fun _ => True)
      (asyncShape expr block decorators) := by
  refine started word (.ask (.ite (fun found => ?_) fun _ => ?_))
  · exact (functionShape_serves reads blocks (Token.kind_of_isKeyword found) true).reads
  cases decorators with
  | cons first others => exact .unexpected _
  | nil =>
    refine .ask (.ite (fun found => (forShape_serves reads blocks (Token.kind_of_isKeyword found) true).reads) fun _ => ?_)
    refine .ask (.ite (fun found => ?_) fun _ => .unexpected _)
    exact (withShape_serves reads blocks (Token.kind_of_isKeyword found) true).reads

end

theorem decoratedShape_serves (found : cursor.current.isOperator "@" = true) :
    Serves .block cursor [] [] .nothing Stmt.Shape.tally (fun _ => True) (decoratedShape expr block) := by
  have decorators : Gains cursor [] (.all Expr.tally) (many (decorator expr)) :=
    .many_first ((decorator_serves reads).weaken fun _ _ => .inr found) (fun _ _ => .many fun _ => decorator_steps reads)
      fun _ _ => by simp
  refine decorators.lifted.lead fun decorators _ => ?_
  rw [Tally.nothing_append]
  refine .ask (.ite (fun found => ?_) fun _ => .ask (.ite (fun found => ?_) fun _ => .ask (.ite (fun found => ?_) fun _ => ?_)))
  · exact (functionShape_serves reads blocks (Token.kind_of_isKeyword found) false).reads
  · exact (classShape_serves reads blocks (Token.kind_of_isKeyword found)).reads
  · exact (asyncShape_serves reads blocks (Token.kind_of_isKeyword found)).reads
  · exact .unexpected _

theorem compound?_serves {parser : Parser Stmt} (found : compound? expr block cursor.current = some parser) :
    Serves .block cursor [] [] .nothing Stmt.tally (fun _ => True) parser := by
  have located : ∀ {shape : Parser (Stmt.Shape Stmt)},
      Serves .block cursor [] [] .nothing Stmt.Shape.tally (fun _ => True) shape →
      Serves .block cursor [] [] .nothing Stmt.tally (fun _ => True) ((⟨cursor.current.line, ·⟩) <$> shape) :=
    fun serves => .located (.map (serves.framed _) (fun shape => by simp) fun _ => id)
  unfold compound? at found
  dsimp only at found
  split at found
  · rename_i decorated
    cases found
    exact located (decoratedShape_serves reads blocks decorated)
  · split at found
    · rename_i word
      split at found <;> cases found
      · exact ifStatement_serves reads blocks word
      · exact located (whileShape_serves reads blocks word)
      · exact located (forShape_serves reads blocks word _)
      · exact located (functionShape_serves reads blocks word _)
      · exact located (classShape_serves reads blocks word)
      · exact located (tryShape_serves reads blocks word)
      · exact located (withShape_serves reads blocks word _)
      · exact located (asyncShape_serves reads blocks word)
    · cases found

end

end Parser

namespace Cursor

variable {cursor middle stop : Cursor} {before after : Tally} {error : SyntaxError}

/-- What may come of a line: statements, or an error after some, which is not reported yet. -/
def ReadsLine (cursor : Cursor) : Line × Cursor → Prop
  | (⟨statements, none⟩, stop) =>
    cursor.Passes .block stop [] [] .nothing (.all Stmt.tally statements) ∧ stop.size < cursor.size
  | (⟨statements, some error⟩, stop) => cursor.Fails .block stop .nothing error ∧ statements.Forall Stmt.Whole ∧
    ∀ {high : Nat}, cursor.Ordered high → Climb cursor.line (Stmt.lines statements) stop.line

theorem ReadsLine.onward {outcome : Line × Cursor} (reads : cursor.ReadsLine outcome) : cursor.Onward outcome.2 := by
  obtain ⟨⟨statements, failure⟩, stop⟩ := outcome
  cases failure with
  | none => exact reads.1.toOnward
  | some error => exact reads.1.toOnward

theorem ReadsLine.of_fails (fails : cursor.Fails .block stop .nothing error) :
    cursor.ReadsLine (⟨[], some error⟩, stop) := by
  refine ⟨fails, trivial, fun ordered => ?_⟩
  rw [Stmt.lines_nil]
  exact (ordered.onward fails.toOnward).2

theorem ReadsLine.cons {statement : Stmt} {line : Line}
    (passes : cursor.Passes .block middle [] [] .nothing statement.tally)
    (reads : middle.ReadsLine (line, stop)) :
    cursor.ReadsLine (⟨statement :: line.statements, line.failure⟩, stop) := by
  obtain ⟨statements, failure⟩ := line
  cases failure with
  | none =>
    have whole := passes.trans (reads.1.framed statement.tally)
    rw [← Tally.all_cons] at whole
    exact ⟨whole, reads.2.trans_le passes.toOnward.size_le⟩
  | some error =>
    refine ⟨⟨passes.toOnward.trans reads.1.toOnward, fun ordered climb => ?_⟩, ?_, fun ordered => ?_⟩
    · obtain ⟨kept, _⟩ := passes.climbs ordered climb
      have onward := ordered.onward passes.toOnward
      have thrown : Faults.block.thrown middle.line middle stop error := reads.1.thrown onward.1 (Nat.le_refl _)
      exact Faults.block.after kept thrown
    · exact (forall_cons ..).mpr ⟨passes.sound trivial, reads.2.1⟩
    · have first := (passes.climbs ordered (Nat.le_refl cursor.line)).2
      have others := reads.2.2 (ordered.onward passes.toOnward).1
      change Climb cursor.line (Stmt.lines ([statement] ++ statements)) stop.line
      rw [Stmt.lines_append]
      exact first.append others

theorem onward_report (cursor : Cursor) (error : SyntaxError) : cursor.Onward (cursor.report error) :=
  ⟨prefix_append _ _, suffix_rfl, rfl⟩

theorem onward_synchronize (cursor : Cursor) : cursor.Onward cursor.synchronize :=
  ⟨prefix_rfl, nextStatement_suffix cursor.rest, rfl⟩

theorem Passes.of_report (fails : cursor.Fails .block middle .nothing error) (sound : after.sound)
    (climb : ∀ {high : Nat}, cursor.Ordered high → Climb cursor.line after.lines middle.line)
    (onward : (middle.report error).Onward stop) (same : stop.errors = (middle.report error).errors) :
    cursor.Passes .block stop [] [] .nothing after := by
  have whole := fails.toOnward.trans ((onward_report middle error).trans onward)
  refine ⟨whole, fun clean => ?_, by simp [Faults.block], fun ordered low => ?_, fun _ => sound⟩
  · have less := fails.errors.length_le
    rw [← clean, same, report, length_append, length_singleton] at less
    omega
  · have below : middle.line ≤ stop.line :=
      ((ordered.onward fails.toOnward).1.onward ((onward_report middle error).trans onward)).2
    obtain ⟨new, errors, inside⟩ := fails.thrown ordered low
    refine ⟨⟨new ++ [error], ?_, ?_⟩, ((climb ordered).lower low).raise below⟩
    · rw [same, report, errors, append_assoc]
    · rw [map_append]
      exact inside.raise below

theorem Passes.skip (passes : cursor.Passes .block middle [] [] before after)
    (reported : cursor.errors.length < middle.errors.length) :
    cursor.Passes .block middle.advance [] [] before after := by
  refine ⟨passes.toOnward.trans (onward_drop 1 middle), fun clean => ?_, by simp [Faults.block], fun ordered low => ?_,
    passes.sound⟩
  · have same : middle.errors = cursor.errors := clean
    rw [same] at reported
    omega
  · obtain ⟨kept, climb⟩ := passes.climbs ordered low
    have below := ((ordered.onward passes.toOnward).1.drop 1).2
    exact ⟨Faults.block.trans kept (Faults.block.still rfl below), climb.raise below⟩

theorem Passes.reported (cursor : Cursor) (cause : SyntaxError.Cause) (before : Tally) :
    cursor.Passes .block (cursor.advance.report (.atToken cursor.current cause)) [] [] before before := by
  have fails : cursor.Fails .block cursor.advance .nothing (.atToken cursor.current cause) :=
    ⟨onward_drop 1 cursor, fun ordered _ => ⟨[], (append_nil _).symm, Nat.le_refl _, (ordered.drop 1).2⟩⟩
  have passes : cursor.Passes .block (cursor.advance.report (.atToken cursor.current cause)) [] [] .nothing .nothing :=
    .of_report fails trivial (fun ordered => (ordered.drop 1).2) (.refl _) rfl
  have passes := passes.framed before
  rwa [Tally.append_nothing] at passes

theorem Passes.opening (found : cursor.current.isDelimiter ":" = true)
    (ends : cursor.advance.current.kind = .newline) (opens : cursor.advance.advance.current.kind = .indent)
    (before : Tally) : cursor.Passes .block cursor.advance.advance.advance [] [] before before := by
  have onward := ((onward_drop 1 cursor).trans (onward_drop 1 cursor.advance)).trans (onward_drop 1 cursor.advance.advance)
  refine ⟨onward, fun _ => ⟨_, ?_, .opening found ends opens before⟩, by simp [Faults.block], fun ordered climb => ?_, id⟩
  · rw [rest_of_current (by simp [(Token.kind_of_isDelimiter found).1]), rest_of_current (by simp [ends]),
      rest_of_current (by simp [opens])]
    rfl
  · have below := (ordered.onward onward).2
    exact ⟨Faults.block.still rfl below, climb.raise below⟩

end Cursor

namespace Parser

variable {expr : Precedence → Parser Expr} {block : Parser (Block Stmt)} (reads : ReadsExpr expr)

include reads

theorem simpleLine_serves (cursor : Cursor) : cursor.ReadsLine (simpleLine expr cursor) := by
  induction size : cursor.size using Nat.strongRecOn generalizing cursor with
  | ind size ih =>
    subst size
    have start : cursor.Fits .block [] [] .nothing (fun read => read.1.tally) (fun _ => True) (lineStatement expr cursor) :=
      (lineStatement_serves reads).lifted
    cases run : lineStatement expr cursor with
    | error error stop =>
      rw [run] at start
      rw [simpleLine_error run]
      exact .of_fails start
    | ok read stop =>
      obtain ⟨statement, more⟩ := read
      rw [run] at start
      obtain ⟨passes, gains⟩ := start
      have shorter : stop.size < cursor.size := gains trivial
      cases more with
      | true =>
        rw [simpleLine_more run shorter]
        exact .cons passes (ih stop.size shorter stop rfl)
      | false =>
        have ended : Serves .block stop [] [] .nothing (fun _ => .nothing) (fun _ => False)
            (expectNewline >>= fun _ => pure ()) := .expectNewline fun _ => .pure rfl
        rw [bind_pure_unit] at ended
        unfold Serves at ended
        rw [simpleLine_last run]
        cases closing : expectNewline stop with
        | ok value last =>
          rw [closing] at ended
          refine ⟨?_, ended.1.toOnward.size_le.trans_lt shorter⟩
          have whole := passes.trans (ended.1.framed statement.tally)
          rwa [Tally.append_nothing, ← Stmt.tally_singleton] at whole
        | error error last =>
          rw [closing] at ended
          exact .cons passes (.of_fails ended)

variable (blocks : block.Fills)

include blocks

theorem statementLine_serves (cursor : Cursor) : cursor.ReadsLine (statementLine expr block cursor) := by
  unfold statementLine
  split
  · exact simpleLine_serves reads cursor
  · rename_i parser found
    have serves := compound?_serves reads blocks found
    unfold Serves at serves
    cases run : parser cursor with
    | ok statement stop =>
      rw [run] at serves
      refine ⟨?_, serves.2 trivial⟩
      rw [Stmt.tally_singleton]
      exact serves.1
    | error error stop =>
      rw [run] at serves
      exact .of_fails serves

theorem recoveredLine_serves (cursor : Cursor) :
    cursor.Passes .block (recoveredLine expr block cursor).2 [] [] .nothing
      (.all Stmt.tally (recoveredLine expr block cursor).1) := by
  have line := statementLine_serves reads blocks cursor
  unfold recoveredLine
  dsimp only
  revert line
  obtain ⟨⟨statements, failure⟩, after⟩ := statementLine expr block cursor
  intro line
  cases failure with
  | none => exact line.1
  | some error =>
    have lines : ∀ {high : Nat}, cursor.Ordered high → Climb cursor.line (Tally.all Stmt.tally statements).lines after.line := by
      rw [Stmt.tally_all]
      exact line.2.2
    dsimp only
    split
    · exact .of_report line.1 line.2.1 lines ((Cursor.onward_synchronize _).trans (Cursor.onward_drop 1 _)) rfl
    · exact .of_report line.1 line.2.1 lines (Cursor.onward_synchronize _) rfl

theorem recoveredLine_gains {cursor : Cursor} (some : cursor.rest ≠ []) :
    (recoveredLine expr block cursor).2.size < cursor.size := by
  have line := statementLine_serves reads blocks cursor
  have there : 0 < cursor.size := by
    rw [cursor.size_eq]
    exact length_pos_iff.mpr some
  unfold recoveredLine
  dsimp only
  revert line
  obtain ⟨⟨statements, failure⟩, after⟩ := statementLine expr block cursor
  intro line
  cases failure with
  | none => exact line.2
  | some error =>
    have bound := (line.onward.trans ((Cursor.onward_report _ error).trans (Cursor.onward_synchronize _))).size_le
    dsimp only at bound ⊢
    split
    · change Cursor.size _ - 1 < cursor.size
      omega
    · omega

theorem overIndented_serves (depth : Nat) {start cursor : Cursor} {before : Tally}
    (passes : start.Passes .block cursor [] [] .nothing before)
    (reported : start.errors.length < cursor.errors.length) :
    start.Passes .block (overIndented expr block depth cursor).2 [] [] .nothing
      (before ++ .all Stmt.tally (overIndented expr block depth cursor).1) := by
  induction size : cursor.size using Nat.strongRecOn generalizing depth cursor before with
  | ind size ih =>
    subst size
    cases depth with
    | zero =>
      rw [overIndented, Tally.all_nil, Tally.append_nothing]
      exact passes
    | succ depth =>
      cases rest : cursor.rest with
      | nil =>
        rw [overIndented_nil _ rest, Tally.all_nil, Tally.append_nothing]
        exact passes
      | cons token more =>
        have here := Cursor.current_of_cons rest
        have shorter := Cursor.size_advance_of_cons rest
        rw [overIndented_cons rest, ← here]
        split
        · exact ih _ shorter depth (passes.skip reported) reported rfl
        · exact ih _ shorter depth (passes.skip reported) reported rfl
        · exact ih _ shorter (depth + 1) (passes.skip reported) reported rfl
        · refine ih _ shorter (depth + 2) (passes.trans (.reported cursor .unexpectedIndent before)) ?_ rfl
          exact reported.trans_le (Cursor.onward_report cursor.advance _).errors.length_le
        · have first := recoveredLine_serves reads blocks cursor
          have onward := passes.trans (first.framed before)
          unfold Cursor.followed
          split
          · rename_i less
            have others := ih _ less (depth + 1) onward (reported.trans_le first.errors.length_le) rfl
            rwa [Tally.append_assoc, ← Tally.all_append] at others
          · exact onward

theorem recovered_serves (cursor : Cursor) :
    cursor.Passes .block (recovered expr block cursor).2 [] [] .nothing
      (.all Stmt.tally (recovered expr block cursor).1) := by
  unfold recovered
  split
  · have lines := overIndented_serves reads blocks 1 (Cursor.Passes.reported cursor .unexpectedIndent .nothing)
      (by simp [Cursor.report, Cursor.advance, Cursor.drop])
    rwa [Tally.nothing_append] at lines
  · exact recoveredLine_serves reads blocks cursor

theorem statements_serves (stop skip : Token.Kind → Bool)
    (layout : ∀ kind, skip kind = true → kind = .newline ∨ kind = .dedent) (cursor : Cursor) :
    cursor.Passes .block (statements expr block stop skip cursor).2 [] [] .nothing
      (.all Stmt.tally (statements expr block stop skip cursor).1) := by
  induction size : cursor.size using Nat.strongRecOn generalizing cursor with
  | ind size ih =>
    subst size
    cases rest : cursor.rest with
    | nil =>
      rw [statements_nil rest]
      exact .refl cursor _ _
    | cons token more =>
      have here := Cursor.current_of_cons rest
      have shorter := Cursor.size_advance_of_cons rest
      rw [statements_cons rest, ← here]
      split
      · exact .refl cursor _ _
      · split
        · rename_i skipped
          have turns : cursor.current.Turns [] [] := by
            rcases layout _ skipped with kind | kind
            · exact .newline kind
            · exact .dedent kind
          exact (Cursor.Passes.turns turns .nothing).trans (ih _ shorter cursor.advance rfl)
        · have first := recovered_serves reads blocks cursor
          unfold Cursor.followed
          split
          · rename_i less
            have others := first.trans ((ih _ less _ rfl).framed _)
            rwa [← Tally.all_append] at others
          · exact first

theorem blockBody_fills : (blockBody expr block).Fills := by
  intro colon found
  have turns : colon.current.Turns [] [] := .delimiter rfl found
  have first : colon.Passes .block colon.advance [] [] .nothing .nothing := .turns turns .nothing
  have shorter := Cursor.size_advance_lt turns.inside
  have body : ∀ (line : Nat) (statements : List Stmt), Tally.nothing ++ .line line ++ .all Stmt.tally statements =
      Block.tally ⟨line, statements⟩ := by
    intro line statements
    rw [Tally.nothing_append, Stmt.tally_all]
    simp [Tally.line, Block.tally, Block.names_eq, Block.sound_iff]
  unfold blockBody
  split
  · have read := simpleLine_serves reads colon.advance
    revert read
    obtain ⟨⟨statements, failure⟩, after⟩ := simpleLine expr colon.advance
    intro read
    cases failure with
    | none =>
      have lines := (Cursor.Passes.located colon.advance [] .nothing).trans (read.1.framed _)
      rw [body] at lines
      exact ⟨first.trans lines, fun _ => read.2.trans shorter⟩
    | some error => exact first.fits read.1
  · rename_i newline
    have newline : colon.advance.current.kind = .newline := Decidable.not_not.mp newline
    split
    · exact first.fits (Serves.fail _)
    · rename_i indent
      have indent : colon.advance.advance.current.kind = .indent := by
        rw [Cursor.current_advance]
        exact Decidable.not_not.mp indent
      have opened : colon.Passes .block _ [] [] .nothing .nothing := .opening found newline indent .nothing
      have opens : colon.advance.advance.advance.size < colon.size :=
        ((Cursor.onward_drop 1 colon.advance).trans (Cursor.onward_drop 1 _)).size_le.trans_lt shorter
      have lines := statements_serves reads blocks (· == .dedent) (· == .newline) (by simp) colon.advance.advance.advance
      have inside := opened.trans ((Cursor.Passes.located _ [] .nothing).trans (lines.framed _))
      rw [body] at inside
      dsimp only
      split
      · rename_i dedent
        have closed := inside.trans (.turns (.dedent dedent) _)
        exact ⟨closed, fun _ => (lines.toOnward.trans (Cursor.onward_drop 1 _)).size_le.trans_lt opens⟩
      · exact ⟨inside, fun _ => lines.toOnward.size_le.trans_lt opens⟩

end Parser

theorem Parser.nestedBlock_fills (depth : Nat) : (nestedBlock depth).Fills := by
  induction depth with
  | zero => exact fun colon found => (Cursor.Passes.turns (.delimiter rfl found) .nothing).fits (Serves.fail _)
  | succ depth ih => exact blockBody_fills (expression_reads depth) ih

/-- Every program that is read keeps the rules for its shape, also if there are errors. -/
theorem Program.ofTokens_isWellShaped (file : String) (tokens : List Token) :
    (ofTokens file tokens).1.IsWellShaped := by
  have read := Parser.statements_serves (Parser.expression_reads nestingLimit) (Parser.nestedBlock_fills nestingLimit)
    (fun _ => false) (fun kind => kind == .newline || kind == .dedent) (by simp) (Cursor.ofTokens tokens)
  have whole : (ofTokens file tokens).1.statements.Forall Stmt.Whole := read.sound trivial
  -- the program has the rules and the children of a block
  obtain ⟨rules, slices, below⟩ := (@Block.sound_iff ⟨1, (ofTokens file tokens).1.statements⟩).mpr whole
  exact Node.Sound.visit (forall_mem_singleton.mpr (.intro rules slices below))

end SourceAudit
