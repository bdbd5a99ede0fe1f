import SourceAudit.Proofs.Grammar.Running

open List

namespace SourceAudit

namespace Token

def opensPart (token : Token) : Bool :=
  match token.kind with
  | .identifier | .integer | .string | .boolean | .none => true
  | .delimiter => token.text == "("
  | _ => false

theorem isDelimiter_of_opensPart {token : Token} {symbol : String} (opens : token.opensPart = true)
    (other : symbol ≠ "(") : token.isDelimiter symbol = false := by
  simp only [isDelimiter, Bool.and_eq_false_imp, beq_iff_eq, beq_eq_false_iff_ne]
  intro kind same
  simp only [opensPart, kind, beq_iff_eq] at opens
  exact other (same.symm.trans opens)

theorem isOperator_of_opensPart {token : Token} (symbol : String) (opens : token.opensPart = true) :
    token.isOperator symbol = false := by
  unfold opensPart at opens
  unfold isOperator
  split at opens <;> simp_all

theorem isKeyword_of_opensPart {token : Token} (word : String) (opens : token.opensPart = true) :
    token.isKeyword word = false := by
  unfold opensPart at opens
  unfold isKeyword
  split at opens <;> simp_all

theorem startsExpression_of_opensPart {token : Token} (opens : token.opensPart = true) :
    token.startsExpression = true := by
  unfold opensPart at opens
  unfold startsExpression
  split at opens <;> simp_all

/-- Tokens after which an expression does not go on with operators that bind tighter than
    `precedence`. -/
structure Ends (precedence : Precedence) (token : Token) : Prop where
  string : token.isString = false
  walrus : token.isOperator ":=" = false
  loose : ∀ next continuation, Continuation.ofTokens token next = some continuation →
    ¬ precedence < continuation.precedence

theorem Ends.delimiter {precedence : Precedence} {symbol : String} (plain : symbol ∉ ["(", "["]) :
    (Token.delimiter symbol).Ends precedence := by
  refine ⟨rfl, rfl, ?_⟩
  intro next continuation found
  change Continuation.ofDelimiter symbol = some continuation at found
  unfold Continuation.ofDelimiter at found
  split at found <;> simp_all

theorem Ends.keyword {precedence : Precedence} {word : String}
    (plain : word ∈ ["for", "async", "else", "as"]) : (Token.keyword word).Ends precedence := by
  refine ⟨rfl, rfl, ?_⟩
  intro next continuation found
  change Continuation.ofKeyword word next = some continuation at found
  unfold Continuation.ofKeyword at found
  split at found <;> simp_all

theorem ends_colon {precedence : Precedence} : (delimiter ":").Ends precedence := .delimiter (by decide)

theorem ends_as {precedence : Precedence} : (keyword "as").Ends precedence := .keyword (by decide)

theorem ends_in : (keyword "in").Ends .relational := by
  refine ⟨rfl, rfl, ?_⟩
  rintro next _ ⟨⟩
  decide

theorem ends_if : (keyword "if").Ends .conditional := by
  refine ⟨rfl, rfl, ?_⟩
  rintro next _ ⟨⟩
  decide

/-- The tokens start as a part of an expression does; a name is a part on its own. -/
def Opens (tokens : List Token) : Prop :=
  ∃ first others, tokens = first :: others ∧ first.opensPart = true ∧
    (first.kind = .identifier → others = [])

namespace Opens

variable {tokens : List Token}

theorem isDelimiter (opens : Opens tokens) (base : Cursor) (more : List Token) {symbol : String}
    (other : symbol ≠ "(") :
    (base.push (tokens ++ more)).current.isDelimiter symbol = false := by
  obtain ⟨first, others, rfl, opens, -⟩ := opens
  exact isDelimiter_of_opensPart opens other

theorem isOperator (opens : Opens tokens) (base : Cursor) (more : List Token) (symbol : String) :
    (base.push (tokens ++ more)).current.isOperator symbol = false := by
  obtain ⟨first, others, rfl, opens, -⟩ := opens
  exact isOperator_of_opensPart symbol opens

theorem isKeyword (opens : Opens tokens) (base : Cursor) (more : List Token) (word : String) :
    (base.push (tokens ++ more)).current.isKeyword word = false := by
  obtain ⟨first, others, rfl, opens, -⟩ := opens
  exact isKeyword_of_opensPart word opens

theorem startsExpression (opens : Opens tokens) (base : Cursor) (more : List Token) :
    (base.push (tokens ++ more)).current.startsExpression = true := by
  obtain ⟨first, others, rfl, opens, -⟩ := opens
  exact startsExpression_of_opensPart opens

end Opens
end Token

abbrev Expr.Same : Expr → Expr → Prop := Expr.Alike fun _ _ => True

theorem Cursor.peek_push (base : Cursor) (first second : Token) (more : List Token) :
    (base.push (first :: second :: more)).peek = second := rfl

namespace Parser

open Token (named keyword operator delimiter bracketed separated tupled)

section

variable (base : Cursor) {α γ : Type}

/-- Values of a list whose items are read up to a comma or up to the symbol that closes the list, and
    none of which starts where the list stops. -/
structure ReadsItems (stop : Token → Bool) (item : Parser α) (written : γ → List Token)
    (closer : String) (R : γ → α → Prop) (values : List γ) : Prop where
  apart : closer ∉ ["(", "[", ","]
  begins : ∀ value ∈ values, ∀ rest, stop (base.push (written value ++ rest)).current = false
  reads : ∀ value ∈ values, ∀ symbol rest, symbol ∉ ["(", "["] → symbol = "," ∨ symbol = closer →
    Takes base item (written value ++ delimiter symbol :: rest) (delimiter symbol :: rest) (R value)

namespace ReadsItems

variable {base} {stop : Token → Bool} {item : Parser α} {written : γ → List Token} {closer : String}
  {R : γ → α → Prop} {values others : List γ} {first : γ}

theorem tail (entries : ReadsItems base stop item written closer R (first :: others)) :
    ReadsItems base stop item written closer R others where
  apart := entries.apart
  begins value member := entries.begins value (mem_cons_of_mem _ member)
  reads value member := entries.reads value (mem_cons_of_mem _ member)

theorem plain (entries : ReadsItems base stop item written closer R values) {symbol : String}
    (link : symbol = "," ∨ symbol = closer) : symbol ∉ ["(", "["] := by
  have apart := entries.apart
  rcases link with rfl | rfl <;> simp_all

theorem onward (written : γ → List Token) (closer : String) (values : List γ) (more : List Token) :
    ∃ symbol rest, (symbol = "," ∨ symbol = closer) ∧
      values.flatMap (delimiter "," :: written ·) ++ delimiter closer :: more =
        delimiter symbol :: rest := by
  cases values with
  | nil => exact ⟨closer, more, .inr rfl, rfl⟩
  | cons => exact ⟨",", _, .inl rfl, rfl⟩

theorem run_first (entries : ReadsItems base stop item written closer R (first :: others))
    (more : List Token) :
    Takes base item
      (written first ++ (others.flatMap (delimiter "," :: written ·) ++ delimiter closer :: more))
      (others.flatMap (delimiter "," :: written ·) ++ delimiter closer :: more) (R first) := by
  obtain ⟨symbol, rest, link, split⟩ := onward written closer others more
  rw [split]
  exact entries.reads first (by simp) symbol rest (entries.plain link) link

theorem run_more (entries : ReadsItems base stop item written closer R values) (more : List Token) :
    Takes base (moreItems stop item)
      (values.flatMap (delimiter "," :: written ·) ++ delimiter closer :: more)
      (delimiter closer :: more) (List.Forall₂ R values) := by
  have apart := entries.apart
  refine run_many base (fun tokens => ∃ symbol rest, (symbol = "," ∨ symbol = closer) ∧
    tokens = delimiter symbol :: rest) ⟨closer, more, .inr rfl, rfl⟩ ?_ ?_ ?_
  · simp_all
  · intro value _ rest
    exact ⟨cons_ne_nil _ _, _, _, .inl rfl, rfl⟩
  · rintro value member _ ⟨symbol, rest, link, rfl⟩
    obtain ⟨result, run, same⟩ := entries.reads value member symbol rest (entries.plain link) link
    exact ⟨some result, by simp [entries.begins value member, run], result, rfl, same⟩

theorem run_items (entries : ReadsItems base stop item written closer R values)
    (closes : values = [] → stop (delimiter closer) = true) (more : List Token) :
    Takes base (items stop item) (separated (values.map written) ++ delimiter closer :: more)
      (delimiter closer :: more) (List.Forall₂ R values) := by
  cases values with
  | nil => exact ⟨[], by simp [items, separated, closes rfl], .nil⟩
  | cons first others =>
    obtain ⟨result, run, same⟩ := entries.run_first more
    obtain ⟨results, runs, alike⟩ := entries.tail.run_more more
    refine ⟨result :: results, ?_, .cons same alike⟩
    rw [Token.separated_cons]
    simp [items, entries.begins first (by simp), run, runs]

theorem run_tupled (entries : ReadsItems base stop item written closer R (first :: others))
    (closes : stop (delimiter closer) = true) (more : List Token) :
    ∃ rest, tupled ((first :: others).map written) ++ delimiter closer :: more =
        written first ++ delimiter "," :: rest ∧
      Takes base item (written first ++ delimiter "," :: rest) (delimiter "," :: rest) (R first) ∧
      Takes base (moreItems stop item) (delimiter "," :: rest) (delimiter closer :: more)
        (List.Forall₂ R others) := by
  have read (rest : List Token) := entries.reads first (by simp) "," rest (by decide) (.inl rfl)
  cases others with
  | nil =>
    refine ⟨delimiter closer :: more, by simp [tupled], read _, [], ?_, .nil⟩
    exact Parser.many_none (by simp [closes])
  | cons second others =>
    refine ⟨_, ?_, read _, entries.tail.run_more more⟩
    simp [tupled, separated, flatMap_def, Function.comp_def]

end ReadsItems
end

variable (base : Cursor) (expr : Precedence → Parser Expr) (part : Expr → List Token)

/-- An expression whose tokens as a part of another one are read back up to a token that ends it. -/
structure Reads (value : Expr) : Prop where
  opens : Token.Opens (part value)
  whole : ∀ {precedence : Precedence} {next : Token} (more : List Token), next.Ends precedence →
    ∃ result, expr precedence (base.push (part value ++ next :: more)) =
      .ok result (base.push (next :: more)) ∧ value.Same result

variable {base expr part}

theorem Reads.upTo {value : Expr} (reads : Reads base expr part value) (precedence : Precedence)
    (symbol : String) (plain : symbol ∉ ["(", "["]) (more : List Token) :
    Takes base (expr precedence) (part value ++ delimiter symbol :: more) (delimiter symbol :: more)
      value.Same :=
  reads.whole more (.delimiter plain)

theorem readsItems_exprs {values : List Expr} (reads : ∀ value ∈ values, Reads base expr part value)
    (precedence : Precedence) {closer : String} (apart : closer ∉ ["(", "[", ","]) :
    ReadsItems base (·.isDelimiter closer) (expr precedence) part closer Expr.Same values where
  apart := apart
  begins value member rest := (reads value member).opens.isDelimiter base rest (by simp_all)
  reads value member _ rest plain _ := (reads value member).upTo _ _ plain rest

theorem run_argument {arg : Argument Expr} (reads : Reads base expr part arg.value) {next : String}
    (plain : next ∉ ["(", "["]) (more : List Token) :
    Takes base (argument expr) (arg.tokens part ++ delimiter next :: more) (delimiter next :: more)
      (Argument.Alike Expr.Same arg) := by
  obtain ⟨kind, value⟩ := arg
  obtain ⟨result, run, same⟩ := reads.upTo .lowest _ plain more
  refine ⟨⟨kind, result⟩, ?_, .intro kind same⟩
  cases kind with
  | star | doubleStar =>
    simp [Argument.tokens, ArgumentKind.tokens, argument, run]
  | keyword name =>
    simp [Argument.tokens, ArgumentKind.tokens, argument, Cursor.peek_push, run]
  | positional =>
    have bare : ¬ ((base.push (part value ++ delimiter next :: more)).current.kind = .identifier ∧
        (base.push (part value ++ delimiter next :: more)).peek.isOperator "=" = true) := by
      rintro ⟨name, follows⟩
      obtain ⟨first, others, shape, -, alone⟩ := reads.opens
      rw [shape] at name follows
      rw [alone name] at follows
      simp [Cursor.peek_push] at follows
    simp [Argument.tokens, ArgumentKind.tokens, argument, reads.opens.isOperator, bare,
      run, Token.startsGenerator]

theorem run_arguments {args : List (Argument Expr)}
    (reads : ∀ arg ∈ args, Reads base expr part arg.value) (more : List Token) :
    Takes base (arguments expr) (separated (args.map (·.tokens part)) ++ delimiter ")" :: more) more
      (List.Forall₂ (Argument.Alike Expr.Same) args) := by
  have entries : ReadsItems base (·.isDelimiter ")") (argument expr) (·.tokens part) ")"
      (Argument.Alike Expr.Same) args := by
    refine ⟨by decide, ?_, fun arg member _ rest plain _ => run_argument (reads arg member) plain rest⟩
    rintro ⟨kind, value⟩ member rest
    cases kind with
    | positional => exact (reads _ member).opens.isDelimiter base rest (by decide)
    | keyword | star | doubleStar => rfl
  obtain ⟨results, run, alike⟩ := entries.run_items (fun _ => rfl) more
  exact ⟨results, by simp [arguments, run], alike⟩

def LoopEnds (tokens : List Token) : Prop :=
  ∃ next more, tokens = next :: more ∧ next.Ends .conditional ∧ next.isKeyword "if" = false

theorem run_conditions {conditions : List Expr}
    (reads : ∀ condition ∈ conditions, Reads base expr part condition) {more : List Token}
    (ends : LoopEnds more) :
    Takes base (many (whenever (acceptKeyword "if") (expr .conditional)))
      (conditions.flatMap (keyword "if" :: part ·) ++ more) more (List.Forall₂ Expr.Same conditions) := by
  obtain ⟨next, rest, rfl, loose, other⟩ := ends
  refine run_many base (fun tokens => ∃ next rest, tokens = next :: rest ∧ next.Ends .conditional)
    ⟨next, rest, rfl, loose⟩ (by simp [whenever, other]) ?_ ?_
  · intro condition _ rest
    exact ⟨cons_ne_nil _ _, _, _, rfl, Token.ends_if⟩
  · rintro condition member _ ⟨next, rest, rfl, loose⟩
    obtain ⟨result, run, same⟩ := (reads condition member).whole rest loose
    exact ⟨some result, by simp [whenever, run], result, rfl, same⟩

theorem run_generator {generator : Generator Expr}
    (reads : ∀ value ∈ generator.children, Reads base expr part value) {more : List Token}
    (ends : LoopEnds more) :
    Takes base (Parser.generator expr) (generator.tokens part ++ more) more
      (∃ result ∈ ·, Generator.Alike Expr.Same generator result) := by
  obtain ⟨target, iterated, conditions, isAsync⟩ := generator
  simp only [Generator.children, mem_cons, forall_eq_or_imp] at reads
  obtain ⟨forTarget, forIterated, forConditions⟩ := reads
  obtain ⟨tests, runTests, sameTests⟩ := run_conditions forConditions ends
  have onward : ∃ next rest, conditions.flatMap (keyword "if" :: part ·) ++ more = next :: rest ∧
      next.Ends .conditional := by
    cases conditions with
    | nil =>
      obtain ⟨next, rest, rfl, loose, -⟩ := ends
      exact ⟨next, rest, rfl, loose⟩
    | cons condition _ => exact ⟨_, _, rfl, Token.ends_if⟩
  obtain ⟨next, rest, split, loose⟩ := onward
  obtain ⟨source, runSource, sameSource⟩ := forIterated.whole rest loose
  obtain ⟨goal, runGoal, sameGoal⟩ := forTarget.whole
    (part iterated ++ (conditions.flatMap (keyword "if" :: part ·) ++ more)) Token.ends_in
  rw [← split] at runSource
  refine ⟨_, ?_, ⟨goal, source, tests, isAsync⟩, rfl, .intro isAsync sameGoal sameSource sameTests⟩
  cases isAsync <;>
  simp [Generator.tokens, Parser.generator, targetList, runGoal, runSource, runTests]

theorem run_generators {generators : List (Generator Expr)}
    (reads : ∀ generator ∈ generators, ∀ value ∈ generator.children, Reads base expr part value)
    (closer : String) (plain : closer ∉ ["(", "["]) (more : List Token) :
    Takes base (Parser.generators expr) (generators.flatMap (·.tokens part) ++ delimiter closer :: more)
      (delimiter closer :: more) (List.Forall₂ (Generator.Alike Expr.Same) generators) := by
  refine run_many base LoopEnds ⟨_, _, rfl, .delimiter plain, rfl⟩ (by simp [Parser.generator]) ?_
    fun generator member rest ends => run_generator (reads generator member) ends
  rintro ⟨target, iterated, conditions, isAsync⟩ _ rest
  cases isAsync <;> exact ⟨cons_ne_nil _ _, _, _, rfl, .keyword (by decide), rfl⟩

theorem run_paramEntry {parameter : Param Expr}
    (reads : ∀ value ∈ parameter.children, Reads base expr part value) (bare : parameter.hint = none)
    (plain : parameter.kind ≠ .normal → parameter.fallback = none) {terminator next : String}
    {hints : Bool} (closes : terminator = ")" ∨ terminator = ":" ∧ hints = false)
    (apart : next ∉ ["(", "["]) (follows : next = "," ∨ next = terminator) (more : List Token) :
    Takes base (paramEntry expr terminator hints) (parameter.tokens part ++ delimiter next :: more)
      (delimiter next :: more) (∃ result ∈ ·, Param.Alike Expr.Same parameter result) := by
  obtain ⟨name, kind, hint, fallback⟩ := parameter
  obtain rfl : hint = none := bare
  have colon : hints = true → next ≠ ":" := by
    rintro rfl rfl
    simp_all
  cases fallback with
  | none =>
    refine ⟨_, ?_, ⟨name, kind, none, none⟩, rfl, .intro name kind .none .none⟩
    cases kind <;> cases hints <;>
      simp_all [Param.tokens, ParamKind.tokens, paramEntry, param, whenever]
  | some value =>
    obtain rfl : kind = .normal := by
      by_contra other
      cases plain other
    obtain ⟨result, run, same⟩ :=
      (reads value (by simp [Param.children])).upTo .lowest _ apart more
    refine ⟨_, ?_, ⟨name, .normal, none, some result⟩, rfl, .intro name _ .none (.some same)⟩
    cases hints <;> simp [Param.tokens, ParamKind.tokens, paramEntry, param, whenever, run]

theorem run_params {parameters : List (Param Expr)}
    (reads : ∀ parameter ∈ parameters, ∀ value ∈ parameter.children, Reads base expr part value)
    (bare : ∀ parameter ∈ parameters, parameter.hint = none)
    (plain : ∀ parameter ∈ parameters, parameter.kind ≠ .normal → parameter.fallback = none)
    (terminator : String) (hints : Bool) (closes : terminator = ")" ∨ terminator = ":" ∧ hints = false)
    (more : List Token) :
    Takes base (params expr terminator hints)
      (separated (parameters.map (·.tokens part)) ++ delimiter terminator :: more)
      (delimiter terminator :: more) (List.Forall₂ (Param.Alike Expr.Same) parameters) := by
  have entries : ReadsItems base (·.isDelimiter terminator) (paramEntry expr terminator hints)
      (·.tokens part) terminator (fun parameter => (∃ result ∈ ·, Param.Alike Expr.Same parameter result))
      parameters := by
    refine ⟨?_, ?_, fun parameter member _ rest apart => ?_⟩
    · rcases closes with rfl | ⟨rfl, -⟩ <;> decide
    · rintro ⟨name, kind, hint, fallback⟩ member rest
      cases kind <;> rfl
    · exact (run_paramEntry (reads parameter member) (bare parameter member) (plain parameter member)
        closes apart · rest)
  obtain ⟨results, run, alike⟩ := entries.run_items (fun _ => by simp) more
  refine ⟨results.filterMap id, by simp [params, run], ?_⟩
  clear run reads bare plain entries
  induction alike with
  | nil => exact .nil
  | cons first _ ih =>
    obtain ⟨result, rfl, same⟩ := first
    exact .cons same ih

theorem run_dictEntry {entry : DictEntry Expr}
    (reads : ∀ value ∈ entry.children, Reads base expr part value) {next : String}
    (plain : next ∉ ["(", "["]) (more : List Token) :
    Takes base (dictEntry expr) (entry.tokens part ++ delimiter next :: more) (delimiter next :: more)
      (DictEntry.Alike Expr.Same entry) := by
  obtain ⟨key, value⟩ := entry
  have forValue : Reads base expr part value := reads value (by simp [DictEntry.children])
  cases key with
  | none =>
    obtain ⟨result, run, same⟩ := forValue.upTo .bitwise _ plain more
    exact ⟨⟨none, result⟩, by simp [dictEntry, run], .intro .none same⟩
  | some key =>
    have forKey : Reads base expr part key := reads key (by simp [DictEntry.children])
    obtain ⟨result, run, same⟩ := forValue.upTo .lowest _ plain more
    obtain ⟨index, runs, sames⟩ :=
      forKey.upTo .lowest ":" (by decide) (part value ++ delimiter next :: more)
    refine ⟨⟨some index, result⟩, ?_, .intro (.some sames) same⟩
    simp [dictEntry, forKey.opens.isOperator, runs, run]

theorem run_dictEntries {entries : List (DictEntry Expr)}
    (reads : ∀ entry ∈ entries, ∀ value ∈ entry.children, Reads base expr part value)
    (more : List Token) :
    Takes base (dictEntries expr) (separated (entries.map (·.tokens part)) ++ delimiter "\x7d" :: more)
      more (List.Forall₂ (DictEntry.Alike Expr.Same) entries) := by
  have inside : ReadsItems base (·.isDelimiter "\x7d") (dictEntry expr) (·.tokens part) "\x7d"
      (DictEntry.Alike Expr.Same) entries := by
    refine ⟨by decide, ?_, fun entry member _ rest plain _ => run_dictEntry (reads entry member) plain rest⟩
    rintro ⟨key, value⟩ member rest
    cases key with
    | none => rfl
    | some key =>
      have forKey : Reads base expr part key := reads _ member key (by simp [DictEntry.children])
      simpa using forKey.opens.isDelimiter base _ (by decide)
  obtain ⟨results, run, alike⟩ := inside.run_items (fun _ => rfl) more
  exact ⟨results, by simp [dictEntries, run], alike⟩

theorem run_sliceBound {bound : Option Expr} (reads : ∀ value ∈ bound, Reads base expr part value)
    (next : String) (follows : next = ":" ∨ next = "]" ∨ next = ",") (more : List Token) :
    Takes base (sliceBound expr) (bound.toList.flatMap part ++ delimiter next :: more)
      (delimiter next :: more) (Option.Rel Expr.Same bound) := by
  have plain : next ∉ ["(", "["] := by rcases follows with rfl | rfl | rfl <;> decide
  cases bound with
  | none =>
    refine ⟨none, ?_, .none⟩
    rcases follows with rfl | rfl | rfl <;> simp [sliceBound]
  | some value =>
    have forValue := reads value rfl
    obtain ⟨result, run, same⟩ := forValue.upTo .lowest next plain more
    exact ⟨some result, by simp [sliceBound, forValue.opens.isDelimiter, run], .some same⟩

theorem run_sliceItem {item : Expr} (reads : ∀ value ∈ item.bounds, Reads base expr part value)
    (next : String) (follows : next = "]" ∨ next = ",") (more : List Token) :
    Takes base (sliceItem expr) (item.indexItem part ++ delimiter next :: more) (delimiter next :: more)
      item.Same := by
  have colon : (delimiter next).isDelimiter ":" = false := by
    rcases follows with rfl | rfl <;> rfl
  cases kind : item.isSlice with
  | true =>
    obtain ⟨line, lower, upper, step, rfl⟩ := Expr.exists_of_isSlice kind
    simp only [Expr.bounds, forall_mem_append, Option.mem_toList] at reads
    obtain ⟨⟨forLower, forUpper⟩, forStep⟩ := reads
    have run (rest : List Token) := run_sliceBound forLower ":" (.inl rfl) rest
    cases step with
    | none =>
      obtain ⟨last, runLast, sameLast⟩ := run_sliceBound forUpper next (.inr follows) more
      obtain ⟨first, runFirst, sameFirst⟩ := run (upper.toList.flatMap part ++ delimiter next :: more)
      exact ⟨⟨_, .slice first last none⟩,
        by simp [Expr.indexItem, sliceItem, runFirst, runLast, colon]; rfl,
        .intro trivial (.slice sameFirst sameLast .none)⟩
    | some width =>
      obtain ⟨stride, runStride, sameStride⟩ := run_sliceBound forStep next (.inr follows) more
      obtain ⟨last, runLast, sameLast⟩ := run_sliceBound forUpper ":" (.inl rfl)
        (part width ++ delimiter next :: more)
      obtain ⟨first, runFirst, sameFirst⟩ := run (upper.toList.flatMap part ++
        delimiter ":" :: (part width ++ delimiter next :: more))
      simp only [Option.toList_some, flatMap_singleton] at runStride
      exact ⟨⟨_, .slice first last stride⟩,
        by simp [Expr.indexItem, sliceItem, runFirst, runLast, runStride]; rfl,
        .intro trivial (.slice sameFirst sameLast sameStride)⟩
  | false =>
    have forItem : Reads base expr part item := reads item (by simp [Expr.bounds_of_not_slice kind])
    obtain ⟨result, run, same⟩ := forItem.upTo .lowest next (by rcases follows with rfl | rfl <;> decide) more
    refine ⟨result, ?_, same⟩
    rw [Expr.indexItem_of_not_slice part kind]
    simp [sliceItem, sliceBound, forItem.opens.isDelimiter, run, colon]

theorem isDelimiter_indexItem {item : Expr} (reads : ∀ value ∈ item.bounds, Reads base expr part value)
    (rest : List Token) :
    (base.push (item.indexItem part ++ rest)).current.isDelimiter "]" = false := by
  cases kind : item.isSlice with
  | true =>
    obtain ⟨line, lower, upper, step, rfl⟩ := Expr.exists_of_isSlice kind
    cases lower with
    | none => rfl
    | some value =>
      have forValue : Reads base expr part value := reads value (by simp [Expr.bounds])
      simpa [Expr.indexItem] using forValue.opens.isDelimiter base _ (by decide)
  | false =>
    rw [Expr.indexItem_of_not_slice part kind]
    have forItem : Reads base expr part item := reads item (by simp [Expr.bounds_of_not_slice kind])
    exact forItem.opens.isDelimiter base rest (by decide)

theorem run_index {index : Expr} (reads : ∀ value ∈ index.indices, Reads base expr part value)
    (more : List Token) :
    Takes base (subscriptIndex expr) (index.index part ++ delimiter "]" :: more)
      (delimiter "]" :: more) index.Same := by
  unfold Expr.index
  unfold Expr.indices at reads
  cases sliced : index.slicedItems? with
  | none =>
    rw [sliced] at reads
    obtain ⟨result, run, same⟩ := run_sliceItem reads "]" (.inl rfl) more
    exact ⟨result, by simp [subscriptIndex, run], same⟩
  | some items =>
    rw [sliced] at reads
    obtain ⟨line, first, others, rfl, rfl⟩ := Expr.exists_of_slicedItems? sliced
    simp only [forall_mem_flatMap] at reads
    have entries : ReadsItems base (·.isDelimiter "]") (sliceItem expr) (Expr.indexItem part) "]"
        Expr.Same (first :: others) :=
      ⟨by decide, fun item member => isDelimiter_indexItem (reads item member),
        fun item member symbol rest _ link => run_sliceItem (reads item member) symbol link.symm rest⟩
    obtain ⟨rest, split, ⟨result, run, same⟩, results, runs, alike⟩ := entries.run_tupled rfl more
    refine ⟨⟨result.line, .tuple (result :: results)⟩, ?_, .intro trivial (.tuple (.cons same alike))⟩
    change subscriptIndex expr (base.push (tupled ((first :: others).map (Expr.indexItem part)) ++
      delimiter "]" :: more)) = _
    rw [split]
    simp [subscriptIndex, run, runs]

end Parser
end SourceAudit
