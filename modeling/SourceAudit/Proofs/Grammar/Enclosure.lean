import SourceAudit.Proofs.Grammar.PartReading
import SourceAudit.Proofs.Number.Digits

open List

namespace SourceAudit

open Token (named keyword operator delimiter bracketed separated tupled)

namespace Parser

variable {base : Cursor} {expr : Precedence → Parser Expr} {part : Expr → List Token}

theorem run_tail?_none {precedence : Precedence} {next : Token} {more : List Token}
    (ends : next.Ends precedence) :
    tail? expr precedence (base.push (next :: more)) = .ok none (base.push (next :: more)) := by
  unfold tail?
  simp only [run_bind, run_current, run_peek, Cursor.current_push_cons]
  cases found : Continuation.ofTokens next (base.push (next :: more)).peek with
  | none => rfl
  | some continuation => simp [ends.loose _ _ found]

theorem run_operators {precedence : Precedence} {cursor : Cursor} {first : Expr} {next : Token}
    {more : List Token} (run : operand expr cursor = .ok first (base.push (next :: more)))
    (ends : next.Ends precedence) :
    operators expr precedence cursor = .ok first (base.push (next :: more)) := by
  simp [operators, run, Parser.many_none (run_tail?_none ends), ends.walrus]

theorem run_operators_tail {precedence : Precedence} {cursor : Cursor} {first : Expr} {tail : Tail}
    {next : Token} {tokens more : List Token}
    (run : operand expr cursor = .ok first (base.push (tokens ++ next :: more)))
    (goes : tail? expr precedence (base.push (tokens ++ next :: more)) =
      .ok (some tail) (base.push (next :: more))) (some : tokens ≠ [])
    (ends : next.Ends precedence) :
    operators expr precedence cursor = .ok (first.extend tail) (base.push (next :: more)) := by
  have shorter : (base.push (next :: more)).size < (base.push (tokens ++ next :: more)).size := by
    have := length_pos_iff.mpr some
    simp only [Cursor.size_push, length_append]
    omega
  simp [operators, run, Parser.many_some goes shorter,
    Parser.many_none (run_tail?_none ends), ends.walrus]

theorem run_tail? {precedence : Precedence} {continuation : Continuation} {first : Token}
    {rest : List Token}
    (found : Continuation.ofTokens first (base.push rest).current = some continuation)
    (tighter : precedence < continuation.precedence) :
    tail? expr precedence (base.push (first :: rest)) =
      (some <$> tail expr continuation) (base.push (first :: rest)) := by
  have peek : (base.push (first :: rest)).peek = (base.push rest).current := by
    rw [← Cursor.current_advance, Cursor.advance_push_cons]
  unfold tail?
  simp only [run_bind, run_current, run_peek, Cursor.current_push_cons, peek, found, if_pos tighter,
    bind_pure_comp]

theorem run_listed {first : Expr} {others : List Expr}
    (reads : ∀ item ∈ first :: others, Reads base expr part item) (closer : String)
    (apart : closer ∉ ["(", "[", ",", ":"]) (more : List Token) :
    ∃ symbol rest, separated ((first :: others).map part) ++ delimiter closer :: more =
        part first ++ delimiter symbol :: rest ∧ symbol ≠ ":" ∧
      Takes base (expr .lowest) (part first ++ delimiter symbol :: rest) (delimiter symbol :: rest)
        first.Same ∧
      Takes base (moreItems (·.isDelimiter closer) (expr .lowest)) (delimiter symbol :: rest)
        (delimiter closer :: more) (List.Forall₂ Expr.Same others) := by
  have entries : ReadsItems base (·.isDelimiter closer) (expr .lowest) part closer Expr.Same
      (first :: others) := readsItems_exprs reads _ (by simp_all)
  obtain ⟨symbol, rest, link, split⟩ := ReadsItems.onward part closer others more
  have run := entries.run_first more
  have runs := entries.tail.run_more more
  rw [split] at run runs
  refine ⟨symbol, rest, by rw [Token.separated_cons, split], ?_, run, runs⟩
  rcases link with rfl | rfl <;> simp_all

theorem run_looped {element : Expr} {generators : List (Generator Expr)}
    (reads : Reads base expr part element)
    (loops : ∀ generator ∈ generators, ∀ value ∈ generator.children, Reads base expr part value)
    (some : generators ≠ []) (closer : String) (plain : closer ∉ ["(", "["]) (more : List Token) :
    ∃ word rest, generators.flatMap (·.tokens part) ++ delimiter closer :: more = keyword word :: rest ∧
      (word = "for" ∨ word = "async") ∧
      Takes base (expr .lowest) (part element ++ keyword word :: rest) (keyword word :: rest)
        element.Same ∧
      Takes base (Parser.generators expr) (keyword word :: rest) (delimiter closer :: more)
        (List.Forall₂ (Generator.Alike Expr.Same) generators) := by
  have runs := run_generators loops closer plain more
  obtain ⟨word, rest, split, loop⟩ : ∃ word rest, generators.flatMap (·.tokens part) ++
      delimiter closer :: more = keyword word :: rest ∧ (word = "for" ∨ word = "async") := by
    cases generators with
    | nil => cases some rfl
    | cons first others =>
      obtain ⟨target, iterated, conditions, isAsync⟩ := first
      cases isAsync
      · exact ⟨"for", _, rfl, .inl rfl⟩
      · exact ⟨"async", _, rfl, .inr rfl⟩
  rw [split] at runs
  refine ⟨word, rest, split, loop, reads.whole rest (.keyword ?_), runs⟩
  rcases loop with rfl | rfl <;> decide

theorem run_dictAfterKey (key : Expr) {value : Expr} (forValue : Reads base expr part value)
    {others : List (DictEntry Expr)}
    (reads : ∀ entry ∈ others, ∀ value ∈ entry.children, Reads base expr part value)
    (more : List Token) :
    Takes base (dictAfterKey expr key) (part value ++
        (others.flatMap (delimiter "," :: ·.tokens part) ++ delimiter "\x7d" :: more)) more
      (fun shape => ∃ result entries, shape = .dict (⟨some key, result⟩ :: entries) ∧ value.Same result ∧
        List.Forall₂ (DictEntry.Alike Expr.Same) others entries) := by
  cases others with
  | nil =>
    obtain ⟨result, run, same⟩ := forValue.upTo .lowest "\x7d" (by decide) more
    exact ⟨_, by simp [dictAfterKey, run], result, [], rfl, same, .nil⟩
  | cons second rest =>
    obtain ⟨entries, runs, alike⟩ := run_dictEntries reads more
    rw [Token.separated_cons] at runs
    obtain ⟨result, run, same⟩ := forValue.upTo .lowest "," (by decide)
      (second.tokens part ++ (rest.flatMap (delimiter "," :: ·.tokens part) ++ delimiter "\x7d" :: more))
    exact ⟨_, by simp [dictAfterKey, run, runs], result, entries, rfl, same, alike⟩

theorem run_operand_atom {value : Expr} (atom : value.isAtom = true) (formed : value.shape.IsFormed)
    {next : Token} (other : next.isString = false) (more : List Token) :
    Takes base (operand expr) (value.shape.tokens part ++ next :: more) (next :: more) value.Same := by
  obtain ⟨line, shape⟩ := value
  cases shape with
  | identifier name =>
    exact ⟨⟨1, .identifier name⟩, by simp [Expr.Shape.tokens, operand, Parser.atom, named],
      .intro trivial (.identifier name)⟩
  | int value =>
    obtain ⟨positive, small⟩ : 0 ≤ value ∧ value < 0x8000000000000000 := formed
    obtain ⟨n, rfl⟩ := Int.eq_ofNat_of_zero_le positive
    have read : Token.integer? n.repr = some (n : Int) := Token.integer?_repr (by omega)
    refine ⟨⟨1, .int n⟩, ?_, .intro trivial (.int n)⟩
    simp [Expr.Shape.tokens, operand, Parser.atom, read]
  | string text =>
    have last : many (stringPiece expr) (base.push (next :: more)) = .ok [] (base.push (next :: more)) :=
      Parser.many_none (by simp [stringPiece, other])
    have first : stringPiece expr (base.push (⟨.string, text, 1⟩ :: next :: more)) =
        .ok (some (.plain text)) (base.push (next :: more)) := by
      simp [stringPiece, Token.isString]
    have pieces : many (stringPiece expr) (base.push (⟨.string, text, 1⟩ :: next :: more)) =
        .ok [.plain text] (base.push (next :: more)) := by
      rw [Parser.many_some first (by simp [Cursor.size_push]), run_map, last]
    refine ⟨⟨1, .string text⟩, ?_, .intro trivial (.string text)⟩
    simp [Expr.Shape.tokens, operand, strings, pieces, StringPiece.joined, StringPiece.isFormatted,
      StringPiece.text]
  | bool value =>
    refine ⟨⟨1, .bool value⟩, ?_, .intro trivial (.bool value)⟩
    cases value <;> simp [Expr.Shape.tokens, operand, Parser.atom]
  | none =>
    exact ⟨⟨1, .none⟩, by simp [Expr.Shape.tokens, operand, Parser.atom], .intro trivial .none⟩
  | _ => cases atom

variable (base expr part)

def ReadsOperand (value : Expr) : Prop :=
  ∀ (next : Token) (more : List Token), next.isString = false →
    ∃ result, operand expr (base.push (part value ++ next :: more)) =
      .ok result (base.push (next :: more)) ∧ value.Same result

/-- The tokens of an expression are read back between parentheses. -/
def Encloses (value : Expr) : Prop :=
  ∀ more : List Token, ∃ result, parenthesized (operators expr) 1
      (base.push (value.shape.tokens part ++ delimiter ")" :: more)) = .ok result (base.push more) ∧
    value.Same result

variable {base expr part}

theorem ReadsOperand.reads {value : Expr} (reads : ReadsOperand base expr part value)
    (opens : Token.Opens (part value)) : Reads base (operators expr) part value := by
  refine ⟨opens, ?_⟩
  intro precedence next more ends
  obtain ⟨result, run, same⟩ := reads next more ends.string
  exact ⟨result, run_operators run ends, same⟩

theorem run_parenthesized_whole {cursor : Cursor} {result : Expr} {more : List Token}
    (begins : cursor.current.isDelimiter ")" = false) (other : cursor.current.isKeyword "yield" = false)
    (run : expr .lowest cursor = .ok result (base.push (delimiter ")" :: more))) :
    parenthesized expr 1 cursor = .ok result (base.push more) := by
  simp [parenthesized, begins, other, run]

theorem encloses_operand {value : Expr} {first : Token} {others : List Token}
    (spelled : value.shape.tokens part = first :: others) (begins : first.isDelimiter ")" = false)
    (other : first.isKeyword "yield" = false)
    (reads : ∀ more, Takes base (operand expr) (first :: (others ++ delimiter ")" :: more))
      (delimiter ")" :: more) value.Same) : Encloses base expr part value := by
  intro more
  obtain ⟨result, run, same⟩ := reads more
  rw [spelled]
  exact ⟨result, run_parenthesized_whole begins other (run_operators run (.delimiter (by decide))), same⟩

section

variable {line : Nat} {shape : Expr.Shape Expr} {tokens : List Token}

theorem encloses_display {opening closing : String} {display : Parser (Expr.Shape Expr)}
    (begins : (delimiter opening).isDelimiter ")" = false)
    (starts : ∀ tokens, operand expr (base.push (delimiter opening :: tokens)) =
      (Expr.mk 1 <$> display) (base.push tokens))
    (spelled : shape.tokens part = bracketed opening closing tokens)
    (reads : ∀ more, Takes base display (tokens ++ delimiter closing :: more) more
      (Expr.Shape.Alike Expr.Same shape)) : Encloses base expr part ⟨line, shape⟩ := by
  refine encloses_operand spelled begins rfl fun more => ?_
  obtain ⟨result, run, alike⟩ := reads (delimiter ")" :: more)
  exact ⟨⟨1, result⟩, by simp [starts, run], .intro trivial alike⟩

theorem encloses_brackets (spelled : shape.tokens part = bracketed "[" "]" tokens)
    (reads : ∀ more, Takes base (listDisplay expr) (tokens ++ delimiter "]" :: more) more
      (Expr.Shape.Alike Expr.Same shape)) : Encloses base expr part ⟨line, shape⟩ :=
  encloses_display rfl (fun _ => by simp [delimiter, operand]) spelled reads

theorem encloses_braces (spelled : shape.tokens part = bracketed "\x7b" "\x7d" tokens)
    (reads : ∀ more, Takes base (braceDisplay expr) (tokens ++ delimiter "\x7d" :: more) more
      (Expr.Shape.Alike Expr.Same shape)) : Encloses base expr part ⟨line, shape⟩ :=
  encloses_display rfl (fun _ => by simp [delimiter, operand]) spelled reads

end

def Extends (left whole : Expr) (found : Option Tail) : Prop :=
  ∃ tail ∈ found, ∀ start, left.Same start → whole.Same (start.extend tail)

theorem encloses_tail {left whole : Expr} (opens : Token.Opens (part left))
    (operand : ReadsOperand base expr part left) {first : Token} {others : List Token}
    (spelled : whole.shape.tokens part = part left ++ first :: others) (other : first.isString = false)
    (reads : ∀ more, Takes base (tail? expr .lowest) (first :: (others ++ delimiter ")" :: more))
      (delimiter ")" :: more) (Extends left whole)) : Encloses base expr part whole := by
  intro more
  obtain ⟨result, run, same⟩ := operand first (others ++ delimiter ")" :: more) other
  obtain ⟨_, goes, tail, rfl, extended⟩ := reads more
  refine ⟨result.extend tail, ?_, extended result same⟩
  rw [← cons_append] at run goes
  rw [spelled, append_assoc]
  refine run_parenthesized_whole (opens.isDelimiter base _ (by decide)) (opens.isKeyword base _ _) ?_
  exact run_operators_tail run goes (cons_ne_nil _ _) (.delimiter (by decide))

section

variable (line : Nat)

theorem encloses_unary (op : UnaryOp) {value : Expr} (reads : Reads base expr part value) :
    Encloses base expr part ⟨line, .unary op value⟩ := by
  have run (more : List Token) := reads.upTo .unary ")" (by decide) more
  cases op <;> refine encloses_operand rfl rfl rfl fun more => ?_ <;>
    obtain ⟨result, run, same⟩ := run more <;>
    exact ⟨⟨1, .unary _ result⟩, by simp [UnaryOp.token, keyword, operator, operand, worded, signed,
      Token.unaryOperator?, run], .intro trivial (.unary _ same)⟩

theorem encloses_await {value : Expr} (reads : Reads base expr part value) :
    Encloses base expr part ⟨line, .await value⟩ := by
  refine encloses_operand rfl rfl rfl fun more => ?_
  obtain ⟨result, run, same⟩ := reads.upTo .unary ")" (by decide) more
  exact ⟨⟨1, .await result⟩, by simp [keyword, operand, worded, run], .intro trivial (.await same)⟩

theorem encloses_starred {value : Expr} (reads : Reads base expr part value) :
    Encloses base expr part ⟨line, .starred value⟩ := by
  refine encloses_operand rfl rfl rfl fun more => ?_
  obtain ⟨result, run, same⟩ := reads.upTo .bitwise ")" (by decide) more
  exact ⟨⟨1, .starred result⟩, by simp [operator, operand, signed, Token.unaryOperator?, run],
    .intro trivial (.starred same)⟩

theorem encloses_lambda {parameters : List (Param Expr)} {body : Expr}
    (reads : ∀ parameter ∈ parameters, ∀ value ∈ parameter.children, Reads base expr part value)
    (forBody : Reads base expr part body)
    (formed : (Expr.Shape.lambda parameters body).IsFormed) :
    Encloses base expr part ⟨line, .lambda parameters body⟩ := by
  refine encloses_operand rfl rfl rfl fun more => ?_
  obtain ⟨result, run, same⟩ := forBody.upTo .lowest ")" (by decide) more
  obtain ⟨results, runs, alike⟩ := run_params reads
    (fun parameter member => by simpa using (formed parameter member).1)
    (fun parameter member => by simpa using (formed parameter member).2)
    ":" false (.inr ⟨rfl, rfl⟩) (part body ++ delimiter ")" :: more)
  exact ⟨⟨1, .lambda results result⟩, by simp [keyword, operand, worded, runs, run],
    .intro trivial (.lambda alike same)⟩

theorem encloses_list {items : List Expr} (reads : ∀ item ∈ items, Reads base expr part item) :
    Encloses base expr part ⟨line, .list items⟩ := by
  refine encloses_brackets rfl fun more => ?_
  cases items with
  | nil => exact ⟨.list [], by simp [listDisplay, separated], .list .nil⟩
  | cons first others =>
    obtain ⟨symbol, rest, split, -, ⟨result, run, same⟩, results, runs, alike⟩ :=
      run_listed reads "]" (by decide) more
    refine ⟨.list (result :: results), ?_, .list (.cons same alike)⟩
    rw [split]
    simp [listDisplay, (reads first (by simp)).opens.isDelimiter, run, runs]

theorem encloses_set {items : List Expr} (reads : ∀ item ∈ items, Reads base expr part item)
    (some : items ≠ []) : Encloses base expr part ⟨line, .set items⟩ := by
  refine encloses_braces rfl fun more => ?_
  cases items with
  | nil => cases some rfl
  | cons first others =>
    have opens := (reads first (by simp)).opens
    obtain ⟨symbol, rest, split, colon, ⟨result, run, same⟩, results, runs, alike⟩ :=
      run_listed reads "\x7d" (by decide) more
    refine ⟨.set (result :: results), ?_, .set (.cons same alike)⟩
    rw [split]
    simp [braceDisplay, opens.isDelimiter, opens.isOperator, run, colon, runs]

theorem encloses_dict {entries : List (DictEntry Expr)}
    (reads : ∀ entry ∈ entries, ∀ value ∈ entry.children, Reads base expr part value) :
    Encloses base expr part ⟨line, .dict entries⟩ := by
  refine encloses_braces rfl fun more => ?_
  rcases entries with _ | ⟨⟨_ | key, value⟩, others⟩
  · exact ⟨.dict [], by simp [braceDisplay, separated], .dict .nil⟩
  · obtain ⟨results, run, alike⟩ := run_dictEntries reads more
    refine ⟨.dict results, ?_, .dict alike⟩
    rw [Token.separated_cons] at run ⊢
    simp only [DictEntry.tokens_unpacked, cons_append] at run ⊢
    simp [braceDisplay, run]
  · rw [forall_mem_cons] at reads
    have forKey : Reads base expr part key := reads.1 key (by simp [DictEntry.children])
    have forValue : Reads base expr part value := reads.1 value (by simp [DictEntry.children])
    obtain ⟨index, run, alike⟩ := forKey.upTo .lowest ":" (by decide) (part value ++
      (others.flatMap (delimiter "," :: ·.tokens part) ++ delimiter "\x7d" :: more))
    obtain ⟨_, runs, result, rest, rfl, same, alikes⟩ := run_dictAfterKey index forValue reads.2 more
    refine ⟨.dict (⟨some index, result⟩ :: rest), ?_, .dict (.cons (.intro (.some alike) same) alikes)⟩
    rw [Token.separated_cons]
    simp [braceDisplay, forKey.opens.isDelimiter, forKey.opens.isOperator, run, runs]

section

variable {key element : Expr} {generators : List (Generator Expr)}
  (loops : ∀ generator ∈ generators, ∀ value ∈ generator.children, Reads base expr part value)
  (some : generators ≠ [])

include loops some

theorem encloses_listComp (reads : Reads base expr part element) :
    Encloses base expr part ⟨line, .listComp element generators⟩ := by
  refine encloses_brackets rfl fun more => ?_
  obtain ⟨word, rest, split, loop, ⟨result, run, same⟩, results, runs, alike⟩ :=
    run_looped reads loops some "]" (by decide) more
  refine ⟨.listComp result results, ?_, .listComp same alike⟩
  simp [split, listDisplay, reads.opens.isDelimiter, run, loop, runs]

theorem encloses_setComp (reads : Reads base expr part element) :
    Encloses base expr part ⟨line, .setComp element generators⟩ := by
  refine encloses_braces rfl fun more => ?_
  obtain ⟨word, rest, split, loop, ⟨result, run, same⟩, results, runs, alike⟩ :=
    run_looped reads loops some "\x7d" (by decide) more
  refine ⟨.setComp result results, ?_, .setComp same alike⟩
  simp [split, braceDisplay, reads.opens.isDelimiter, reads.opens.isOperator, run, loop, runs]

theorem encloses_dictComp (forKey : Reads base expr part key) (reads : Reads base expr part element) :
    Encloses base expr part ⟨line, .dictComp key element generators⟩ := by
  refine encloses_braces rfl fun more => ?_
  obtain ⟨word, rest, split, loop, ⟨result, run, same⟩, results, runs, alikes⟩ :=
    run_looped reads loops some "\x7d" (by decide) more
  obtain ⟨index, start, alike⟩ := forKey.upTo .lowest ":" (by decide) (part element ++ keyword word :: rest)
  refine ⟨.dictComp index result results, ?_, .dictComp alike same alikes⟩
  simp [split, braceDisplay, dictAfterKey, forKey.opens.isDelimiter, forKey.opens.isOperator, start, run,
    loop, runs]

end

section

variable {left : Expr} (opens : Token.Opens (part left)) (operand : ReadsOperand base expr part left)

include opens operand

theorem encloses_binary (op : BinaryOp) {right : Expr} (reads : Reads base expr part right) :
    Encloses base expr part ⟨line, .binary op left right⟩ := by
  obtain ⟨first, others, spelled, other⟩ :
      ∃ first others, op.tokens = first :: others ∧ first.isString = false := by
    cases op <;> exact ⟨_, _, rfl, rfl⟩
  refine encloses_tail opens operand (by rw [Expr.Shape.tokens, spelled, cons_append]) other
    fun more => ?_
  obtain ⟨result, run, same⟩ := reads.upTo op.rightPrecedence ")" (by decide) more
  -- Only after `is` does the token behind the operator matter.
  have found : Continuation.ofTokens first
      (base.push (others ++ (part right ++ delimiter ")" :: more))).current = some (.operator op) ∧
      op.tokens.length = (Continuation.operator op).width := by
    cases op with
    | is =>
      cases spelled
      have bare := reads.opens.isKeyword base (delimiter ")" :: more) "not"
      exact ⟨by simp [Continuation.ofTokens, keyword, Continuation.ofKeyword, bare], rfl⟩
    | _ =>
      cases spelled
      exact ⟨rfl, rfl⟩
  have tighter : Precedence.lowest < (Continuation.operator op).precedence := by
    cases op <;> decide
  have dropped : (base.push (first :: (others ++ (part right ++ delimiter ")" :: more)))).drop
      (Continuation.operator op).width = base.push (part right ++ delimiter ")" :: more) := by
    refine Cursor.eq_of_parts ?_ rfl rfl
    rw [← found.2, spelled]
    simp [Cursor.drop, Cursor.push]
  refine ⟨some (.operator op result), ?_, _, rfl, fun _ sames => .intro trivial (.binary op sames same)⟩
  rw [append_assoc, run_tail? found.1 tighter]
  simp [tail, dropped, run]

theorem encloses_call {args : List (Argument Expr)}
    (reads : ∀ arg ∈ args, Reads base expr part arg.value) :
    Encloses base expr part ⟨line, .call left args⟩ := by
  refine encloses_tail opens operand rfl rfl fun more => ?_
  obtain ⟨results, run, alike⟩ := run_arguments reads (delimiter ")" :: more)
  refine ⟨some (.call results), ?_, _, rfl, fun _ sames => .intro trivial (.call sames alike)⟩
  rw [run_tail? rfl (by decide)]
  simp [tail, run]

theorem encloses_subscript {index : Expr}
    (reads : ∀ value ∈ index.indices, Reads base expr part value) :
    Encloses base expr part ⟨line, .subscript left index⟩ := by
  refine encloses_tail opens operand rfl rfl fun more => ?_
  obtain ⟨result, run, same⟩ := run_index reads (delimiter ")" :: more)
  refine ⟨some (.subscript result), ?_, _, rfl, fun _ sames => .intro trivial (.subscript sames same)⟩
  rw [run_tail? rfl (by decide)]
  simp [tail, run]

theorem encloses_attribute (name : String) :
    Encloses base expr part ⟨line, .attribute left name⟩ := by
  refine encloses_tail opens operand rfl rfl fun more => ?_
  refine ⟨some (.attribute name), ?_, _, rfl, fun _ sames => .intro trivial (.attribute sames name)⟩
  rw [run_tail? rfl (by decide)]
  simp [tail]

theorem encloses_conditional {test orelse : Expr} (forTest : Reads base expr part test)
    (forElse : Reads base expr part orelse) :
    Encloses base expr part ⟨line, .conditional test left orelse⟩ := by
  refine encloses_tail opens operand rfl rfl fun more => ?_
  have stops : (keyword "else").Ends .conditional := .keyword (by decide)
  obtain ⟨result, run, same⟩ := forTest.whole (part orelse ++ delimiter ")" :: more) stops
  obtain ⟨other, runs, alike⟩ := forElse.upTo .lowest ")" (by decide) more
  refine ⟨some (.conditional result other), ?_, _, rfl,
    fun _ sames => .intro trivial (.conditional same sames alike)⟩
  rw [run_tail? rfl (by decide)]
  simp [tail, run, runs]

end

theorem encloses_tuple {items : List Expr} (reads : ∀ item ∈ items, Reads base (operators expr) part item) :
    Encloses base expr part ⟨line, .tuple items⟩ := by
  intro more
  cases items with
  | nil => exact ⟨⟨1, .tuple []⟩, by simp [parenthesized, Expr.Shape.tokens, tupled, separated],
      .intro trivial (.tuple .nil)⟩
  | cons first others =>
    have opens := (reads first (by simp)).opens
    have entries : ReadsItems base (·.isDelimiter ")") (operators expr .lowest) part ")" Expr.Same
      (first :: others) := readsItems_exprs reads .lowest (by decide)
    obtain ⟨rest, split, ⟨result, run, same⟩, results, runs, alike⟩ := entries.run_tupled rfl more
    refine ⟨⟨1, .tuple (result :: results)⟩, ?_, .intro trivial (.tuple (.cons same alike))⟩
    rw [Expr.Shape.tokens, split]
    simp [parenthesized, opens.isDelimiter, opens.isKeyword, run, runs]

theorem encloses_generatorExp {element : Expr} {generators : List (Generator Expr)}
    (reads : Reads base (operators expr) part element)
    (loops : ∀ generator ∈ generators, ∀ value ∈ generator.children,
      Reads base (operators expr) part value) (some : generators ≠ []) :
    Encloses base expr part ⟨line, .generatorExp element generators⟩ := by
  intro more
  obtain ⟨word, rest, split, loop, ⟨result, run, same⟩, results, runs, alike⟩ :=
    run_looped reads loops some ")" (by decide) more
  refine ⟨⟨1, .generatorExp result results⟩, ?_, .intro trivial (.generatorExp same alike)⟩
  simp [Expr.Shape.tokens, split, parenthesized, reads.opens.isDelimiter, reads.opens.isKeyword, run,
    loop, runs]

theorem encloses_yield {value : Option Expr} {delegates : Bool}
    (reads : ∀ operand ∈ value, Reads base (operators expr) part operand)
    (formed : (Expr.Shape.yield value delegates).IsFormed) :
    Encloses base expr part ⟨line, .yield value delegates⟩ := by
  intro more
  cases value with
  | none =>
    obtain rfl : delegates = false := by simpa [Expr.Shape.IsFormed] using formed
    exact ⟨⟨1, .yield none false⟩, by simp [Expr.Shape.tokens, parenthesized, yieldValue],
      .intro trivial (.yield .none false)⟩
  | some operand =>
    have forOperand := reads operand rfl
    obtain ⟨result, run, same⟩ := forOperand.upTo .lowest ")" (by decide) more
    refine ⟨⟨1, .yield (some result) delegates⟩, ?_, .intro trivial (.yield (.some same) delegates)⟩
    cases delegates
    · simp [Expr.Shape.tokens, parenthesized, yieldValue, expressionList, forOperand.opens.isKeyword,
        forOperand.opens.startsExpression, run]
    · simp [Expr.Shape.tokens, parenthesized, yieldValue, run]

end

theorem encloses_atom {value : Expr} (atom : value.isAtom = true) (formed : value.shape.IsFormed) :
    Encloses base expr part value := by
  have reads (more : List Token) : Takes base (operand expr)
      (value.shape.tokens part ++ delimiter ")" :: more) (delimiter ")" :: more) value.Same :=
    run_operand_atom atom formed rfl more
  obtain ⟨line, shape⟩ := value
  cases shape with
  | identifier | int | string | bool | none => exact encloses_operand rfl rfl rfl reads
  | _ => cases atom

theorem encloses {value : Expr} (formed : value.shape.IsFormed)
    (reads : ∀ sub ∈ value.parts, Reads base expr part sub)
    (operands : ∀ sub ∈ value.parts, ReadsOperand base expr part sub) :
    Encloses base expr part value := by
  have outer : ∀ sub ∈ value.parts, Reads base (operators expr) part sub := fun sub member =>
    (operands sub member).reads (reads sub member).opens
  obtain ⟨line, shape⟩ := value
  cases shape with
  | identifier | int | string | bool | none => exact encloses_atom rfl formed
  | float | slice | formatted => cases formed
  | list items => exact encloses_list line reads
  | tuple items => exact encloses_tuple line outer
  | set items => exact encloses_set line reads formed
  | unary op operand =>
    simp only [Expr.parts, Expr.Shape.children, forall_mem_singleton] at reads
    exact encloses_unary line op reads
  | await value =>
    simp only [Expr.parts, Expr.Shape.children, forall_mem_singleton] at reads
    exact encloses_await line reads
  | starred value =>
    simp only [Expr.parts, Expr.Shape.children, forall_mem_singleton] at reads
    exact encloses_starred line reads
  | «attribute» left name =>
    simp only [Expr.parts, Expr.Shape.children, forall_mem_singleton] at reads operands
    exact encloses_attribute line reads.opens operands name
  | binary op left right =>
    simp only [Expr.parts, Expr.Shape.children, forall_mem_cons] at reads operands
    exact encloses_binary line reads.1.opens operands.1 op reads.2.1
  | subscript left index =>
    simp only [Expr.parts, forall_mem_cons] at reads operands
    exact encloses_subscript line reads.1.opens operands.1 reads.2
  | conditional test body orelse =>
    simp only [Expr.parts, Expr.Shape.children, forall_mem_cons] at reads operands
    exact encloses_conditional line reads.1.opens operands.1 reads.2.1 reads.2.2.1
  | call function args =>
    simp only [Expr.parts, Expr.Shape.children, forall_mem_cons, forall_mem_map]
      at reads operands
    exact encloses_call line reads.1.opens operands.1 reads.2
  | dict entries =>
    simp only [Expr.parts, Expr.Shape.children, forall_mem_flatMap] at reads
    exact encloses_dict line reads
  | lambda parameters body =>
    simp only [Expr.parts, Expr.Shape.children, forall_mem_append, forall_mem_flatMap,
      forall_mem_singleton] at reads
    exact encloses_lambda line reads.1 reads.2 formed
  | listComp element generators =>
    simp only [Expr.parts, Expr.Shape.children, forall_mem_cons, forall_mem_flatMap] at reads
    exact encloses_listComp line reads.2 formed reads.1
  | setComp element generators =>
    simp only [Expr.parts, Expr.Shape.children, forall_mem_cons, forall_mem_flatMap] at reads
    exact encloses_setComp line reads.2 formed reads.1
  | dictComp key element generators =>
    simp only [Expr.parts, Expr.Shape.children, forall_mem_cons, forall_mem_flatMap] at reads
    exact encloses_dictComp line reads.2.2 formed reads.1 reads.2.1
  | generatorExp element generators =>
    simp only [Expr.parts, Expr.Shape.children, forall_mem_cons, forall_mem_flatMap] at outer
    exact encloses_generatorExp line outer.1 outer.2 formed
  | yield value delegates =>
    simp only [Expr.parts, Expr.Shape.children, Option.mem_toList] at outer
    exact encloses_yield line outer formed

end Parser
end SourceAudit
