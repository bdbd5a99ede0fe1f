import SourceAudit.Proofs.Grammar.PartReading
import SourceAudit.Proofs.Grammar.BlockReading

namespace SourceAudit

namespace Token

theorem isDelimiter_of_newline {token : Token} (newline : token.kind = .newline) (symbol : String) :
    token.isDelimiter symbol = false := by
  simp [isDelimiter, newline]

theorem isOperator_of_newline {token : Token} (newline : token.kind = .newline) (symbol : String) :
    token.isOperator symbol = false := by
  simp [isOperator, newline]

theorem ends_newline (precedence : Precedence) {token : Token} (newline : token.kind = .newline) :
    token.Ends precedence := by
  refine ⟨by simp [isString, newline], isOperator_of_newline newline ":=", ?_⟩
  intro next continuation found
  simp [Continuation.ofTokens, newline] at found

theorem ends_equals (precedence : Precedence) : (operator "=").Ends precedence := by
  refine ⟨rfl, rfl, ?_⟩
  intro next continuation found
  cases found

end Token

namespace Parser

variable {base : Cursor} {expr : Precedence → Parser Expr} {block : Parser (Block Stmt)}

theorem run_expressionList {cursor : Cursor} {value : Expr} {next : Token} {more : List Token}
    (run : expr .lowest cursor = .ok value (base.push (next :: more)))
    (other : next.isDelimiter "," = false) :
    expressionList expr cursor = .ok value (base.push (next :: more)) := by
  simp [expressionList, run, other]

theorem run_assignedValues_none {next : Token} {more : List Token}
    (other : next.isOperator "=" = false) :
    assignedValues expr (base.push (next :: more)) = .ok [] (base.push (next :: more)) :=
  Parser.many_none (by simp [whenever, other])

theorem run_expressionStatement {cursor : Cursor} {value : Expr} {newline : Token} {more : List Token}
    (run : expr .lowest cursor = .ok value (base.push (newline :: more)))
    (ends : newline.kind = .newline) :
    expressionStatement expr cursor = .ok (.expr value) (base.push (newline :: more)) := by
  have first := run_expressionList run (Token.isDelimiter_of_newline ends ",")
  have plain : BinaryOp.ofAugmented? newline = none := by simp [BinaryOp.ofAugmented?, ends]
  simp [expressionStatement, first, run_assignedValues_none (Token.isOperator_of_newline ends "="), plain,
    Token.isDelimiter_of_newline ends]

theorem run_simpleLine {cursor : Cursor} {statement : Stmt} {newline : Token} {more : List Token}
    (run : simpleStatement expr cursor = .ok statement (base.push (newline :: more)))
    (ends : newline.kind = .newline) :
    simpleLine expr cursor = (⟨[statement], none⟩, base.push more) := by
  have line : lineStatement expr cursor = .ok (statement, false) (base.push (newline :: more)) := by
    simp [lineStatement, run, Token.isDelimiter_of_newline ends]
  rw [simpleLine_last line]
  simp [expectNewline, ends]

theorem run_statements_line {stop skip : Token.Kind → Bool} {first : Token} {tokens : List Token}
    {more : Cursor} {statement : Stmt} (written : first.kind.isLayout = false)
    (goes : stop first.kind = false) (stays : skip first.kind = false)
    (run : statementLine expr block (base.push (first :: tokens)) = (⟨[statement], none⟩, more))
    (shorter : more.size < (base.push (first :: tokens)).size) :
    statements expr block stop skip (base.push (first :: tokens)) =
      (statement :: (statements expr block stop skip more).1, (statements expr block stop skip more).2) := by
  have rest : (base.push (first :: tokens)).rest = first :: (tokens ++ base.rest) := rfl
  have inside : first.kind ≠ .endOfInput ∧ first.kind ≠ .indent := by
    constructor <;> intro kind <;> simp [kind, Token.Kind.isLayout] at written
  have recovers : recovered expr block (base.push (first :: tokens)) = ([statement], more) := by
    unfold recovered
    rw [Cursor.current_push_cons, if_neg inside.2]
    simp [recoveredLine, run]
  rw [statements_cons rest, if_neg (by simp [inside.1, goes]), if_neg (by simp [stays]), recovers]
  simp [Cursor.followed, shorter]

theorem run_statements_expression {first newline last : Token} {others : List Token} {value : Expr}
    (plain : first.kind = .identifier ∨ first.kind = .delimiter ∨ first.kind = .integer) (ends : newline.kind = .newline)
    (final : last.kind = .endOfInput)
    (run : expr .lowest (base.push (first :: (others ++ [newline, last]))) = .ok value (base.push [newline, last])) :
    statements expr block (fun _ => false) (fun kind => kind == .newline || kind == .dedent)
        (base.push (first :: (others ++ [newline, last]))) =
      ([⟨first.line, .expr value⟩], base.push [last]) := by
  have other : first.kind ≠ .keyword ∧ first.kind ≠ .operator := by
    rcases plain with kind | kind | kind <;> simp [kind]
  have statement : simpleStatement expr (base.push (first :: (others ++ [newline, last]))) =
      .ok ⟨first.line, .expr value⟩ (base.push [newline, last]) := by
    simp [simpleStatement, other.1, run_expressionStatement run ends]
  have line : statementLine expr block (base.push (first :: (others ++ [newline, last]))) =
      (⟨[⟨first.line, .expr value⟩], none⟩, base.push [last]) := by
    have simple : compound? expr block first = none := by simp [compound?, Token.isOperator, other]
    rw [statementLine, Cursor.current_push_cons, simple]
    exact run_simpleLine statement ends
  have shorter : (base.push [last]).size < (base.push (first :: (others ++ [newline, last]))).size := by
    simp only [Cursor.size_push, List.length_append, List.length_cons, List.length_nil]
    omega
  have ended : (base.push [last]).current.kind = .endOfInput := final
  rw [run_statements_line _ rfl _ line shorter, statements_ended ended]
  all_goals rcases plain with kind | kind | kind <;> rw [kind] <;> rfl

end Parser

theorem Program.ofTokens_expression (file : String) {first newline last : Token} {others : List Token}
    (plain : first.kind = .identifier ∨ first.kind = .delimiter ∨ first.kind = .integer) (ends : newline.kind = .newline)
    (final : last.kind = .endOfInput) {kind : Expr → Prop}
    (run : ∀ base : Cursor, Parser.Takes base (Parser.expression nestingLimit .lowest)
      (first :: (others ++ [newline, last])) [newline, last] kind) :
    ∃ value, ofTokens file (first :: (others ++ [newline, last])) = (⟨file, [⟨first.line, .expr value⟩]⟩, []) ∧
      kind value := by
  obtain ⟨base, -, fresh, start⟩ :=
    Cursor.exists_push (List.append_nil (first :: (others ++ [newline, last]))).symm
  obtain ⟨value, run, known⟩ := run base
  refine ⟨value, ?_, known⟩
  unfold ofTokens
  rw [← start, Parser.run_statements_expression plain ends final run]
  exact congrArg (Prod.mk _) fresh

end SourceAudit
