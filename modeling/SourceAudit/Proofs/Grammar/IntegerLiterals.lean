import SourceAudit.Proofs.Grammar.Enclosure
import SourceAudit.Proofs.Grammar.StatementRunning
import SourceAudit.Proofs.Scanner.StringLiterals

open List

namespace SourceAudit

open Number

namespace Token

inductive Radix where
  | decimal
  | hexadecimal
  | octal
  | binary
deriving DecidableEq

namespace Radix

def base : Radix → Nat
  | decimal => 10
  | hexadecimal => 16
  | octal => 8
  | binary => 2

def marks : Radix → List Char
  | decimal => []
  | hexadecimal => ['x', 'X']
  | octal => ['o', 'O']
  | binary => ['b', 'B']

theorem base_bounds (radix : Radix) : 1 < radix.base ∧ radix.base ≤ 16 := by cases radix <;> decide

theorem integer?_marked {radix : Radix} {mark : Char} (known : mark ∈ radix.marks) (digits : List Char) :
    isRadixMark mark = true ∧ integer? (String.ofList ('0' :: mark.toLower :: digits)) = int64? radix.base digits := by
  unfold integer?
  rw [String.toList_ofList]
  cases radix with
  | decimal => cases known
  | hexadecimal | octal | binary =>
    simp only [marks, mem_cons, not_mem_nil, or_false] at known
    rcases known with rfl | rfl <;> exact ⟨rfl, rfl⟩

end Radix

/-- The literals of a number. Underscores may stand anywhere but in front of a decimal literal or within the mark. -/
inductive Denotes (n : Nat) : Radix → List Char → Prop where
  | plain {digits : List Char} (starts : digits.head? ≠ some '_')
      (written : IsWritten 10 n (digits.filter (· ≠ '_'))) : Denotes n .decimal digits
  | marked {radix : Radix} {mark : Char} {digits : List Char} (known : mark ∈ radix.marks)
      (written : IsWritten radix.base n (digits.filter (· ≠ '_'))) : Denotes n radix ('0' :: mark :: digits)

theorem digitValue?_cases {c : Char} {digit : Nat} (known : digitValue? c = some digit) :
    c.isDigit = true ∨ 10 ≤ digit ∧ (digit < 16 → isHexDigit c = true) := by
  have order : ∀ d e : Char, d ≤ e ↔ d.toNat ≤ e.toNat := fun _ _ => Iff.rfl
  unfold digitValue? at known
  simp only [isHexDigit, Char.isDigit, Bool.or_eq_true, Bool.and_eq_true, decide_eq_true_eq] at known ⊢
  split at known
  · rename_i bounds
    exact .inl bounds
  · split at known
    · rename_i bounds
      cases known
      refine .inr ⟨by omega, fun small => .inl (.inr ⟨bounds.1, ?_⟩)⟩
      rw [order] at bounds ⊢
      change c.toNat - 97 + 10 < 16 at small
      change c.toNat ≤ 102
      omega
    · split at known
      · rename_i bounds
        cases known
        refine .inr ⟨by omega, fun small => .inr ⟨bounds.1, ?_⟩⟩
        rw [order] at bounds ⊢
        change c.toNat - 65 + 10 < 16 at small
        change c.toNat ≤ 70
        omega
      · cases known

theorem decimalText_digits {digits : List Char} (plain : ∀ c ∈ digits, c.isDigit = true ∨ c = '_') :
    decimalText false (digits ++ ['\n']) = ⟨digits.filter (· ≠ '_'), false, ['\n']⟩ := by
  induction digits with
  | nil => rfl
  | cons c digits ih =>
    obtain ⟨first, others⟩ := forall_mem_cons.mp plain
    have rest := ih others
    rcases first with digit | rfl
    · have other : c ≠ '_' := by rintro rfl; cases digit
      rw [cons_append, decimalText_digit _ digit, rest]
      simp [NumberText.push, other]
    · rw [cons_append, decimalText_separator]
      simpa using rest

def isDigitPart (c : Char) : Bool := isHexDigit c || c == '_'

theorem numberText_marked {mark : Char} (known : isRadixMark mark = true) {digits : List Char}
    (parts : ∀ c ∈ digits, isDigitPart c = true) :
    numberText ('0' :: mark :: (digits ++ ['\n'])) =
      ⟨'0' :: mark.toLower :: digits.filter (· ≠ '_'), false, ['\n']⟩ := by
  have taken : (digits ++ ['\n']).takeWhile isDigitPart = digits := by
    rw [takeWhile_append_of_pos parts]
    exact append_nil digits
  have left : (digits ++ ['\n']).dropWhile isDigitPart = ['\n'] := dropWhile_append_of_pos parts
  have read : numberText ('0' :: mark :: (digits ++ ['\n'])) =
      ⟨'0' :: mark.toLower :: ((digits ++ ['\n']).takeWhile isDigitPart).filter (· ≠ '_'), false,
        (digits ++ ['\n']).dropWhile isDigitPart⟩ := if_pos known
  rw [read, taken, left]

theorem numberText_plain {digits : List Char} (plain : ∀ c ∈ digits, c.isDigit = true ∨ c = '_') :
    numberText (digits ++ ['\n']) = ⟨digits.filter (· ≠ '_'), false, ['\n']⟩ := by
  have read := decimalText_digits plain
  unfold numberText
  split
  · rename_i mark more same
    have other : isRadixMark mark = false := by
      have member : mark ∈ digits ++ ['\n'] := by simp [same]
      rcases mem_append.mp member with inside | last
      · rcases plain mark inside with digit | rfl
        · cases radical : isRadixMark mark with
          | false => rfl
          | true =>
            simp only [isRadixMark, contains_eq_mem, mem_cons, not_mem_nil, or_false,
              decide_eq_true_eq] at radical
            rcases radical with rfl | rfl | rfl | rfl | rfl | rfl <;> cases digit
        · rfl
      · rw [mem_singleton.mp last]
        rfl
    rw [other]
    exact read
  · exact read

theorem lexeme_number {c : Char} {rest value : List Char} (digit : c.isDigit = true)
    (read : numberText (c :: rest) = ⟨value, false, ['\n']⟩) : lexeme c rest = ⟨.integer, value, 0, ['\n']⟩ := by
  have unquoted : isQuote c = false := by
    cases quoted : isQuote c with
    | false => rfl
    | true => rcases isQuote_iff.mp quoted with rfl | rfl <;> cases digit
  simp [lexeme, unquoted, digit, numberLexeme, read]

theorem digit_visible {c : Char} (digit : c.isDigit = true) (rest : List Char) :
    isIndentChar c = false ∧ Scanner.isBlankLine (c :: rest) = false := by
  have other : ∀ d : Char, d.isDigit = false → c ≠ d := by
    rintro d plain rfl
    rw [plain] at digit
    cases digit
  refine ⟨?_, Scanner.isBlankLine_eq_false (other _ rfl) (other _ rfl) fun _ joint => absurd joint (other _ rfl)⟩
  simp [isIndentChar, other ' ' rfl, other '\t' rfl, other '\x0c' rfl, other '\r' rfl]

theorem Denotes.unit {n : Nat} {radix : Radix} {text : List Char} (denotes : Denotes n radix text) :
    ∃ c rest value, text ++ ['\n'] = c :: rest ∧ c.isDigit = true ∧ lexeme c rest = ⟨.integer, value, 0, ['\n']⟩ ∧
      integer? (String.ofList value) = if n < 0x8000000000000000 then some (n : Int) else none := by
  obtain ⟨low, high⟩ := radix.base_bounds
  cases denotes with
  | plain starts written =>
    have plain : ∀ c ∈ text, c.isDigit = true ∨ c = '_' := by
      intro c member
      by_cases same : c = '_'
      · exact .inr same
      · obtain ⟨digit, small, known⟩ := written.digit low high c (mem_filter.mpr ⟨member, by simpa using same⟩)
        refine .inl ((digitValue?_cases known).resolve_right fun ⟨large, _⟩ => ?_)
        exact absurd small (Nat.not_lt.mpr large)
    cases text with
    | nil => exact absurd rfl written.ne_nil
    | cons c digits =>
      have digit : c.isDigit = true := (plain c (by simp)).resolve_right (by simpa using starts)
      exact ⟨c, _, _, rfl, digit, lexeme_number digit (numberText_plain plain), integer?_decimal written⟩
  | @marked _ mark digits known written =>
    have parts : ∀ c ∈ digits, isDigitPart c = true := by
      intro c member
      by_cases same : c = '_'
      · simp [isDigitPart, same]
      · obtain ⟨digit, small, known⟩ := written.digit low high c (mem_filter.mpr ⟨member, by simpa using same⟩)
        rcases digitValue?_cases known with plain | ⟨_, hex⟩
        · simp [isDigitPart, isHexDigit, plain]
        · simp [isDigitPart, hex (by omega)]
    obtain ⟨radical, read⟩ := Radix.integer?_marked known (digits.filter (· ≠ '_'))
    exact ⟨'0', _, _, rfl, rfl, lexeme_number rfl (numberText_marked radical parts),
      read.trans (written.int64?_eq low high)⟩

end Token

namespace Parser

variable {cursor : Cursor} {expr : Precedence → Parser Expr} {block : Parser (Block Stmt)} {error : SyntaxError}

theorem run_simpleLine_failed (other : cursor.current.kind ≠ .keyword)
    (run : expr .lowest cursor = .error error cursor) : simpleLine expr cursor = (⟨[], some error⟩, cursor) := by
  refine simpleLine_error ?_
  simp [lineStatement, simpleStatement, other, expressionStatement, expressionList, run]

theorem run_expression_integer {base : Cursor} {text : String} {line : Nat} {value : Int} {newline : Token}
    (read : Token.integer? text = some value) (ends : newline.kind = .newline) (more : List Token) :
    expression nestingLimit .lowest (base.push (⟨.integer, text, line⟩ :: newline :: more)) =
      .ok ⟨line, .int value⟩ (base.push (newline :: more)) := by
  refine run_operators ?_ (Token.ends_newline .lowest ends)
  simp [operand, Parser.atom, read]

theorem run_expression_overflow {text : String} {line : Nat} (first : cursor.current = ⟨.integer, text, line⟩)
    (read : Token.integer? text = none) :
    expression nestingLimit .lowest cursor = .error (.atToken ⟨.integer, text, line⟩ (.integerRange text)) cursor := by
  have run : operand (expression 63) cursor = .error (.atToken cursor.current (.integerRange text)) cursor := by
    have fails : (fail (.integerRange text) : Parser Expr) cursor =
        .error (.atToken cursor.current (.integerRange text)) cursor := rfl
    rw [← fails]
    simp only [operand, run_bind, run_current, first, read]
  change operators (expression 63) .lowest cursor = _
  simp [operators, run, first]

theorem run_statements_failed {first newline last : Token} (ahead : cursor.rest = [first, newline, last])
    (plain : first.kind = .integer) (ends : newline.kind = .newline) (final : last.kind = .endOfInput)
    (run : expr .lowest cursor = .error error cursor) :
    ∃ stop, statements expr block (fun _ => false) (fun kind => kind == .newline || kind == .dedent) cursor =
      ([], stop) ∧ stop.errors = cursor.errors ++ [error] := by
  have current : cursor.current = first := by simp [Cursor.current, ahead]
  have line : statementLine expr block cursor = (⟨[], some error⟩, cursor) := by
    have simple : compound? expr block first = none := by simp [compound?, Token.isOperator, plain]
    rw [statementLine, current, simple]
    exact run_simpleLine_failed (by simp [current, plain]) run
  have skipped : (cursor.report error).synchronize.rest = [last] := by
    simp [Cursor.synchronize, Cursor.report, ahead, Cursor.nextStatement, plain, ends, final, Token.isStatementStarter]
  have sizes : (cursor.report error).synchronize.size = 1 ∧ cursor.size = 3 := by
    simp [Cursor.size_eq, skipped, ahead]
  have recovers : recovered expr block cursor = ([], (cursor.report error).synchronize) := by
    unfold recovered recoveredLine
    rw [current, if_neg (by simp [plain]), line]
    exact congrArg (Prod.mk _) (if_neg (by omega))
  have ended : (cursor.report error).synchronize.current.kind = .endOfInput := by
    simp [Cursor.current, skipped, final]
  refine ⟨(cursor.report error).synchronize, ?_, rfl⟩
  rw [statements_cons ahead, if_neg (by simp [plain]), if_neg (by simp [plain]), recovers, Cursor.followed]
  simp [sizes, statements_ended ended]

end Parser

open Token in
/-- A line with an integer literal: one token, and then the number as the only statement or an error alone. -/
theorem Program.ofSource_integer (file : String) {n : Nat} {radix : Radix} {text : List Char}
    (denotes : Denotes n radix text) :
    ∃ value, ofText (String.ofList (text ++ ['\n'])) 1 =
        [⟨.integer, value, 1⟩, ⟨.newline, "\n", 1⟩, ⟨.endOfInput, "", 2⟩] ∧
      (n < 0x8000000000000000 →
        ofSource file (String.ofList (text ++ ['\n'])) = (⟨file, [⟨1, .expr ⟨1, .int n⟩⟩]⟩, [])) ∧
      (0x8000000000000000 ≤ n → ofSource file (String.ofList (text ++ ['\n'])) =
        (⟨file, []⟩, [.atToken ⟨.integer, value, 1⟩ (.integerRange value)])) := by
  obtain ⟨c, rest, value, whole, digit, unit, read⟩ := denotes.unit
  have tokens : ofText (String.ofList (text ++ ['\n'])) 1 =
      [⟨.integer, String.ofList value, 1⟩, ⟨.newline, "\n", 1⟩, ⟨.endOfInput, "", 2⟩] := by
    rw [ofText, String.toList_ofList, whole]
    obtain ⟨visible, starts⟩ := digit_visible digit rest
    exact Scanner.tokens_unit unit visible starts (by simp) (by simp)
  refine ⟨String.ofList value, tokens, fun small => ?_, fun large => ?_⟩
  · rw [if_pos small] at read
    have reads : ∀ base : Cursor, Parser.Takes base (Parser.expression nestingLimit .lowest)
        (⟨.integer, String.ofList value, 1⟩ :: ([] ++ [⟨.newline, "\n", 1⟩, ⟨.endOfInput, "", 2⟩]))
        [⟨.newline, "\n", 1⟩, ⟨.endOfInput, "", 2⟩] (· = ⟨1, .int n⟩) :=
      fun base => ⟨_, Parser.run_expression_integer read rfl _, rfl⟩
    obtain ⟨result, run, rfl⟩ := ofTokens_expression file (.inr (.inr rfl)) rfl rfl reads
    rw [ofSource, tokens]
    exact run
  · rw [if_neg (by omega)] at read
    rw [ofSource, tokens, ofTokens]
    obtain ⟨stop, run, errors⟩ := @Parser.run_statements_failed
      (Cursor.ofTokens [⟨.integer, String.ofList value, 1⟩, ⟨.newline, "\n", 1⟩, ⟨.endOfInput, "", 2⟩]) _
      (Parser.nestedBlock nestingLimit) _ _ _ _ rfl rfl rfl rfl (Parser.run_expression_overflow rfl read)
    rw [run]
    exact congrArg (Prod.mk _) errors

open Token in
theorem Program.ofSource_integer_bounds :
    Denotes 255 .hexadecimal "0X_0fF".toList ∧
      ofSource "bounds.py" "0X_0fF\n" = (⟨"bounds.py", [⟨1, .expr ⟨1, .int 255⟩⟩]⟩, []) ∧
      Denotes 0x8000000000000000 .decimal "9_223372036854775808".toList ∧
      ∃ error, ofSource "bounds.py" "9_223372036854775808\n" = (⟨"bounds.py", []⟩, [error]) := by
  have marked : Denotes 255 .hexadecimal "0X_0fF".toList := .marked (by decide) ⟨1, by decide⟩
  have plain : Denotes 0x8000000000000000 .decimal "9_223372036854775808".toList := .plain (by decide) ⟨0, by decide⟩
  obtain ⟨_, _, fits, _⟩ := ofSource_integer "bounds.py" marked
  obtain ⟨_, _, _, overflows⟩ := ofSource_integer "bounds.py" plain
  exact ⟨marked, fits (by decide), plain, _, overflows (by decide)⟩

end SourceAudit
