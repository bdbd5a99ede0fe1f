import SourceAudit.Proofs.Grammar.Composition
import SourceAudit.Proofs.Grammar.Enclosure
import SourceAudit.Proofs.Grammar.StatementRunning

namespace SourceAudit

open SourceAudit.Parser

open Token (named keyword operator delimiter bracketed separated tupled)

namespace Expr

theorem written_opens {value : Expr} (formed : value.shape.IsFormed) (levels : Nat) :
    Token.Opens (value.written (levels + 1)) := by
  unfold written
  cases atom : value.isAtom with
  | false => exact ⟨delimiter "(", _, rfl, rfl, fun name => by cases name⟩
  | true =>
    obtain ⟨line, shape⟩ := value
    cases shape with
    | identifier | int | string | bool | none => exact ⟨_, [], rfl, rfl, fun _ => rfl⟩
    | _ => cases atom

variable {base : Cursor}

theorem run_operand_group {expr : Precedence → Parser Expr} {part : Expr → List Token} {value : Expr}
    (encloses : Encloses base expr part value) (more : List Token) :
    ∃ result, operand (operators expr)
        (base.push (bracketed "(" ")" (value.shape.tokens part) ++ more)) = .ok result (base.push more) ∧
      value.Same result := by
  obtain ⟨result, run, same⟩ := encloses more
  refine ⟨result, ?_, same⟩
  simpa [bracketed, operand, delimiter] using run

/-- Each level of parts takes two levels of expressions, one for the parentheses around it. -/
theorem encloses_written {value : Expr} (plain : value.IsPlain)
    (reads : ∀ sub ∈ value.parts, ∀ levels depth, sub.height ≤ levels → 2 * levels < depth →
      ReadsOperand base (expression depth) (written (levels + 1)) sub)
    {levels depth : Nat} (low : value.height ≤ levels) (deep : 2 * levels ≤ depth) :
    Encloses base (expression depth) (written levels) value := by
  obtain ⟨formed, parts⟩ := plain
  have operands : ∀ sub ∈ value.parts, ∀ inner, 2 * levels ≤ inner + 1 →
      ReadsOperand base (expression inner) (written levels) sub := by
    intro sub member inner deep
    have lower := height_part member
    obtain ⟨below, rfl⟩ : ∃ below, levels = below + 1 := ⟨levels - 1, by omega⟩
    exact reads sub member below inner (by omega) (by omega)
  refine encloses formed ?_ fun sub member => operands sub member depth (by omega)
  intro sub member
  have lower := height_part member
  obtain ⟨below, rfl⟩ : ∃ below, levels = below + 1 := ⟨levels - 1, by omega⟩
  obtain ⟨inner, rfl⟩ : ∃ inner, depth = inner + 1 := ⟨depth - 1, by omega⟩
  obtain ⟨formedSub, -⟩ := parts sub member
  exact (operands sub member inner deep).reads (written_opens formedSub below)

theorem IsPlain.readsOperand {value : Expr} (plain : value.IsPlain) :
    ∀ levels depth, value.height ≤ levels → 2 * levels < depth →
      ReadsOperand base (expression depth) (written (levels + 1)) value := by
  induction plain with
  | @intro value formed parts ih =>
    intro levels depth low deep next more other
    unfold written
    cases atom : value.isAtom with
    | true => exact run_operand_atom atom formed other more
    | false =>
      obtain ⟨inner, rfl⟩ : ∃ inner, depth = inner + 1 := ⟨depth - 1, by omega⟩
      exact run_operand_group (encloses_written ⟨formed, parts⟩ ih low (by omega)) (next :: more)

variable (base)

theorem IsPlain.run_rendering {value : Expr} (plain : value.IsPlain) (low : value.height ≤ 31)
    {precedence : Precedence} {next : Token} (ends : next.Ends precedence) (more : List Token) :
    ∃ result, expression nestingLimit precedence (base.push (value.rendering ++ next :: more)) =
      .ok result (base.push (next :: more)) ∧ value.Same result := by
  have encloses : Encloses base (expression 62) (written value.height) value := by
    refine encloses_written plain ?_ le_rfl (by omega)
    obtain ⟨-, parts⟩ := plain
    exact fun sub member => (parts sub member).readsOperand
  obtain ⟨result, run, same⟩ := run_operand_group encloses (next :: more)
  exact ⟨result, run_operators run ends, same⟩

end Expr

/-- An expression that is written as tokens on a line is read back as the only statement. -/
theorem Program.ofTokens_rendering (file : String) {expr : Expr} (plain : expr.IsPlain)
    (low : expr.height ≤ 31) {newline last : Token} (ends : newline.kind = .newline)
    (final : last.kind = .endOfInput) :
    ∃ result, ofTokens file (expr.rendering ++ [newline, last]) = (⟨file, [⟨1, .expr result⟩]⟩, []) ∧
      expr.Same result := by
  have whole := ofTokens_expression file (.inr (.inl rfl)) ends final fun base =>
    plain.run_rendering base low (Token.ends_newline .lowest ends) [last]
  simpa [Expr.rendering, bracketed, delimiter] using whole

/-- `x[:1, ()] if not a else (yield)` -/
def Expr.slicedChoice : Expr :=
  ⟨3, .conditional ⟨3, .unary .not ⟨3, .identifier "a"⟩⟩
    ⟨3, .subscript ⟨3, .identifier "x"⟩
      ⟨3, .tuple [⟨3, .slice none (some ⟨3, .int 1⟩) none⟩, ⟨3, .tuple []⟩]⟩⟩
    ⟨3, .yield none false⟩⟩

theorem Program.ofTokens_rendering_choice :
    Expr.slicedChoice.IsPlain ∧ Expr.slicedChoice.height ≤ 31 ∧
    ∃ result, ofTokens "choice.py" (Expr.slicedChoice.rendering ++
        [⟨.newline, "\n", 1⟩, ⟨.endOfInput, "", 1⟩]) = (⟨"choice.py", [⟨1, .expr result⟩]⟩, []) ∧
      Expr.slicedChoice.Same result := by
  have leaf : ∀ {expr : Expr} {levels : Nat}, expr.shape.IsFormed → expr.parts = [] → 0 < levels →
      expr.IsPlain ∧ expr.height < levels := by
    intro expr levels formed none some
    obtain ⟨plain, low⟩ := Expr.isPlain_of_parts formed 0 (by simp [none])
    exact ⟨plain, by omega⟩
  have subscript : ∀ part ∈ ([⟨3, .identifier "x"⟩, ⟨3, .int 1⟩, ⟨3, .tuple []⟩] : List Expr),
      part.IsPlain ∧ part.height < 1 := by
    simp only [List.forall_mem_cons, List.not_mem_nil, false_imp_iff, implies_true, and_true]
    exact ⟨leaf trivial rfl Nat.one_pos, leaf ⟨by decide, by decide⟩ rfl Nat.one_pos, leaf trivial rfl Nat.one_pos⟩
  have negation : ∀ part ∈ ([⟨3, .identifier "a"⟩] : List Expr), part.IsPlain ∧ part.height < 1 := by
    simp only [List.forall_mem_cons, List.not_mem_nil, false_imp_iff, implies_true, and_true]
    exact leaf trivial rfl Nat.one_pos
  have choice : Expr.slicedChoice.IsPlain ∧ Expr.slicedChoice.height ≤ 2 := by
    refine Expr.isPlain_of_parts (by trivial) 2 ?_
    simp only [Expr.slicedChoice, Expr.parts, Expr.Shape.children, List.forall_mem_cons,
      List.not_mem_nil, false_imp_iff, implies_true, and_true]
    refine ⟨?_, ?_, leaf (by simp [Expr.Shape.IsFormed]) rfl Nat.two_pos⟩
    · exact And.imp_right Nat.lt_succ_of_le (Expr.isPlain_of_parts (by trivial) 1 subscript)
    · exact And.imp_right Nat.lt_succ_of_le (Expr.isPlain_of_parts (by trivial) 1 negation)
  exact ⟨choice.1, by omega, Program.ofTokens_rendering _ choice.1 (by omega) rfl rfl⟩

end SourceAudit
