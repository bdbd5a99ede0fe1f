import SourceAudit.Proofs.Grammar.Composition
import SourceAudit.Proofs.Grammar.OutlineReading

open List

namespace SourceAudit

open Token SourceAudit.Parser

namespace Outline

theorem exists_first (outline : Outline) :
    ∃ first others, Row.allTokens outline.rows = first :: others ∧ first.kind.isLayout = false ∧
      first.line = 1 ∧ IsApart first := by
  cases outline with
  | pass => exact ⟨keyword "pass", _, rfl, rfl, rfl, by decide⟩
  | bare name => exact ⟨named name.text, _, rfl, rfl, rfl, fun _ _ => rfl⟩
  | assign target value => exact ⟨named target.text, _, rfl, rfl, rfl, fun _ _ => rfl⟩
  | ifElse => exact ⟨_, _, allTokens_ifElse .., rfl, rfl, by decide⟩
  | whileLoop => exact ⟨_, _, allTokens_whileLoop .., rfl, rfl, by decide⟩
  | forLoop => exact ⟨_, _, allTokens_forLoop .., rfl, rfl, by decide⟩
  | functionDef => exact ⟨_, _, allTokens_functionDef .., rfl, rfl, by decide⟩
  | classDef => exact ⟨_, _, allTokens_classDef .., rfl, rfl, by decide⟩
  | withItems => exact ⟨_, _, allTokens_withItems .., rfl, rfl, by decide⟩
  | tryExcept => exact ⟨_, _, allTokens_tryExcept .., rfl, rfl, by decide⟩
  | tryFinally => exact ⟨_, _, allTokens_tryFinally .., rfl, rfl, by decide⟩

end Outline

namespace Parser

variable {base : Cursor} {expr : Precedence → Parser Expr} {block : Parser (Block Stmt)}

theorem run_statements {stop skip : Token.Kind → Bool}
    (plain : ∀ kind : Token.Kind, kind.isLayout = false → stop kind = false ∧ skip kind = false)
    {outlines : List Outline} (reads : ∀ outline ∈ outlines, ReadsLines base expr block outline)
    {next : Token} (more : List Token) (apart : IsApart next)
    (ends : next.kind = .endOfInput ∨ stop next.kind = true) :
    statements expr block stop skip (base.push (Outline.tokens outlines ++ next :: more)) =
      (outlines.map Outline.statement, base.push (next :: more)) := by
  induction outlines with
  | nil =>
    have rest : (base.push (next :: more)).rest = next :: (more ++ base.rest) := rfl
    exact (statements_cons rest).trans (if_pos ends)
  | cons outline outlines ih =>
    have onward : ∃ follower rest, Outline.tokens outlines ++ next :: more = follower :: rest ∧
        IsApart follower := by
      cases outlines with
      | nil => exact ⟨next, more, rfl, apart⟩
      | cons second outlines =>
        obtain ⟨first, others, written, -, -, alone⟩ := second.exists_first
        rw [Outline.tokens_cons, written]
        exact ⟨first, _, rfl, alone⟩
    obtain ⟨follower, rest, split, alone⟩ := onward
    obtain ⟨first, others, written, content, -, -⟩ := outline.exists_first
    have line := reads outline (mem_cons_self ..) rest alone
    have later := ih fun outline member => reads outline (mem_cons_of_mem _ member)
    rw [Outline.tokens_cons, append_assoc, split]
    rw [split] at later
    rw [written, cons_append] at line ⊢
    have shorter : (base.push (follower :: rest)).size <
        (base.push (first :: (others ++ follower :: rest))).size := by
      simp only [Cursor.size_push, length_cons, length_append]
      omega
    rw [run_statements_line content (plain _ content).1 (plain _ content).2 line shorter, later]
    rfl

theorem readsBlock_blockBody {body : Indented}
    (reads : ∀ outline ∈ body.outlines, ReadsLines base expr block outline) :
    ReadsBlock base (blockBody expr block) body := by
  intro more
  have plain : ∀ kind : Token.Kind, kind.isLayout = false →
      (kind == .dedent) = false ∧ (kind == .newline) = false := by
    intro kind content
    cases kind <;> cases content <;> exact ⟨rfl, rfl⟩
  have apart : IsApart dedent := by decide
  have inside := run_statements plain reads more apart (.inr rfl)
  have line : (base.push (Outline.tokens body.outlines ++ dedent :: more)).current.line = 1 := by
    obtain ⟨extra, first, others⟩ := body
    obtain ⟨token, tokens, written, -, line, -⟩ := first.exists_first
    rw [Indented.outlines, Outline.tokens_cons, written]
    exact line
  have opened : Outline.under body ++ more =
      newline :: indent :: (Outline.tokens body.outlines ++ dedent :: more) := by
    simp [Outline.under]
  rw [opened, blockBody, if_neg (by simp [newline]), if_neg (by simp [Cursor.peek_push, indent])]
  simp only [Cursor.advance_push_cons, inside, line, Cursor.current_push_cons]
  rw [Outline.block_eq]
  rfl

theorem readsNames_expression (base : Cursor) (depth : Nat) : ReadsNames base (expression (depth + 1)) := by
  intro name precedence next more ends
  refine run_operators ?_ ends
  simp [operand, Parser.atom, named, Identifier.expr]

theorem readsLines_nested (base : Cursor) {levels : Nat} {outline : Outline}
    (shallow : outline.isWithin levels = true) {depth : Nat} (deep : levels < depth) :
    ReadsLines base (expression depth) (nestedBlock depth) outline := by
  induction levels generalizing outline depth with
  | zero =>
    obtain ⟨depth, rfl⟩ : ∃ less, depth = less + 1 := ⟨depth - 1, by omega⟩
    have none : outline.bodies = [] := by simpa [Outline.isWithin] using shallow
    refine readsLines (readsNames_expression base depth) outline ?_
    rw [none]
    exact forall_mem_nil _
  | succ levels ih =>
    obtain ⟨depth, rfl⟩ : ∃ less, depth = less + 1 := ⟨depth - 1, by omega⟩
    simp only [Outline.isWithin, all_eq_true] at shallow
    refine readsLines (readsNames_expression base depth) outline ?_
    intro body member
    rw [nestedBlock]
    exact readsBlock_blockBody fun inner inside => ih (shallow body member inner inside) (by omega)

end Parser

/-- Statements that are written line by line, with any indentation of each of their blocks, are read
    back without errors. -/
theorem Program.ofSource_source (file : String) {levels : Nat} (few : levels < nestingLimit)
    {outlines : List Outline} (shallow : ∀ outline ∈ outlines, outline.isWithin levels = true) :
    ∃ statements, ofSource file (Outline.source outlines) = (⟨file, statements⟩, []) ∧
      List.Forall₂ (Stmt.Alike fun _ _ => True) statements (outlines.map Outline.statement) := by
  have tokens : List.Forall₂ (Token.Alike fun _ _ => True)
      (Cursor.ofTokens (ofText (Outline.source outlines) 1)).rest
      (Cursor.ofTokens (Outline.tokens outlines ++ [endOfInput])).rest :=
    ofText_texts (Outline.allRows outlines)
  obtain ⟨base, -, fresh, start⟩ :=
    Cursor.exists_push (append_nil (Outline.tokens outlines ++ [endOfInput])).symm
  have read : outermost (expression nestingLimit) (nestedBlock nestingLimit)
      (Cursor.ofTokens (Outline.tokens outlines ++ [endOfInput])) =
      (outlines.map Outline.statement, base.push [endOfInput]) := by
    rw [← start]
    refine run_statements ?_ (fun outline member => readsLines_nested base (shallow outline member) few)
      [] (by decide) (.inl rfl)
    intro kind content
    cases kind <;> cases content <;> exact ⟨rfl, rfl⟩
  have both := outermost_lines (fun _ _ => trivial) nestingLimit tokens
    (ofText_layout (Outline.source outlines) 1).laid (Scanner.exists_endOfInput _) rfl rfl
  rw [read] at both
  have clean : (base.push [endOfInput]).errors = [] := fresh
  rw [clean, forall₂_nil_right_iff] at both
  rw [ofSource_eq, both.2]
  exact ⟨_, rfl, both.1⟩

def Outline.unevenBlocks : List Outline :=
  let x : Identifier := ⟨"x", .refl true, .refl Kind.identifier⟩
  let y : Identifier := ⟨"_y", .refl true, .refl Kind.identifier⟩
  let choice := Outline.ifElse x (.mk 2 .pass []) [(y, .mk 0 (.assign x y) [])] none
  let method := Outline.functionDef y [x, y] (.mk 0 (.bare x) [])
  [.tryExcept (.mk 0 choice []) (some ⟨x, some y⟩) (.mk 3 .pass []) [] (some (.mk 1 method [])) none,
    .bare y]

theorem Program.ofSource_source_uneven :
    (∀ outline ∈ Outline.unevenBlocks, outline.isWithin 2 = true) ∧
    Outline.source Outline.unevenBlocks =
      "try:\n if x:\n    pass\n elif _y:\n  x = _y\nexcept x as _y:\n    pass\n" ++
        "else:\n  def _y(x, _y):\n   x\n_y\n" ∧
    ∃ statements, ofSource "uneven.py" (Outline.source Outline.unevenBlocks) =
        (⟨"uneven.py", statements⟩, []) ∧
      List.Forall₂ (Stmt.Alike fun _ _ => True) statements
        (Outline.unevenBlocks.map Outline.statement) := by
  have shallow : ∀ outline ∈ Outline.unevenBlocks, outline.isWithin 2 = true := by decide
  exact ⟨shallow, by decide, ofSource_source "uneven.py" (by decide) shallow⟩

end SourceAudit
