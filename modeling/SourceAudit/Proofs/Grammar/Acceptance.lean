import SourceAudit.Proofs.Grammar.Progress

open List

namespace SourceAudit

namespace Token

def brackets : List (String × String) := [("(", ")"), ("[", "]"), ("\x7b", "\x7d")]

def isBracket (token : Token) : Bool :=
  brackets.any fun pair => token.isDelimiter pair.1 || token.isDelimiter pair.2

/-- Every bracket has its counterpart, and brackets stand in each other or side by side. -/
inductive Nested : List Token → Prop where
  | nil : Nested []
  | other {token : Token} {tokens : List Token} (plain : token.isBracket = false) (rest : Nested tokens) :
      Nested (token :: tokens)
  | pair {first last : Token} {opens closes : String} {inner rest : List Token} (known : (opens, closes) ∈ brackets)
      (opening : first.isDelimiter opens = true) (closing : last.isDelimiter closes = true)
      (inside : Nested inner) (after : Nested rest) : Nested (first :: inner ++ last :: rest)

theorem Nested.append {first second : List Token} (nested : Nested first) (later : Nested second) :
    Nested (first ++ second) := by
  induction nested with
  | nil => exact later
  | other plain _ ih => exact .other plain ih
  | pair known opening closing inside _ _ ih =>
    rw [append_assoc, cons_append]
    exact .pair known opening closing inside ih

def Unwinds : List String → List Token → Prop
  | [], tokens => Nested tokens
  | closer :: owed, tokens => ∃ inner last rest, tokens = inner ++ last :: rest ∧ Nested inner ∧
      last.isDelimiter closer = true ∧ Unwinds owed rest

theorem Unwinds.append {owed : List String} {first second : List Token} (nested : Nested first)
    (unwinds : Unwinds owed second) : Unwinds owed (first ++ second) := by
  cases owed with
  | nil => exact nested.append unwinds
  | cons closer owed =>
    obtain ⟨inner, last, rest, rfl, inside, closing, after⟩ := unwinds
    exact ⟨first ++ inner, last, rest, by simp, nested.append inside, closing, after⟩

theorem owedAt_cases {owed owed' : List String} {symbol : String} (step : owedAt owed symbol = some owed') :
    ((∀ pair ∈ brackets, symbol ≠ pair.1 ∧ symbol ≠ pair.2) ∧ owed' = owed) ∨
    (∃ closes, (symbol, closes) ∈ brackets ∧ owed' = closes :: owed) ∨ owed = symbol :: owed' := by
  unfold owedAt at step
  split at step
  case h_1 | h_2 | h_3 =>
    cases step
    exact .inr (.inl ⟨_, by simp [brackets], rfl⟩)
  case h_7 =>
    cases step
    left
    simp_all [brackets]
  all_goals
    -- A closing bracket has to be the one that is owed last.
    split at step
    · cases step
    · split at step
      · rename_i same
        cases step
        exact .inr (.inr (by rw [same]))
      · cases step

theorem owedAfter_cases {owed owed' : List String} {token : Token} (step : owedAfter owed token = some owed') :
    (token.isBracket = false ∧ owed' = owed) ∨
    (∃ opens closes, (opens, closes) ∈ brackets ∧ token.isDelimiter opens = true ∧ owed' = closes :: owed) ∨
    ∃ closes, token.isDelimiter closes = true ∧ owed = closes :: owed' := by
  by_cases delimiter : token.kind = .delimiter
  · have spelled : token.isDelimiter token.text = true := by simp [isDelimiter, delimiter]
    rw [owedAfter, delimiter] at step
    rcases owedAt_cases step with ⟨others, same⟩ | ⟨closes, known, same⟩ | same
    · have plain : token.isBracket = false := by
        simpa [isBracket, isDelimiter, delimiter] using fun opens closes => others (opens, closes)
      exact .inl ⟨plain, same⟩
    · exact .inr (.inl ⟨token.text, closes, known, spelled, same⟩)
    · exact .inr (.inr ⟨token.text, spelled, same⟩)
  · left
    have plain : token.isBracket = false := by simp [isBracket, isDelimiter, delimiter]
    refine ⟨plain, ?_⟩
    unfold owedAfter at step
    split at step
    · cases step
    · split at step
      · rename_i none
        cases step
        exact none.symm
      · cases step
    · contradiction
    · cases step
      rfl

theorem unwinds_of_owedThrough {owed : List String} {tokens : List Token}
    (closes : owedThrough owed tokens = some []) : Unwinds owed tokens := by
  induction tokens generalizing owed with
  | nil =>
    cases closes
    exact .nil
  | cons token tokens ih =>
    rw [← singleton_append, owedThrough_append, owedThrough_singleton] at closes
    obtain ⟨owed', step, rest⟩ := Option.bind_eq_some_iff.mp closes
    have unwinds := ih rest
    rcases owedAfter_cases step with ⟨plain, rfl⟩ | ⟨opens, closes, known, opening, rfl⟩ | ⟨closes, closing, rfl⟩
    · exact .append (.other plain .nil) unwinds
    · obtain ⟨inner, last, others, rfl, inside, closing, after⟩ := unwinds
      have pair : Nested (token :: inner ++ [last]) := .pair known opening closing inside .nil
      simpa using Unwinds.append pair after
    · exact ⟨[], token, tokens, rfl, .nil, closing, unwinds⟩

theorem legal_of_owedThrough {owed owed' : List String} {tokens : List Token}
    (closes : owedThrough owed tokens = some owed') : ∀ token ∈ tokens, token.kind ≠ .illegal := by
  induction tokens generalizing owed with
  | nil => simp
  | cons token tokens ih =>
    rw [← singleton_append, owedThrough_append, owedThrough_singleton] at closes
    obtain ⟨between, step, rest⟩ := Option.bind_eq_some_iff.mp closes
    intro other member
    rcases mem_cons.mp member with rfl | member
    · intro illegal
      rw [owedAfter, illegal] at step
      cases step
    · exact ih rest other member

instance (text : String) : Decidable (Text.IsWord text) :=
  decidable_of_iff (text ≠ "" ∧ text.toList.all Text.isIdentifierChar = true) (by rw [Text.IsWord, all_eq_true])

instance (token : Token) : Decidable token.IsNamed :=
  decidable_of_iff (token.kind ≠ .formattedString ∧ token.isOperator "..." = false ∧
      (token.kind = .identifier → Text.IsWord token.text))
    ⟨fun named => ⟨named.1, named.2.1, named.2.2⟩, fun named => ⟨named.plain, named.dots, named.word⟩⟩

end Token

namespace Program

theorem spells_of_clean {file : String} {tokens : List Token} (clean : (ofTokens file tokens).2 = []) :
    Token.Spells [] (tokens.takeWhile (·.kind != .endOfInput)) [] .nothing
      ⟨(ofTokens file tokens).1.names, Stmt.lines (ofTokens file tokens).1.statements, [],
        (ofTokens file tokens).1.statements.Forall Stmt.Whole⟩ := by
  have reads := Parser.expression_reads nestingLimit
  have blocks := Parser.nestedBlock_fills nestingLimit
  have ended := (Parser.statements_does reads blocks .program (Cursor.ofTokens tokens)).program_ends
  have passes := Parser.statements_serves reads blocks Parser.Loop.program.stop Parser.Loop.program.skip
    (by simp [Parser.Loop.program]) (Cursor.ofTokens tokens)
  rw [Stmt.tally_all] at passes
  obtain ⟨taken, rest, spells⟩ := passes.spells clean
  have split : tokens = taken ++ _ := rest
  have whole : tokens.takeWhile (·.kind != .endOfInput) = taken := by
    rw [split, takeWhile_append_of_pos (by simpa using spells.inside), Cursor.takeWhile_of_ended ended,
      append_nil]
  rw [whole]
  unfold ofTokens
  rw [names_mk]
  exact spells

def classTokens : List Token :=
  [⟨.keyword, "class", 1⟩, ⟨.identifier, "Plug", 1⟩, ⟨.delimiter, ":", 1⟩, ⟨.newline, "\n", 1⟩,
    ⟨.indent, "", 2⟩, ⟨.identifier, "port", 2⟩, ⟨.operator, "=", 2⟩, ⟨.identifier, "ports", 2⟩,
    ⟨.delimiter, "[", 2⟩, ⟨.identifier, "first", 2⟩, ⟨.delimiter, "(", 2⟩, ⟨.identifier, "kind", 2⟩,
    ⟨.operator, "=", 2⟩, ⟨.integer, "1", 2⟩, ⟨.delimiter, ")", 2⟩, ⟨.delimiter, "]", 2⟩, ⟨.newline, "\n", 2⟩,
    ⟨.dedent, "", 3⟩, ⟨.endOfInput, "", 3⟩, ⟨.delimiter, ")", 3⟩, ⟨.identifier, "late", 3⟩]

/-- In tokens that are read without an error, up to the end of input, no token is illegal, the brackets are
    nested, and an indent comes only after a colon at the end of a line. -/
theorem ofTokens_nested {file : String} {tokens : List Token} (clean : (ofTokens file tokens).2 = []) :
    (∀ token ∈ tokens.takeWhile (·.kind != .endOfInput), token.kind ≠ .illegal) ∧
    Token.Nested (tokens.takeWhile (·.kind != .endOfInput)) ∧
    Token.Opened (tokens.takeWhile (·.kind != .endOfInput)) := by
  have spells := spells_of_clean clean
  exact ⟨Token.legal_of_owedThrough spells.closes, Token.unwinds_of_owedThrough spells.closes, spells.opened⟩

theorem ofTokens_nested_class : (ofTokens "lib" classTokens).2 = [] ∧
    (∀ token ∈ classTokens.take 18, token.kind ≠ .illegal) ∧ Token.Nested (classTokens.take 18) ∧
    Token.Opened (classTokens.take 18) := by
  have clean : (ofTokens "lib" classTokens).2 = [] := by decide +kernel
  exact ⟨clean, ofTokens_nested clean⟩

/-- Nothing is dropped: the names of a tree that is read without an error are those of the identifiers before
    the end of input, in their order. -/
theorem ofTokens_names {file : String} {tokens : List Token} (named : ∀ token ∈ tokens, token.IsNamed)
    (clean : (ofTokens file tokens).2 = []) :
    (ofTokens file tokens).1.names = Token.names (tokens.takeWhile (·.kind != .endOfInput)) := by
  have spelled : [] ++ _ = (ofTokens file tokens).1.names :=
    (spells_of_clean clean).named (by simp [Tally.nothing, Tally.rule]) fun token member =>
      named token ((List.takeWhile_prefix _).subset member)
  rw [← spelled, nil_append]

theorem ofTokens_names_class : (∀ token ∈ classTokens, token.IsNamed) ∧ (ofTokens "lib" classTokens).2 = [] ∧
    (ofTokens "lib" classTokens).1.names = ["Plug", "port", "ports", "first", "kind"] := by
  have named : ∀ token ∈ classTokens, token.IsNamed := by decide
  have clean : (ofTokens "lib" classTokens).2 = [] := by decide +kernel
  exact ⟨named, clean, ofTokens_names named clean⟩

end Program
end SourceAudit
