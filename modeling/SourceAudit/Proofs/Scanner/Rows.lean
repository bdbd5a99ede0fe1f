import SourceAudit.Proofs.Scanner.Spelling

open List

namespace SourceAudit

namespace Token

def newline : Token := ⟨.newline, "\n", 1⟩

def indent : Token := ⟨.indent, "", 1⟩

def dedent : Token := ⟨.dedent, "", 1⟩

def endOfInput : Token := ⟨.endOfInput, "", 1⟩

def enclosed : List Token → List Token
  | [] => []
  | first :: others => indent :: first :: (others ++ [dedent])

theorem enclosed_of_ne_nil {tokens : List Token} (some : tokens ≠ []) :
    enclosed tokens = indent :: (tokens ++ [dedent]) := by
  obtain ⟨first, others, rfl⟩ := exists_cons_of_ne_nil some
  rfl

end Token

open Token

/-- A line and the lines of the block under it, which have `extra + 1` more blanks before them. -/
inductive Row where
  | mk (phrase : Phrase) (extra : Nat) (under : List Row)

namespace Row

mutual

def text (column : Nat) : Row → List Char
  | mk phrase extra under =>
    List.replicate column ' ' ++ (phrase.text ++ '\n' :: texts (column + extra + 1) under)

def texts (column : Nat) : List Row → List Char
  | [] => []
  | row :: rows => row.text column ++ texts column rows

end

mutual

def tokens : Row → List Token
  | mk phrase _ under => phrase.tokens ++ newline :: enclosed (allTokens under)

def allTokens : List Row → List Token
  | [] => []
  | row :: rows => row.tokens ++ allTokens rows

end

theorem allTokens_append (first second : List Row) :
    allTokens (first ++ second) = allTokens first ++ allTokens second := by
  induction first with
  | nil => rfl
  | cons row rows ih => rw [cons_append, allTokens, allTokens, ih, append_assoc]

theorem allTokens_ne_nil {rows : List Row} (some : rows ≠ []) : allTokens rows ≠ [] := by
  obtain ⟨⟨phrase, extra, under⟩, others, rfl⟩ := exists_cons_of_ne_nil some
  rw [allTokens, tokens, Phrase.tokens]
  exact cons_ne_nil _ _

end Row

namespace Scanner

def StartsAt (column : Nat) (text : List Char) : Prop :=
  ∃ c rest, text = List.replicate column ' ' ++ c :: rest ∧ IsVisible c

structure IsStack (columns : List Nat) : Prop where
  sorted : columns.Pairwise (· > ·)
  outermost : columns.getLast? = some 0

def GoesOn (columns : List Nat) (text : List Char) : Prop :=
  text = [] ∨ ∃ column ∈ columns, StartsAt column text

theorem leadingColumn_replicate (skipped : List Char) (column count : Nat) :
    leadingColumn skipped column (List.replicate count ' ') = column + count := by
  induction count generalizing column with
  | zero => rfl
  | succ count ih =>
    rw [replicate_succ, leadingColumn, ih]
    omega

variable {column : Nat} {columns : List Nat} {text : List Char}

theorem head_dropWhile (sorted : columns.Pairwise (· > ·)) (member : column ∈ columns) :
    (columns.dropWhile (column < ·)).headD 0 = column := by
  induction columns with
  | nil => cases member
  | cons first outer ih =>
    rw [pairwise_cons] at sorted
    rcases mem_cons.mp member with rfl | member
    · rw [dropWhile_cons_of_neg (by simp)]
      rfl
    · rw [dropWhile_cons_of_pos (by simpa using sorted.1 column member)]
      exact ih sorted.2 member

theorem openLine_at {c : Char} (visible : IsVisible c) (rest : List Char) (line : Nat) :
    (between (List.replicate column ' ' ++ c :: rest) line columns true).openLine =
      if columns.headD 0 < column then
        { between (c :: rest) line (column :: columns) false with pending := [⟨.indent, "", line⟩] }
      else
        { between (c :: rest) line (columns.dropWhile (column < ·)) false with
          pending := (columns.takeWhile (column < ·)).map (fun _ => ⟨.dedent, "", line⟩) ++
            if (columns.dropWhile (column < ·)).headD 0 = column then []
            else [⟨.illegal, String.ofList (List.replicate column ' '), line⟩] } := by
  have blank : ∀ b ∈ List.replicate column ' ', isIndentChar b = true := by
    intro b member
    rw [eq_of_mem_replicate member]
    rfl
  have taken : (List.replicate column ' ' ++ c :: rest).takeWhile isIndentChar =
      List.replicate column ' ' := by
    rw [takeWhile_append_of_pos blank, takeWhile_cons_of_neg (by simp [visible.1]),
      append_nil]
  have left : (List.replicate column ' ' ++ c :: rest).dropWhile isIndentChar = c :: rest := by
    rw [dropWhile_append_of_pos blank, dropWhile_cons_of_neg (by simp [visible.1])]
  unfold openLine between
  simp only [taken, left, leadingColumn_replicate, Nat.zero_add, visible.2, Bool.false_eq_true,
    ↓reduceIte]

theorem spellings_pending {scanner : Scanner}
    (more : ∀ token ∈ scanner.pending, token.kind ≠ .endOfInput) :
    scanner.spellings = scanner.pending.map spelling ++ { scanner with pending := [] }.spellings := by
  rw [spellings, tokens_pending more, map_append]
  rfl

theorem spellings_aligned {c : Char} (visible : IsVisible c) (rest : List Char) (line : Nat)
    (sorted : columns.Pairwise (· > ·)) (member : column ∈ columns) :
    (between (List.replicate column ' ' ++ c :: rest) line columns true).spellings =
      (columns.takeWhile (column < ·)).map (fun _ => (.dedent, "")) ++
        (between (c :: rest) line (columns.dropWhile (column < ·)) false).spellings := by
  have opened : Steps (between (List.replicate column ' ' ++ c :: rest) line columns true) none _ :=
    .opened rfl rfl rfl
  have least : ¬ columns.headD 0 < column := by
    cases columns with
    | nil => cases member
    | cons first outer =>
      rw [pairwise_cons] at sorted
      rcases mem_cons.mp member with rfl | member
      · exact Nat.lt_irrefl _
      · exact Nat.lt_asymm (sorted.1 column member)
  rw [spellings, tokens_of_none opened.step_eq, openLine_at visible rest line, if_neg least,
    if_pos (head_dropWhile sorted member), append_nil]
  refine (spellings_pending ?_).trans ?_
  · intro token waiting
    obtain ⟨-, -, rfl⟩ := mem_map.mp waiting
    simp
  · rw [map_map]
    rfl

theorem spellings_level {outer : List Nat} (starts : StartsAt column text) (line : Nat)
    (sorted : (column :: outer).Pairwise (· > ·)) :
    ∃ rest, text = List.replicate column ' ' ++ rest ∧
      (between text line (column :: outer) true).spellings =
        (between rest line (column :: outer) false).spellings := by
  obtain ⟨c, rest, rfl, visible⟩ := starts
  refine ⟨c :: rest, rfl, ?_⟩
  rw [spellings_aligned visible rest line sorted (mem_cons_self ..)]
  simp

theorem spellings_indented (starts : StartsAt column text) (line : Nat)
    (sorted : (column :: columns).Pairwise (· > ·)) (deeper : columns.headD 0 < column) :
    (between text line columns true).spellings =
      (.indent, "") :: (between text line (column :: columns) true).spellings := by
  obtain ⟨c, rest, rfl, visible⟩ := starts
  have opened : Steps (between (List.replicate column ' ' ++ c :: rest) line columns true) none _ :=
    .opened rfl rfl rfl
  rw [spellings_aligned visible rest line sorted (mem_cons_self ..), spellings,
    tokens_of_none opened.step_eq, openLine_at visible rest line, if_pos deeper]
  refine (spellings_pending (by simp)).trans ?_
  simp [spelling, between]

theorem spellings_dedented (goes : GoesOn columns text) (line : Nat)
    (stack : IsStack (column :: columns)) (nested : IsStack columns) :
    (between text line (column :: columns) true).spellings =
      (.dedent, "") :: (between text line columns true).spellings := by
  rcases goes with rfl | ⟨place, member, c, rest, rfl, visible⟩
  · have some : columns ≠ [] := by
      rintro rfl
      cases nested.outermost
    obtain ⟨outer, others, rfl⟩ := exists_cons_of_ne_nil some
    -- at the end of the text the open blocks are counted
    rw [spellings, spellings, between_end rfl line true stack.sorted stack.outermost,
      between_end rfl line true nested.sorted nested.outermost]
    rfl
  · have inside : place < column := (pairwise_cons.mp stack.sorted).1 place member
    rw [spellings_aligned visible rest line stack.sorted (mem_cons_of_mem _ member),
      spellings_aligned visible rest line nested.sorted member,
      takeWhile_cons_of_pos (by simpa using inside), dropWhile_cons_of_pos (by simpa using inside)]
    rfl

theorem startsAt_text (row : Row) (column : Nat) (more : List Char) :
    StartsAt column (row.text column ++ more) := by
  obtain ⟨⟨first, others, spelled, -⟩, extra, under⟩ := row
  obtain ⟨c, cs, letters, visible⟩ := exists_visible (spelled first (mem_cons_self ..))
  unfold StartsAt
  rw [Row.text, Phrase.text, letters, append_assoc]
  exact ⟨c, _, rfl, visible⟩

theorem startsAt_texts {rows : List Row} (some : rows ≠ []) (column : Nat) (more : List Char) :
    StartsAt column (Row.texts column rows ++ more) := by
  obtain ⟨first, others, rfl⟩ := exists_cons_of_ne_nil some
  rw [Row.texts, append_assoc]
  exact startsAt_text first column _

theorem IsStack.push {outer : List Nat} (stack : IsStack (column :: outer)) (extra : Nat) :
    IsStack ((column + extra + 1) :: column :: outer) := by
  refine ⟨pairwise_cons.mpr ⟨?_, stack.sorted⟩, by rw [List.getLast?_cons_cons, stack.outermost]⟩
  intro place member
  rcases mem_cons.mp member with rfl | member
  · omega
  · have := (pairwise_cons.mp stack.sorted).1 place member
    omega

theorem GoesOn.deeper (goes : GoesOn columns text) (column : Nat) : GoesOn (column :: columns) text := by
  rcases goes with done | ⟨place, member, starts⟩
  · exact .inl done
  · exact .inr ⟨place, mem_cons_of_mem _ member, starts⟩

theorem spellings_under {outer : List Nat} {more : List Char} {line extra : Nat} {under : List Row}
    (stack : IsStack (column :: outer)) (goes : GoesOn (column :: outer) more)
    (inner : (between (Row.texts (column + extra + 1) under ++ more) line
        ((column + extra + 1) :: column :: outer) true).spellings =
      (Row.allTokens under).map spelling ++
        (between more line ((column + extra + 1) :: column :: outer) true).spellings) :
    (between (Row.texts (column + extra + 1) under ++ more) line (column :: outer) true).spellings =
      (enclosed (Row.allTokens under)).map spelling ++
        (between more line (column :: outer) true).spellings := by
  by_cases some : under = []
  · subst some
    rfl
  · have deeper : (column :: outer).headD 0 < column + extra + 1 := by
      rw [headD_cons]
      omega
    rw [spellings_indented (startsAt_texts some _ more) line (stack.push extra).sorted deeper, inner,
      spellings_dedented goes line (stack.push extra) stack,
      enclosed_of_ne_nil (Row.allTokens_ne_nil some), map_cons, map_append, cons_append,
      append_assoc]
    rfl

-- A line leaves the stack of columns as it was: the block under it pushes one column, which is popped
-- where the text goes on.
mutual

theorem spellings_row : ∀ (row : Row) {column : Nat} {outer : List Nat} {more : List Char} (line : Nat),
    IsStack (column :: outer) → GoesOn (column :: outer) more →
    (between (row.text column ++ more) line (column :: outer) true).spellings =
      row.tokens.map spelling ++ (between more line (column :: outer) true).spellings
  | .mk phrase extra under, column, outer, more, line, stack, goes => by
    have inner := spellings_rows under line (stack.push extra) (goes.deeper _)
    obtain ⟨rest, split, level⟩ :=
      spellings_level (startsAt_text (.mk phrase extra under) column more) line stack.sorted
    rw [Row.text, append_assoc] at split
    rw [level, ← append_cancel_left split, append_assoc, cons_append, spellings_phrase,
      spellings_under stack goes inner, Row.tokens, map_append, map_cons, append_assoc]
    rfl

theorem spellings_rows : ∀ (rows : List Row) {column : Nat} {outer : List Nat} {more : List Char}
    (line : Nat), IsStack (column :: outer) → GoesOn (column :: outer) more →
    (between (Row.texts column rows ++ more) line (column :: outer) true).spellings =
      (Row.allTokens rows).map spelling ++ (between more line (column :: outer) true).spellings
  | [], column, outer, more, line, stack, goes => rfl
  | row :: rows, column, outer, more, line, stack, goes => by
    have onward : GoesOn (column :: outer) (Row.texts column rows ++ more) := by
      by_cases some : rows = []
      · subst some
        exact goes
      · exact .inr ⟨column, mem_cons_self .., startsAt_texts some column more⟩
    rw [Row.texts, append_assoc, spellings_row row line stack onward,
      spellings_rows rows line stack goes, Row.allTokens, map_append, append_assoc]

end

end Scanner

theorem Token.ofText_texts (rows : List Row) :
    List.Forall₂ (Token.Alike fun _ _ => True) (ofText (String.ofList (Row.texts 0 rows)) 1)
      (Row.allTokens rows ++ [endOfInput]) := by
  rw [forall₂_alike_iff, map_append]
  have stack : Scanner.IsStack [0] := ⟨pairwise_singleton _ _, rfl⟩
  have read := Scanner.spellings_rows rows 1 stack (.inl rfl)
  have none : ([] : List Char).dropWhile isIndentChar = [] := rfl
  have done := Scanner.between_end none 1 true stack.sorted stack.outermost
  rw [append_nil, Scanner.spellings, Scanner.spellings, done] at read
  rw [ofText, String.toList_ofList]
  exact read

end SourceAudit
