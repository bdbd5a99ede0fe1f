import SourceAudit.Proofs.Grammar.ExpressionTakings

open List

namespace SourceAudit

open Token

/-- A brace that opens a field in the body of a formatted string, with the text before it and the text after it. -/
inductive Piece.Opens : List Char → List Char → List Char → Prop where
  | here {text : List Char} (single : ∀ more, text ≠ '\x7b' :: more) : Opens ('\x7b' :: text) [] text
  | doubled {c : Char} {text front rest : List Char} (brace : c = '\x7b' ∨ c = '\x7d') (more : Opens text front rest) :
      Opens (c :: c :: text) (c :: c :: front) rest
  | field {text front rest : List Char} {field : Replacement} (single : ∀ more, text ≠ '\x7b' :: more)
      (found : Replacement.scan .start text = some field) (more : Opens field.rest front rest) :
      Opens ('\x7b' :: text) ('\x7b' :: (field.body ++ '\x7d' :: front)) rest
  | plain {c : Char} {text front rest : List Char} (other : c ≠ '\x7b' ∧ c ≠ '\x7d') (more : Opens text front rest) :
      Opens (c :: text) (c :: front) rest

/-- The line of a place before which `dropped` line breaks do not count. -/
def lineAt (first : Nat) (before : List Char) (dropped : Nat) : Nat := lineAfter first (before.count '\n' - dropped)

inductive Layer where
  | body
  | expression
  | token (token : Token)

/-- What stands at a place in the body of a formatted string that starts on a line: a body, the expression of a field,
    or the source of a token that is read when this expression is scanned. `before` is what stands before the place,
    and `dropped` counts the line breaks in it that stand between the brace of a field and its expression, for all
    fields around the place. -/
inductive Inside (first : Nat) (outer : List Char) : Layer → List Char → List Char → Nat → Prop where
  | outermost : Inside first outer .body outer [] 0
  | field {text before front rest : List Char} {dropped : Nat} {field : Replacement}
      (within : Inside first outer .body text before dropped) (opens : Piece.Opens text front rest)
      (found : Replacement.scan .start rest = some field) :
      Inside first outer .expression (Replacement.withoutMarker (Text.trim field.expression))
        (before ++ front ++ '\x7b' :: field.expression.takeWhile Text.isBlank)
        (dropped + (field.expression.takeWhile Text.isBlank).count '\n')
  | token {text before passed source rest : List Char} {dropped : Nat} {token : Token}
      (within : Inside first outer .expression text before dropped) (whole : text = passed ++ (source ++ rest))
      (reads : (Scanner.start text (lineAt first before dropped)).Reads token source rest) :
      Inside first outer (.token token) source (before ++ passed) dropped
  | formatted {letters before : List Char} {style : QuoteStyle} {dropped : Nat} {token : Token}
      (within : Inside first outer (.token token) (letters ++ style.opening ++ token.text.toList ++ style.opening)
        before dropped)
      (kind : token.kind = .formattedString) (marks : Marks letters style) :
      Inside first outer .body token.text.toList (before ++ (letters ++ style.opening)) dropped

def Token.Names (token : Token) (name : String) : Prop :=
  token.kind = .identifier ∧ token.text = name ∨ token.isOperator "..." = true ∧ name = "Ellipsis"

/-- Identifiers that are written in the body of a formatted string one after the other, the first one not before
    `place`, each as a token of its own and with the line of this token. -/
inductive Sited (first : Nat) (outer : List Char) : Nat → List (String × Nat) → Prop where
  | nil {place : Nat} : Sited first outer place []
  | cons {place dropped : Nat} {name : String} {token : Token} {before written : List Char}
      {sites : List (String × Nat)}
      (within : Inside first outer (.token token) written before dropped) (names : token.Names name)
      (spells : token.text.toList = written) (stands : before ++ written <+: outer) (order : place ≤ before.length)
      (rest : Sited first outer (before ++ written).length sites) :
      Sited first outer place ((name, lineAt first before dropped) :: sites)

theorem Piece.Opens.whole {text front rest : List Char} (opens : Opens text front rest) :
    text = front ++ '\x7b' :: rest := by
  induction opens with
  | here => rfl
  | doubled _ _ ih | plain _ _ ih => rw [ih]; rfl
  | field _ found _ ih =>
    rw [(Replacement.scan_parts found).1, ih]
    simp

theorem Inside.sound {first dropped : Nat} {outer text before : List Char} {layer : Layer}
    (inside : Inside first outer layer text before dropped) :
    before ++ text <+: outer ∧ dropped ≤ before.count '\n' := by
  induction inside with
  | outermost => exact ⟨prefix_rfl, Nat.zero_le _⟩
  | @field text before front rest dropped field _ opens found ih =>
    obtain ⟨part, low⟩ := ih
    obtain ⟨after, closed⟩ := (Replacement.scan_parts found).2.1
    obtain ⟨tail, start⟩ := field.expression_isPrefix
    have blanks := @takeWhile_append_dropWhile _ Text.isBlank field.expression
    rw [← Text.trimStart, ← start] at blanks
    constructor
    · refine .trans ⟨tail ++ after ++ '\x7d' :: field.rest, ?_⟩ part
      rw [opens.whole, (Replacement.scan_parts found).1, ← closed]
      nth_rewrite 3 [← blanks]
      simp
    · simp only [count_append, count_cons]
      omega
  | @token _ before passed source rest _ _ _ whole _ ih =>
    refine ⟨.trans ⟨rest, ?_⟩ ih.1, ?_⟩
    · rw [whole]
      simp
    · rw [count_append]
      omega
  | formatted _ _ _ ih =>
    refine ⟨.trans ?_ ih.1, ?_⟩
    · simp
    · rw [count_append]
      omega

theorem lineAt_append {first dropped : Nat} {before : List Char} (low : dropped ≤ before.count '\n')
    (passed : List Char) :
    lineAt first (before ++ passed) dropped = lineAfter (lineAt first before dropped) (passed.count '\n') := by
  rw [lineAt, lineAt, lineAfter_lineAfter, count_append, Nat.sub_add_comm low]

/-- The body after `before` has been cut into pieces up to `text`, which starts on `line`. -/
structure Piece.Reached (first dropped : Nat) (before body passed text : List Char) (line : Nat) : Prop where
  whole : body = passed ++ text
  opens : ∀ {front rest : List Char}, Opens text front rest → Opens body (passed ++ front) rest
  line_eq : line = lineAt first (before ++ passed) dropped
  low : dropped ≤ before.count '\n'

namespace Piece.Reached

variable {first dropped line : Nat} {before body passed text : List Char}

theorem start (line_eq : line = lineAt first before dropped) (low : dropped ≤ before.count '\n') :
    Reached first dropped before text [] text line where
  whole := rfl
  opens := id
  line_eq := by rwa [append_nil]
  low := low

theorem step (more : List Char) (reached : Reached first dropped before body passed (more ++ text) line)
    (opens : ∀ {front rest : List Char}, Opens text front rest → Opens (more ++ text) (more ++ front) rest) :
    Reached first dropped before body (passed ++ more) text (lineAfter line (more.count '\n')) where
  whole := by rw [reached.whole, append_assoc]
  opens found := by
    rw [append_assoc]
    exact reached.opens (opens found)
  line_eq := by
    have low : dropped ≤ (before ++ passed).count '\n' := by
      rw [count_append]
      exact reached.low.trans (Nat.le_add_right _ _)
    rw [← append_assoc, lineAt_append low, ← reached.line_eq]
  low := reached.low

theorem still (reached : Reached first dropped before body passed text line) : lineAfter line 0 = line := by
  rw [reached.line_eq, lineAt, lineAfter_lineAfter, Nat.add_zero]

theorem field {field : Replacement} (reached : Reached first dropped before body passed ('\x7b' :: text) line)
    (single : ∀ more, text ≠ '\x7b' :: more) (found : Replacement.scan .start text = some field) :
    Reached first dropped before body (passed ++ '\x7b' :: (field.body ++ ['\x7d'])) field.rest
      (lineAfter line (Replacement.lineBreaks field.body)) := by
  have parts : '\x7b' :: text = '\x7b' :: (field.body ++ ['\x7d']) ++ field.rest := by
    rw [(Replacement.scan_parts found).1]
    simp
  rw [parts] at reached
  have breaks : ('\x7b' :: (field.body ++ ['\x7d'])).count '\n' = Replacement.lineBreaks field.body := by
    simp [Replacement.lineBreaks]
  rw [← breaks]
  refine reached.step _ fun more => ?_
  rw [← parts]
  simpa using Opens.field single found more

end Piece.Reached

namespace Source

inductive Rows (first : Nat) (outer : List Char) : Nat → List Source → Prop where
  | nil {place : Nat} : Rows first outer place []
  | layout {place : Nat} {token : Token} {sources : List Source}
      (other : token.kind.isVerbatim = false ∧ token.kind ≠ .formattedString) (rest : Rows first outer place sources) :
      Rows first outer place (.token token :: sources)
  | token {place dropped : Nat} {token : Token} {before source : List Char} {sources : List Source}
      (within : Inside first outer (.token token) source before dropped) (wrote : token.Wrote source)
      (numbered : token.line = lineAt first before dropped) (order : place ≤ before.length)
      (rest : Rows first outer (before ++ source).length sources) : Rows first outer place (.token token :: sources)
  | field {place dropped : Nat} {text before : List Char} {sources : List Source}
      (within : Inside first outer .expression text before dropped) (order : place ≤ before.length)
      (rest : Rows first outer (before ++ text).length sources) :
      Rows first outer place (.field (String.ofList text) (lineAt first before dropped) :: sources)

variable {first place : Nat} {outer : List Char} {sources : List Source}

theorem Rows.lower {below : Nat} (bound : below ≤ place) (rows : Rows first outer place sources) :
    Rows first outer below sources := by
  induction rows with
  | nil => exact .nil
  | layout other _ ih => exact .layout other (ih bound)
  | token within wrote numbered order rest => exact .token within wrote numbered (bound.trans order) rest
  | field within order rest => exact .field within (bound.trans order) rest

theorem Rows.tokens {line dropped : Nat} {whole before passed text : List Char} {tokens : List Token}
    (laid : Laid (Scanner.start whole (lineAt first before dropped)) line text tokens)
    (within : Inside first outer .expression whole before dropped) (parts : whole = passed ++ text)
    (numbered : line = lineAt first (before ++ passed) dropped) (order : place ≤ (before ++ passed).length)
    (rest : Rows first outer (before ++ whole).length sources) :
    Rows first outer place (tokens.map .token ++ sources) := by
  have low : dropped ≤ (before ++ passed).count '\n' := by
    rw [count_append]
    exact within.sound.2.trans (Nat.le_add_right _ _)
  induction laid generalizing passed place with
  | nil => exact rest.lower (order.trans (by simp [parts]))
  | pass gap _ ih =>
    rw [← append_assoc] at parts
    refine ih parts ?_ (by simp at order ⊢; omega) (by simp at low ⊢; omega)
    rw [numbered, ← append_assoc, lineAt_append low]
  | layout other _ _ ih => exact .layout other (ih parts numbered order low)
  | unit wrote found same _ ih =>
    have here := within.token parts found
    rw [← append_assoc] at parts
    refine .token here wrote (same.trans numbered) order ?_
    rw [append_assoc]
    refine ih parts ?_ (Nat.le_refl _) (by simp at low ⊢; omega)
    rw [numbered, ← append_assoc, lineAt_append low]

theorem filterMap_consChar (c : Char) (pieces : List Piece) :
    (Piece.consChar c pieces).filterMap Piece.source? = pieces.filterMap Piece.source? := by
  unfold Piece.consChar
  split <;> rfl

theorem Rows.fields {line dropped : Nat} {body before passed text : List Char}
    (within : Inside first outer .body body before dropped)
    (reached : Piece.Reached first dropped before body passed text line)
    (order : place ≤ before.length + passed.length) (rest : Rows first outer (before ++ body).length sources) :
    Rows first outer place ((Piece.ofBody line text).filterMap Piece.source? ++ sources) := by
  have ended : ∀ {place line : Nat} {passed text : List Char},
      Piece.Reached first dropped before body passed text line → place ≤ before.length + passed.length →
      Rows first outer place sources := by
    intro place line passed text reached order
    apply rest.lower
    simp only [reached.whole, length_append]
    omega
  fun_induction Piece.ofBody line text generalizing passed place with
  | case1 | case3 | case4 | case7 => exact ended reached order
  | case2 line text ih =>
    rw [filterMap_consChar]
    have next := reached.step ['\x7b', '\x7b'] (.doubled (.inl rfl))
    rw [count_eq_zero.mpr (by decide), reached.still] at next
    exact ih next (by simp; omega)
  | case5 line text single field found expression filled =>
    rename_i ih
    obtain ⟨_, ⟨tail, shown⟩, _⟩ := Replacement.scan_parts found
    obtain ⟨more, start⟩ : expression <+: Text.trimStart field.expression := field.expression_isPrefix
    have blanks := @takeWhile_append_dropWhile _ Text.isBlank field.expression
    have opens : Piece.Opens body passed text := by simpa using reached.opens (.here single)
    have inside := within.field opens found
    have same : lineAt first (before ++ passed ++ '\x7b' :: field.expression.takeWhile Text.isBlank)
        (dropped + (field.expression.takeWhile Text.isBlank).count '\n') = line := by
      rw [reached.line_eq, lineAt, lineAt, count_append, count_cons_of_ne (by decide), Nat.add_sub_add_right]
    have short : (before ++ passed ++ '\x7b' :: field.expression.takeWhile Text.isBlank ++ expression).length ≤
        before.length + (passed ++ '\x7b' :: (field.body ++ ['\x7d'])).length := by
      rw [Text.trimStart] at start
      have parts := congrArg List.length (start ▸ blanks)
      have whole := congrArg List.length shown
      simp only [length_append, length_cons] at parts whole ⊢
      omega
    have row : Rows first outer place (_ :: _) :=
      .field inside (by simp; omega) (ih (reached.field single found) short)
    rwa [same] at row
  | case6 line text ih =>
    rw [filterMap_consChar]
    have next := reached.step ['\x7d', '\x7d'] (.doubled (.inr rfl))
    rw [count_eq_zero.mpr (by decide), reached.still] at next
    exact ih next (by simp; omega)
  | case8 line c text doubled opening doubled' closing ih =>
    rw [filterMap_consChar]
    have next := reached.step [c] (.plain ⟨opening, closing⟩)
    have same : lineAfter line ([c].count '\n') = if c = '\n' then lineAfter line 1 else line := by
      split
      · rename_i lineBreak
        rw [lineBreak]
        rfl
      · rename_i other
        rw [count_eq_zero.mpr (by simpa using Ne.symm other), reached.still]
    rw [same] at next
    exact ih next (by simp; omega)

theorem Rows.named {token : Token} {name : String} {sites : List (String × Nat)}
    (rows : Rows first outer place (.token token :: sources)) (verbatim : token.kind.isVerbatim = true)
    (names : token.Names name)
    (rest : ∀ {place : Nat}, Rows first outer place sources → Sited first outer place sites) :
    Sited first outer place ((name, token.line) :: sites) := by
  cases rows with
  | layout other =>
    rw [verbatim] at other
    cases other.1
  | token within wrote numbered order later =>
    rw [numbered]
    exact .cons within names (wrote.verbatim verbatim) within.sound.1 order (rest later)

theorem Shows.sited {sites : List (String × Nat)} (shows_ : Shows sources sites)
    (rows : Rows first outer place sources) :
    Sited first outer place sites := by
  -- a formatted string and a field give way to what stands in them, before the sources after it
  induction shows_ generalizing place with
  | nil => exact .nil
  | skip source _ ih =>
    cases rows with
    | layout _ rest => exact ih rest
    | token _ _ _ order rest => exact ih (rest.lower (by simp; omega))
    | field _ order rest => exact ih (rest.lower (by simp; omega))
  | name kind _ ih => exact rows.named (by rw [kind]; rfl) (.inl ⟨kind, rfl⟩) ih
  | @dots token _ _ found _ ih =>
    have parts : token.kind = .operator ∧ token.text = "..." := by simpa [Token.isOperator] using found
    exact rows.named (by rw [parts.1]; rfl) (.inr ⟨found, rfl⟩) ih
  | @formatted token sources sites kind _ ih =>
    cases rows with
    | layout other => exact absurd kind other.2
    | token within wrote numbered order rest =>
      obtain ⟨letters, style, rfl, marks⟩ := wrote.formatted kind
      have body := within.formatted kind marks
      apply ih
      refine Rows.fields body (.start ?_ body.sound.2) (by simp; omega) (rest.lower (by simp))
      rw [numbered, lineAt, lineAt, count_append, marks.count, Nat.add_zero]
  | @field text line sources sites _ ih =>
    cases rows with
    | @field _ dropped text before _ within order rest =>
      have laid := Scanner.tokens_laid .start (Scanner.start_sound text (lineAt first before dropped))
        (Scanner.start_queues _ _) (lineAfter_lt _ _)
      apply ih
      rw [Token.ofText, String.toList_ofList]
      refine Rows.tokens laid within (nil_append _).symm ?_ ?_ rest
      · rw [append_nil]
        rfl
      · rwa [append_nil]

end Source

namespace Parser

/-- The identifiers in the fields of a formatted string stand in its body in order, each as a token that is read there.
    Each has the line of its place, less the line breaks that are dropped before it. -/
theorem formattedParts_sited {depth line : Nat} {body : List Char} {cursor stop : Cursor}
    {parts : List (FormattedPart Expr)} (low : line < 0x10000000000000000)
    (read : (Piece.ofBody line body).mapM (formattedPart (expression depth)) cursor = .ok parts stop) :
    Sited line body 0 (Expr.sites (parts.flatMap (·.children))) := by
  have stays := @formattedParts_stay (expression depth) cursor False (expression_reads depth) 0 0
    (Piece.ofBody line body) (fun impossible => impossible.elim) (fun impossible => impossible.elim)
  rw [read] at stays
  apply stays.2.1.sited
  have start : Piece.Reached line 0 [] body [] body line := .start (Nat.mod_eq_of_lt low).symm (Nat.zero_le _)
  have rows : Source.Rows line body 0 (_ ++ []) := .fields .outermost start (Nat.zero_le _) .nil
  rwa [append_nil] at rows

def nestedBody : List Char := "\n\x7bx\x7d\x7b\n y + f'\x7bz\x7d'\x7d".toList

theorem formattedParts_sited_nestedBody :
    (∃ parts, (Piece.ofBody 5 nestedBody).mapM (formattedPart (expression (nestingLimit - 1))) (Cursor.ofTokens []) =
        .ok parts (Cursor.ofTokens [])) ∧
      Sited 5 nestedBody 0 [("x", 6), ("y", 6), ("z", 6)] := by
  have evaluated : (match (Piece.ofBody 5 nestedBody).mapM (formattedPart (expression (nestingLimit - 1)))
        (Cursor.ofTokens []) with
      | .ok parts stop => decide (Expr.sites (parts.flatMap (·.children)) = [("x", 6), ("y", 6), ("z", 6)] ∧
          stop.rest = [] ∧ stop.final = (Cursor.ofTokens []).final ∧ stop.errors = [])
      | .error _ _ => false) = true := by decide +kernel
  split at evaluated
  case h_1 parts stop read =>
    obtain ⟨sites, rest, final, errors⟩ := of_decide_eq_true evaluated
    cases Cursor.eq_of_parts rest final errors
    rw [← sites]
    exact ⟨⟨parts, read⟩, formattedParts_sited (by decide) read⟩
  case h_2 => cases evaluated

end Parser

namespace Program

def fieldBelow : String := "f'''\x7b\na\x7d'''\n"

/-- The name is given the line of the brace. -/
theorem ofSource_line_above :
    ofSource "lib" fieldBelow = (⟨"lib", [⟨1, .expr ⟨1, .formatted [.value ⟨1, .identifier "a"⟩]⟩⟩]⟩, []) ∧
      Token.ofText fieldBelow 1 = [⟨.formattedString, "\x7b\na\x7d", 1⟩, ⟨.newline, "\n", 2⟩, ⟨.endOfInput, "", 3⟩] ∧
      Token.lineAfter 1 ("\x7b\n".toList.count '\n') = 2 := by
  have tokens : Token.ofText fieldBelow 1 =
      [⟨.formattedString, "\x7b\na\x7d", 1⟩, ⟨.newline, "\n", 2⟩, ⟨.endOfInput, "", 3⟩] := by decide +kernel
  refine ⟨?_, tokens, rfl⟩
  rw [ofSource, tokens]
  with_unfolding_all rfl

end Program
end SourceAudit
