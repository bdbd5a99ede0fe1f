import Mathlib.Data.List.Forall2
import SourceAudit.Proofs.Grammar.Composition
import SourceAudit.Proofs.Scanner.SingleLine

open List

namespace SourceAudit

open Layout Twins

variable {like : Likeness}

def compoundWords : List String := ["if", "while", "for", "def", "class", "try", "with", "async"]

namespace Token

def startsCompound (token : Token) : Bool := token.isOperator "@" || compoundWords.any token.isKeyword

theorem text_of_simple {token : Token} (simple : token.startsCompound = false) (keyword : token.kind = .keyword) :
    ∀ word ∈ compoundWords, token.text ≠ word := by
  intro word member same
  simp only [startsCompound, Bool.or_eq_false_iff, any_eq_false] at simple
  exact simple.2 word member (by simp [isKeyword, keyword, same])

end Token

theorem SyntaxError.Alike.eq {error other : SyntaxError} (alike : error.Alike Eq other) : error = other := by
  obtain ⟨line, cause⟩ := error
  obtain ⟨line', cause'⟩ := other
  obtain ⟨lines, causes⟩ := alike
  obtain rfl : line = line' := lines
  cases causes with
  | same => rfl
  | @expected what found other tokens =>
    obtain rfl : found = other := by
      cases found
      cases other
      obtain ⟨kind, text, line⟩ := tokens
      simp_all
    rfl

theorem Token.forall_of_alike {lines : Nat → Nat → Prop} {run run' : List Token}
    (alike : List.Forall₂ (Token.Alike lines) run run') (test : Token → Bool)
    (blind : ∀ token line, test { token with line } = test token) (all : ∀ token ∈ run, test token = false) :
    ∀ token ∈ run', test token = false := by
  induction alike with
  | nil => exact all
  | @cons token token' run run' first _ ih =>
    intro other member
    rcases mem_cons.mp member with rfl | member
    · rw [first.test test blind]
      exact all token mem_cons_self
    · exact ih (fun inside found => all inside (mem_cons_of_mem _ found)) other member

/-- What two readings of a line that ends alike do: both pass its line break, or both fail at the same
    place on it. A keyword that may stop recovery is passed before that. -/
inductive Twins.ReadsLine (twins : Twins like) : Line × Cursor → Line × Cursor → Prop where
  | read {statements statements' : List Stmt} (some : statements ≠ [])
      (alike : List.Forall₂ like.stmt statements statements') :
      ReadsLine twins (⟨statements, none⟩, twins.leftEnd.advance) (⟨statements', none⟩, twins.rightEnd.advance)
  | failed {statements statements' : List Stmt} {error error' : SyntaxError} (count : Nat)
      (alike : List.Forall₂ like.stmt statements statements') (same : error.Alike like.line error')
      (taken : count = 0 → twins.left.current.isStatementStarter = true →
        twins.left.current.startsCompound = true) :
      ReadsLine twins (⟨statements, some error⟩, (twins.skip count).left)
        (⟨statements', some error'⟩, (twins.skip count).right)

theorem Twins.ReadsLine.cons {twins : Twins like} {count : Nat} {statement statement' : Stmt}
    {line line' : Line} {last last' : Cursor} (alike : like.stmt statement statement') (some : 0 < count)
    (onward : (twins.skip count).ReadsLine (line, last) (line', last')) :
    twins.ReadsLine ({ line with statements := statement :: line.statements }, last)
      ({ line' with statements := statement' :: line'.statements }, last') := by
  cases onward with
  | read _ alikes => exact .read (by simp) (.cons alike alikes)
  | failed more alikes same _ =>
    rw [skip_skip]
    exact .failed (count + more) (.cons alike alikes) same fun none => by omega

theorem Twins.shorter {twins : Twins like} {count : Nat}
    (smaller : (twins.skip count).left.size < twins.left.size) :
    0 < count ∧ (twins.skip count).right.size < twins.right.size := by
  have same := twins.alike.length_eq
  have left_size : (twins.skip count).left.size =
      (twins.leftRun.drop count).length + twins.leftEnd.rest.length := Cursor.size_push _ _
  have right_size : (twins.skip count).right.size =
      (twins.rightRun.drop count).length + twins.rightEnd.rest.length := Cursor.size_push _ _
  rw [left_size, Twins.left, Cursor.size_push, length_drop] at smaller
  rw [right_size, Twins.right, Cursor.size_push, length_drop]
  omega

namespace Parser

variable {twins : Twins like} {expr : Precedence → Parser Expr} {block : Parser (Block Stmt)}

theorem compound?_none {token : Token} (simple : token.startsCompound = false) :
    compound? expr block token = none := by
  have bare : token.isOperator "@" = false := (Bool.or_eq_false_iff.mp simple).1
  unfold compound?
  rw [bare, if_neg (by simp)]
  split
  · rename_i keyword
    have plain := Token.text_of_simple simple keyword
    simp only [compoundWords, mem_cons, not_mem_nil, or_false, forall_eq_or_imp, forall_eq] at plain
    simp [plain]
  · rfl

theorem expectNewline_eq (cursor : Cursor) :
    expectNewline cursor =
      (match cursor.current.kind with
      | .newline => advance >>= fun _ => pure ()
      | .endOfInput => pure ()
      | _ => unexpected .endOfLine : Parser Unit) cursor := rfl

theorem expectNewline_twins (newline : twins.leftEnd.current.kind = .newline) :
    (expectNewline twins.left = .ok () twins.leftEnd.advance ∧
      expectNewline twins.right = .ok () twins.rightEnd.advance) ∨
    ∃ error error', error.Alike like.line error' ∧ expectNewline twins.left = .error error twins.left ∧
      expectNewline twins.right = .error error' twins.right := by
  have alike := twins.current_alike
  rw [expectNewline_eq, expectNewline_eq, ← alike.kind]
  cases run : twins.leftRun with
  | nil =>
    have run' : twins.rightRun = [] := by
      have lengths := twins.alike.length_eq
      rw [run] at lengths
      exact length_eq_zero_iff.mp lengths.symm
    have left_eq : twins.left = twins.leftEnd := by rw [Twins.left, run, Cursor.push_nil]
    have right_eq : twins.right = twins.rightEnd := by rw [Twins.right, run', Cursor.push_nil]
    rw [left_eq, right_eq, newline]
    exact .inl ⟨rfl, rfl⟩
  | cons token rest =>
    have written : twins.left.current.kind.isLayout = false := by
      rw [Twins.left, run]
      exact twins.written token (by simp [run])
    right
    cases kind : twins.left.current.kind with
    | newline => rw [kind] at written; cases written
    | endOfInput => rw [kind] at written; cases written
    | _ => exact ⟨_, _, .atToken alike (.expected .endOfLine alike), rfl, rfl⟩

theorem nextStatement_line {line rest : List Token} {last : Token}
    (written : ∀ token ∈ line, token.kind.isLayout = false)
    (plain : ∀ token ∈ line, token.isStatementStarter = false) (newline : last.kind = .newline)
    (flat : ∀ next ∈ rest.head?, next.kind ≠ .indent) :
    Cursor.nextStatement (line ++ last :: rest) = rest := by
  induction line with
  | nil =>
    cases rest with
    | nil => simp [Cursor.nextStatement, newline]
    | cons next rest => simp [Cursor.nextStatement, newline, flat next rfl]
  | cons token line ih =>
    have word := written token mem_cons_self
    have passed : token.kind ≠ .endOfInput ∧ token.kind ≠ .dedent ∧ token.kind ≠ .newline := by
      refine ⟨?_, ?_, ?_⟩ <;> intro kind <;> rw [kind] at word <;> cases word
    rw [cons_append, Cursor.nextStatement_word _ passed.1 passed.2.1 passed.2.2,
      if_neg (by simp [plain token mem_cons_self])]
    exact ih (fun other member => written other (mem_cons_of_mem _ member))
      fun other member => plain other (mem_cons_of_mem _ member)

theorem resumed_line {last : Token} {run more : List Token} {ending : Cursor}
    (rest : ending.rest = last :: more) (newline : last.kind = .newline)
    (written : ∀ token ∈ run, token.kind.isLayout = false)
    (plain : ∀ token ∈ run, token.isStatementStarter = false)
    (flat : ∀ next ∈ more.head?, next.kind ≠ .indent) (error : SyntaxError) (whole : List Token) :
    (if ((ending.push run).report error).synchronize.size = (ending.push whole).size then
      ((ending.push run).report error).synchronize.advance
    else ((ending.push run).report error).synchronize) = ending.advance.reportAll [error] := by
  have passed : ((ending.push run).report error).synchronize = ending.advance.reportAll [error] := by
    refine Cursor.eq_of_parts ?_ rfl rfl
    change Cursor.nextStatement (run ++ ending.rest) = ending.rest.drop 1
    rw [rest]
    exact nextStatement_line written plain newline flat
  have shorter : (ending.advance.reportAll [error]).size = (ending.rest.drop 1).length := Cursor.size_eq _
  rw [passed, if_neg]
  rw [shorter, Cursor.size_push, rest, length_drop, length_cons]
  omega

def stopOf {α : Type} : EStateM.Result SyntaxError Cursor α → Cursor
  | .ok _ stop | .error _ stop => stop

theorem starter_cases {token : Token} (starter : token.isStatementStarter = true)
    (simple : token.startsCompound = false) :
    token.kind = .keyword ∧ token.text ∈ ["return", "import", "pass", "break", "continue"] := by
  simp only [Token.isStatementStarter, Bool.and_eq_true, beq_iff_eq] at starter
  obtain ⟨keyword, member⟩ := starter
  refine ⟨keyword, ?_⟩
  have plain := Token.text_of_simple simple keyword
  simp only [compoundWords, mem_cons, not_mem_nil, or_false, forall_eq_or_imp, forall_eq] at plain
  simpa [Token.statementStarters, plain] using member

section

variable (reads : Readable like expr)

include reads

theorem keywordStatement_taken {word : String} (keyword : twins.left.current.kind = .keyword)
    (starts : word ∈ ["return", "import", "pass", "break", "continue"]) :
    ∃ count, stopOf (keywordStatement expr word twins.left) = (twins.skip (1 + count)).left := by
  have written : twins.left.current.kind.isLayout = false := by rw [keyword]; rfl
  have taken : advance twins.left = .ok twins.left.current (twins.skip 1).left :=
    congrArg (EStateM.Result.ok _) (advance_eq written).1
  have onward : ∀ {parser : Parser (Stmt.Shape Stmt)}, like.Keeps like.shape parser →
      ∃ count, stopOf ((advance >>= fun _ => parser) twins.left) = (twins.skip (1 + count)).left := by
    intro parser rest
    rw [Parser.bind_ok taken]
    rcases rest (twins.skip 1) with ⟨count, left, _, _⟩ | ⟨count, left, _, _, _⟩
    all_goals
      rw [skip_skip] at left
      exact ⟨count, by rw [left]; rfl⟩
  simp only [mem_cons, not_mem_nil, or_false] at starts
  rcases starts with rfl | rfl | rfl | rfl | rfl
  · exact onward (returned_reads reads)
  · exact onward imported_reads
  · exact onward (.pure .pass)
  · exact onward (.pure .breakLoop)
  · exact onward (.pure .continueLoop)

theorem lineStatement_taken (starter : twins.left.current.isStatementStarter = true)
    (simple : twins.left.current.startsCompound = false) :
    ∃ count, stopOf (lineStatement expr twins.left) = (twins.skip (1 + count)).left := by
  obtain ⟨keyword, starts⟩ := starter_cases starter simple
  obtain ⟨count, taken⟩ := keywordStatement_taken reads keyword starts
  have located : simpleStatement expr twins.left =
      (keywordStatement expr twins.left.current.text >>= fun shape =>
        pure ⟨twins.left.current.line, shape⟩) twins.left := by
    change (if twins.left.current.kind = .keyword then _ else _ : Parser Stmt) twins.left = _
    rw [if_pos keyword]
  cases run : keywordStatement expr twins.left.current.text twins.left with
  | error error stop =>
    rw [run] at taken
    refine ⟨count, ?_⟩
    have fails := located.trans (Parser.bind_error run)
    rw [lineStatement, Parser.bind_error fails]
    exact taken
  | ok shape stop =>
    rw [run] at taken
    have read := located.trans (Parser.bind_ok run)
    have ends : stop = (twins.skip (1 + count)).left := taken
    rw [lineStatement, Parser.bind_ok read, ends]
    cases separated : (twins.skip (1 + count)).left.current.isDelimiter ";" with
    | false =>
      have stays : acceptDelimiter ";" (twins.skip (1 + count)).left = .ok false _ := accept_of_false separated
      rw [Parser.bind_ok stays]
      exact ⟨count, rfl⟩
    | true =>
      have written : (twins.skip (1 + count)).left.current.kind.isLayout = false := by
        simp only [Token.isDelimiter, Bool.and_eq_true, beq_iff_eq] at separated
        rw [separated.1]
        rfl
      have goes : acceptDelimiter ";" (twins.skip (1 + count)).left = .ok true _ := accept_of_true separated
      rw [Parser.bind_ok goes, (advance_eq written).1, skip_skip]
      exact ⟨count + 1, rfl⟩

theorem lineStatement_stuck (stuck : stopOf (lineStatement expr twins.left) = twins.left)
    (starter : twins.left.current.isStatementStarter = true) : twins.left.current.startsCompound = true := by
  by_contra simple
  obtain ⟨count, taken⟩ := lineStatement_taken reads starter (by simpa using simple)
  have keyword := (starter_cases starter (by simpa using simple)).1
  have written : twins.left.current.kind.isLayout = false := by rw [keyword]; rfl
  obtain ⟨token, other, run, run', left_eq, _⟩ := exists_of_written written
  have sizes := congrArg Cursor.size (stuck.symm.trans taken)
  rw [Twins.left, Twins.left, Cursor.size_push, Cursor.size_push] at sizes
  have shorter : (twins.skip (1 + count)).leftRun.length = twins.leftRun.length - (1 + count) :=
    length_drop
  have same : (twins.skip (1 + count)).leftEnd = twins.leftEnd := rfl
  rw [shorter, same, left_eq, length_cons] at sizes
  omega

theorem simpleLine_reads (newline : twins.leftEnd.current.kind = .newline) :
    twins.ReadsLine (simpleLine expr twins.left) (simpleLine expr twins.right) := by
  induction size : twins.left.size using Nat.strongRecOn generalizing twins with
  | ind size ih =>
    subst size
    have stuck := @lineStatement_stuck like twins expr reads
    rcases lineStatement_reads reads twins with
      @⟨read, read', count, left, right, ⟨alike, same⟩⟩ | ⟨count, left, right, alike, _⟩
    · obtain ⟨statement, more⟩ := read
      obtain ⟨statement', _⟩ := read'
      obtain rfl : more = _ := same
      cases more with
      | true =>
        have smaller := lineStatement_shorter reads left
        obtain ⟨some, smaller'⟩ := twins.shorter smaller
        rw [simpleLine_more left smaller, simpleLine_more right smaller']
        exact .cons alike some (ih _ smaller newline rfl)
      | false =>
        rw [simpleLine_last left, simpleLine_last right]
        have ends : (twins.skip count).leftEnd.current.kind = .newline := newline
        rcases expectNewline_twins ends with ⟨left', right'⟩ | ⟨error, error', alike', left', right'⟩
        · rw [left', right']
          exact .read (by simp) (.cons alike .nil)
        · rw [left', right']
          refine .failed count (.cons alike .nil) alike' ?_
          rintro rfl
          rw [left] at stuck
          exact stuck rfl
    · rw [simpleLine_error left, simpleLine_error right]
      refine .failed count .nil alike ?_
      rintro rfl
      rw [left] at stuck
      exact stuck rfl

theorem recoveredLine_reads (block : Parser (Block Stmt)) (twins : Twins like) {more more' : List Token}
    {last last' : Token}
    (left_rest : twins.leftEnd.rest = last :: more) (right_rest : twins.rightEnd.rest = last' :: more')
    (newline : last.kind = .newline) (simple : twins.left.current.startsCompound = false)
    (plain : ∀ token ∈ twins.leftRun.tail, token.isStatementStarter = false)
    (flat : ∀ next ∈ more.head?, next.kind ≠ .indent) (flat' : ∀ next ∈ more'.head?, next.kind ≠ .indent) :
    ∃ statements statements' errors errors', List.Forall₂ like.stmt statements statements' ∧
      List.Forall₂ (SyntaxError.Alike like.line) errors errors' ∧ errors.length ≤ 1 ∧
      recoveredLine expr block twins.left = (statements, twins.leftEnd.advance.reportAll errors) ∧
      recoveredLine expr block twins.right = (statements', twins.rightEnd.advance.reportAll errors') := by
  have ends : twins.leftEnd.current.kind = .newline := by
    rw [Cursor.current, left_rest]
    exact newline
  have newline' : last'.kind = .newline := by
    have same := twins.ends.kind
    rw [ends, Cursor.current, right_rest] at same
    exact same.symm
  have simple' : twins.right.current.startsCompound = false := by
    rw [twins.current_alike.test (·.startsCompound) fun _ _ => rfl]
    exact simple
  have reads := simpleLine_reads reads ends
  unfold recoveredLine statementLine
  rw [compound?_none simple, compound?_none simple']
  dsimp only
  generalize simpleLine expr twins.left = outcome at reads
  generalize simpleLine expr twins.right = outcome' at reads
  cases reads with
  | read _ alike =>
    refine ⟨_, _, [], [], alike, .nil, Nat.zero_le _, ?_, ?_⟩
    · rw [Cursor.reportAll_nil]
    · rw [Cursor.reportAll_nil]
  | @failed statements statements' error error' count alike same taken =>
    have dropped : ∀ token ∈ (twins.skip count).leftRun, token.isStatementStarter = false := by
      intro token member
      cases count with
      | succ more =>
        apply plain
        rw [← drop_one]
        exact mem_of_mem_drop (i := more) (by rw [drop_drop, Nat.add_comm]; exact member)
      | zero =>
        have member : token ∈ twins.leftRun := member
        rw [Twins.left] at taken simple
        cases run : twins.leftRun with
        | nil =>
          rw [run] at member
          cases member
        | cons first rest =>
          rw [run] at member plain taken simple
          rcases mem_cons.mp member with rfl | member
          · by_contra starter
            have compound := taken rfl (Bool.not_eq_false _ |>.mp starter)
            rw [simple] at compound
            cases compound
          · exact plain token member
    have written' := Token.forall_of_alike (twins.skip count).alike (·.kind.isLayout) (fun _ _ => rfl)
      (twins.skip count).written
    have dropped' := Token.forall_of_alike (twins.skip count).alike (·.isStatementStarter) (fun _ _ => rfl)
      dropped
    refine ⟨statements, statements', [error], [error'], alike, .cons same .nil, Nat.le_refl _, ?_, ?_⟩
    · exact congrArg (Prod.mk statements)
        (resumed_line left_rest newline (twins.skip count).written dropped flat error twins.leftRun)
    · exact congrArg (Prod.mk statements')
        (resumed_line right_rest newline' written' dropped' flat' error' twins.rightRun)

end

theorem recoveredLine_line (reads : Readable Likeness.same expr) {first last : Token} {others : List Token}
    (written : ∀ token ∈ first :: others, token.kind.isLayout = false) (newline : last.kind = .newline)
    (simple : first.startsCompound = false) (plain : ∀ token ∈ others, token.isStatementStarter = false) :
    ∃ statements errors, errors.length ≤ 1 ∧ ∀ (ending : Cursor) (more : List Token),
      ending.rest = last :: more → (∀ next ∈ more.head?, next.kind ≠ .indent) →
      recoveredLine expr block (ending.push (first :: others)) =
        (statements, ending.advance.reportAll errors) := by
  -- the line that stands alone tells what is read of it
  let alone : Cursor := { rest := [last], final := 0, errors := [] }
  have all : ∀ (ending : Cursor) (more : List Token), ending.rest = last :: more →
      (∀ next ∈ more.head?, next.kind ≠ .indent) → ∃ statements errors, errors.length ≤ 1 ∧
        recoveredLine expr block (alone.push (first :: others)) =
          (statements, alone.advance.reportAll errors) ∧
        recoveredLine expr block (ending.push (first :: others)) =
          (statements, ending.advance.reportAll errors) := by
    intro ending more rest flat
    have here : ending.current = last := Cursor.current_of_cons rest
    let twins : Twins Likeness.same :=
      { leftEnd := alone
        rightEnd := ending
        leftRun := first :: others
        rightRun := first :: others
        alike := forall₂_same.mpr fun _ _ => ⟨rfl, rfl, rfl⟩
        written := written
        layout := by
          change last.kind.isLayout = true
          rw [newline]
          rfl
        ends := by
          rw [here]
          exact ⟨rfl, rfl, rfl⟩ }
    obtain ⟨statements, statements', errors, errors', alike, alikes, few, left, right⟩ :=
      recoveredLine_reads reads block twins rfl rest newline simple plain (by simp) flat
    obtain rfl : statements = statements' := forall₂_eq_eq_eq ▸ alike
    have alikes : List.Forall₂ (SyntaxError.Alike Eq) errors errors' := alikes
    obtain rfl : errors = errors' :=
      forall₂_eq_eq_eq ▸ alikes.imp fun _ _ same => same.eq
    exact ⟨statements, errors, few, left, right⟩
  obtain ⟨statements, errors, few, left, _⟩ := all alone [] rfl (by simp)
  refine ⟨statements, errors, few, fun ending more rest flat => ?_⟩
  obtain ⟨statements', errors', _, left', right⟩ := all ending more rest flat
  have same := left.symm.trans left'
  obtain rfl : statements = statements' := congrArg Prod.fst same
  obtain rfl : errors = errors' := congrArg (·.2.errors) same
  exact right

theorem outermost_step {cursor : Cursor} (more : cursor.current.kind ≠ .endOfInput)
    (starts : cursor.current.kind ≠ .newline ∧ cursor.current.kind ≠ .dedent) :
    outermost expr block cursor = cursor.followed (outermost expr block) (recovered expr block cursor) := by
  cases rest : cursor.rest with
  | nil =>
    rw [Cursor.current, rest] at more
    exact absurd rfl more
  | cons token tokens =>
    rw [Cursor.current_of_cons rest] at more starts
    rw [outermost, statements_cons rest, if_neg (by simp [more]), if_neg (by simp [starts])]

theorem outermost_recovered {cursor after : Cursor} {statements : List Stmt}
    (written : cursor.current.kind.isLayout = false)
    (line : recoveredLine expr block cursor = (statements, after)) (shorter : after.size < cursor.size) :
    outermost expr block cursor =
      (statements ++ (outermost expr block after).1, (outermost expr block after).2) := by
  have plain : ∀ kind, kind.isLayout = true → cursor.current.kind ≠ kind := by
    rintro kind layout rfl
    rw [written] at layout
    cases layout
  rw [outermost_step (plain .endOfInput rfl) ⟨plain .newline rfl, plain .dedent rfl⟩, recovered,
    if_neg (plain .indent rfl), line, Cursor.followed, if_pos shorter]

end Parser

namespace Program

def read (cursor : Cursor) : List Stmt × Cursor :=
  Parser.outermost (Parser.expression nestingLimit) (Parser.nestedBlock nestingLimit) cursor

theorem ofSource_read (file text : String) :
    ofSource file text = (⟨file, (read (Cursor.ofTokens (Token.ofText text 1))).1⟩,
      (read (Cursor.ofTokens (Token.ofText text 1))).2.errors) := rfl

theorem read_ended {cursor : Cursor} (ended : cursor.current.kind = .endOfInput) :
    read cursor = ([], cursor) :=
  Parser.statements_ended ended

theorem read_lowered (file text : String) (breaks : Nat) {cursor : Cursor}
    (rest : cursor.rest = Token.ofText text (Token.lineAfter 1 breaks)) :
    List.Forall₂ (Stmt.Alike (Token.Lowered breaks)) (ofSource file text).1.statements (read cursor).1 ∧
      ∃ later, (read cursor).2.errors = cursor.errors ++ later ∧
        List.Forall₂ (SyntaxError.Alike (Token.Lowered breaks)) (ofSource file text).2 later := by
  have tokens : List.Forall₂ (Token.Alike (Token.Lowered breaks))
      (Cursor.ofTokens (Token.ofText text 1)).rest cursor.rest := by
    rw [rest]
    exact Scanner.ofText_alike Token.Lowered.later text rfl
  exact Parser.outermost_lines_after Token.Lowered.later nestingLimit tokens
    (Token.ofText_layout text 1).laid (Scanner.exists_endOfInput _) rfl

section

variable {line : String} (ends : Token.EndsLine line.toList) (single : line.toList.count '\n' = 1)
  (margin : Token.startsFlush line.toList = true)

include ends single margin

theorem visible_of_malformed (file : String) (malformed : (ofSource file line).2 ≠ []) :
    Scanner.isBlankLine (line.toList.dropWhile Token.isIndentChar) = false := by
  by_contra blank
  have tokens := Token.ofText_blank ends single margin (Bool.not_eq_false _ |>.mp blank) 1
  apply malformed
  rw [ofSource_read, tokens, read_ended rfl]
  rfl

theorem exists_line_read (outside : (Scanner.start line.toList 1).endsOutside = true)
    (visible : Scanner.isBlankLine (line.toList.dropWhile Token.isIndentChar) = false)
    (simple : ∀ token ∈ (Token.ofText line 1).head?, token.startsCompound = false)
    (plain : ∀ token ∈ (Token.ofText line 1).tail, token.isStatementStarter = false) :
    ∃ statements errors, errors.length ≤ 1 ∧ ∀ back : String, Token.startsFlush back.toList = true →
      ∃ ending : Cursor, ending.rest = Token.ofText back 2 ∧ ending.errors = errors ∧
        read (Cursor.ofTokens (Token.ofText (line ++ back) 1)) =
          (statements ++ (read ending).1, (read ending).2) := by
  obtain ⟨first, others, last, written, newline, tokens⟩ :=
    Token.ofText_line ends single margin outside visible
  have alone : Token.ofText line 1 = first :: others ++ last :: Token.ofText "" 2 := by
    rw [← tokens, String.append_empty]
  rw [alone] at simple plain
  obtain ⟨statements, errors, few, reading⟩ := Parser.recoveredLine_line
    (Parser.expression_readable Likeness.same nestingLimit) written newline (simple first rfl)
    fun token member => plain token (mem_append_left _ member)
  refine ⟨statements, errors, few, fun back flush => ?_⟩
  obtain ⟨ending, rest, fresh, whole⟩ := Cursor.exists_push (tokens back)
  refine ⟨ending.advance.reportAll errors, ?_, ?_, ?_⟩
  · change ending.rest.drop 1 = _
    rw [rest]
    rfl
  · change ending.errors ++ errors = errors
    rw [fresh, nil_append]
  · rw [← whole]
    refine Parser.outermost_recovered ?_ (reading ending _ rest (Token.ofText_flush flush 2)) ?_
    · exact written first mem_cons_self
    · have shorter : (ending.advance.reportAll errors).size = (ending.rest.drop 1).length :=
        Cursor.size_eq _
      rw [shorter, Cursor.size_push, rest, length_drop, length_cons, length_cons]
      omega

end

/-- A line that cannot be read costs one error and nothing after it. The line stands at the margin, ends
    outside strings and brackets, starts no compound statement, and has no keyword after its first word
    at which recovery would stop. Whatever text follows at the margin is read as if it stood alone, one
    line further down. -/
theorem ofSource_malformed_line (file line : String) (ends : Token.EndsLine line.toList)
    (single : line.toList.count '\n' = 1) (margin : Token.startsFlush line.toList = true)
    (outside : (Scanner.start line.toList 1).endsOutside = true)
    (simple : ∀ token ∈ (Token.ofText line 1).head?, token.startsCompound = false)
    (plain : ∀ token ∈ (Token.ofText line 1).tail, token.isStatementStarter = false)
    (malformed : (ofSource file line).2 ≠ []) :
    ∃ error, (ofSource file line).2 = [error] ∧
      ∀ back : String, Token.startsFlush back.toList = true →
        ∃ lowered later,
          (ofSource file (line ++ back)).1 = ⟨file, (ofSource file line).1.statements ++ lowered⟩ ∧
          (ofSource file (line ++ back)).2 = error :: later ∧
          List.Forall₂ (Stmt.Alike (Token.Lowered 1)) (ofSource file back).1.statements lowered ∧
          List.Forall₂ (SyntaxError.Alike (Token.Lowered 1)) (ofSource file back).2 later ∧
          later.map SyntaxError.message = (ofSource file back).2.map SyntaxError.message := by
  have visible := visible_of_malformed ends single margin file malformed
  obtain ⟨statements, errors, few, reading⟩ :=
    exists_line_read ends single margin outside visible simple plain
  -- alone, the line is followed by nothing
  have alone : ofSource file line = (⟨file, statements⟩, errors) := by
    obtain ⟨ending, rest, reported, whole⟩ := reading "" (by simp [Token.startsFlush])
    have ended : ending.current.kind = .endOfInput := by
      rw [Cursor.current, rest, Token.ofText_empty]
      rfl
    rw [String.append_empty, read_ended ended, append_nil] at whole
    rw [ofSource_read, whole, ← reported]
  obtain ⟨error, rfl⟩ : ∃ error, errors = [error] := by
    rw [alone] at malformed
    exact length_eq_one_iff.mp (Nat.le_antisymm few (length_pos_iff.mpr malformed))
  refine ⟨error, congrArg Prod.snd alone, fun back flush => ?_⟩
  obtain ⟨ending, rest, reported, whole⟩ := reading back flush
  obtain ⟨lowered, later, errors, alikes⟩ := read_lowered file back 1 rest
  refine ⟨(read ending).1, later, ?_, ?_, lowered, alikes, SyntaxError.messages_alike alikes⟩
  · rw [ofSource_read, whole, alone]
  · rw [ofSource_read, whole, errors, reported]
    rfl

def brokenLine : String := "x = 1; y = ) $ 'open\n"

def orphanClause : String := "# note\nelse:\n  z = 2\n"

theorem ofSource_malformed_line_brokenLine :
    (ofSource "lib" brokenLine).2 ≠ [] ∧ Token.startsFlush orphanClause.toList = true ∧
    ∃ error, (ofSource "lib" brokenLine).2 = [error] ∧
      ∃ lowered later, (ofSource "lib" (brokenLine ++ orphanClause)).1 =
          ⟨"lib", (ofSource "lib" brokenLine).1.statements ++ lowered⟩ ∧
        (ofSource "lib" (brokenLine ++ orphanClause)).2 = error :: later ∧
        List.Forall₂ (Stmt.Alike (Token.Lowered 1)) (ofSource "lib" orphanClause).1.statements lowered ∧
        List.Forall₂ (SyntaxError.Alike (Token.Lowered 1)) (ofSource "lib" orphanClause).2 later ∧
        later.map SyntaxError.message = (ofSource "lib" orphanClause).2.map SyntaxError.message := by
  have malformed : (ofSource "lib" brokenLine).2 ≠ [] := by
    have some : (ofSource "lib" brokenLine).2.length = 1 := by decide +kernel
    intro none
    rw [none] at some
    cases some
  have first : (Token.ofText brokenLine 1).head? = some ⟨.identifier, "x", 1⟩ := by decide +kernel
  have others : (Token.ofText brokenLine 1).tail.all (!·.isStatementStarter) = true := by decide +kernel
  have margin : Token.startsFlush brokenLine.toList = true := by decide +kernel
  have outside : (Scanner.start brokenLine.toList 1).endsOutside = true := by decide +kernel
  have flush : Token.startsFlush orphanClause.toList = true := by decide +kernel
  obtain ⟨error, alone, reading⟩ := ofSource_malformed_line "lib" brokenLine (by decide) (by decide) margin
    outside (by rw [first]; rintro _ ⟨⟩; decide)
    (fun token member => by simpa using all_eq_true.mp others token member) malformed
  exact ⟨malformed, flush, error, alone, reading orphanClause flush⟩

end Program
end SourceAudit
