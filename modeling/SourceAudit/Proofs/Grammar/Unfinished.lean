import Mathlib.Data.List.Forall2
import SourceAudit.Proofs.Grammar.LineRecovery

open List

namespace SourceAudit

open Layout Mirror

def Expected.continuedBy (what : Expected) (token : Token) : Bool :=
  match what with
  | .handlerOrFinally => ["except", "else", "finally"].any token.isKeyword
  | .decorated => token.isOperator "@" || ["def", "class", "async"].any token.isKeyword
  | _ => false

/-- A text that is a statement without its end, and what has to come there: a `try` with its block, or a
    decorator on its line. -/
inductive Unfinished : Expected → String → Prop where
  | tryBlock {text : String} {first : Token} {body : Block Stmt} {last : Cursor}
      (starts : (Token.ofText text 1).head? = some first) (keyword : first.isKeyword "try" = true)
      (read : Parser.suite (Parser.nestedBlock nestingLimit)
        (Cursor.ofTokens (Token.ofText text 1)).advance = .ok body last)
      (clean : last.errors = []) (ended : last.current.kind = .endOfInput) :
      Unfinished .handlerOrFinally text
  | decorator {text : String} {value : Expr} {last : Cursor}
      (read : Parser.decorator (Parser.expression nestingLimit)
        (Cursor.ofTokens (Token.ofText text 1)) = .ok (some value) last)
      (clean : last.errors = []) (ended : last.current.kind = .endOfInput) : Unfinished .decorated text

namespace Mirror.Tracks

variable {α β : Type} {mirror : Mirror Likeness.same} {least : Nat} {post : α → Cursor → Prop} {V : α → β → Prop} {parser : Parser α}
  {other : Parser β} {value : α} {last : Cursor}

theorem exists_of_clean (tracks : mirror.Tracks least post V parser other)
    (fresh : mirror.leftEnd.errors = []) (run : parser mirror.left = .ok value last)
    (clean : last.errors = []) :
    ∃ count value' onward, mirror.Moves 0 0 count [] [] onward ∧ last = onward.left ∧
      other mirror.right = .ok value' onward.right ∧ V value value' ∧ least ≤ count := by
  cases tracks with
  | error _ left =>
    rw [run] at left
    cases left
  | lostError gone left =>
    rw [run] at left
    cases left
  | lostOk gone left alike dirty =>
    rw [run] at left
    cases left
    have errors := gone.errors
    rw [clean, fresh] at errors
    exact absurd errors.symm dirty
  | @ok _ value' onward count new new' moves left right alike taken =>
    rw [run] at left
    cases left
    have none : new = [] := by
      rw [moves.left_errors] at clean
      exact (append_eq_nil_iff.mp clean).2
    subst none
    cases moves.errors
    exact ⟨count, value', onward, moves, rfl, right, alike, taken⟩

end Mirror.Tracks

namespace Parser

variable {expr : Precedence → Parser Expr} {block : Parser (Block Stmt)} {cursor ending : Cursor}

def unmet (what : Expected) (cursor : Cursor) : SyntaxError :=
  .atToken cursor.current (.expected what cursor.current)

theorem whenever_atKeyword_none {α : Type} {parser : Parser α} {word : String}
    (plain : cursor.current.isKeyword word = false) :
    whenever (atKeyword word) parser cursor = .ok none cursor := by
  have stays : atKeyword word cursor = .ok (cursor.current.isKeyword word) cursor := rfl
  rw [plain] at stays
  exact Parser.bind_ok stays

theorem whenever_acceptKeyword_none {α : Type} {parser : Parser α} {word : String}
    (plain : cursor.current.isKeyword word = false) :
    whenever (acceptKeyword word) parser cursor = .ok none cursor := by
  have stays : acceptKeyword word cursor = .ok false cursor := accept_of_false plain
  exact Parser.bind_ok stays

theorem tryShape_unfinished {body : Block Stmt} (read : suite block cursor.advance = .ok body ending)
    (plain : Expected.handlerOrFinally.continuedBy ending.current = false) :
    tryShape expr block cursor = .error (unmet .handlerOrFinally ending) ending := by
  have plain : ∀ word ∈ ["except", "else", "finally"], ending.current.isKeyword word = false := by
    intro word member
    exact Bool.eq_false_iff.mpr (any_eq_false.mp plain word member)
  have taken : advance cursor = .ok cursor.current cursor.advance := rfl
  have handlers : many (whenever (atKeyword "except") (handler expr block)) ending = .ok [] ending :=
    Parser.many_none (whenever_atKeyword_none (plain _ (by simp)))
  have orelse : elseSuite block ending = .ok none ending := whenever_acceptKeyword_none (plain _ (by simp))
  have last : whenever (acceptKeyword "finally") (suite block) ending = .ok none ending :=
    whenever_acceptKeyword_none (plain _ (by simp))
  rw [tryShape, Parser.bind_ok taken, Parser.bind_ok read, Parser.bind_ok handlers, Parser.bind_ok orelse,
    Parser.bind_ok last]
  rfl

theorem decoratedShape_unfinished {value : Expr} (read : decorator expr cursor = .ok (some value) ending)
    (shorter : ending.size < cursor.size)
    (plain : Expected.decorated.continuedBy ending.current = false) :
    decoratedShape expr block cursor = .error (unmet .decorated ending) ending := by
  simp only [Expected.continuedBy, Bool.or_eq_false_iff, any_eq_false] at plain
  have words : ∀ word ∈ ["def", "class", "async"], atKeyword word ending = .ok false ending := by
    intro word member
    have stays : atKeyword word ending = .ok (ending.current.isKeyword word) ending := rfl
    rwa [Bool.eq_false_iff.mpr (plain.2 word member)] at stays
  have none : many (decorator expr) ending = .ok [] ending := Parser.many_none (decorator_none plain.1)
  rw [decoratedShape, Parser.many_bind_some read shorter, Parser.bind_ok none,
    Parser.bind_ok (words "def" (by simp)), if_neg (by simp), Parser.bind_ok (words "class" (by simp)),
    if_neg (by simp), Parser.bind_ok (words "async" (by simp)), if_neg (by simp)]
  rfl

theorem synchronize_size_le (cursor : Cursor) : cursor.synchronize.size ≤ cursor.size := by
  rw [Cursor.size_eq, Cursor.size_eq]
  exact (Cursor.nextStatement_suffix cursor.rest).length_le

theorem recoveredLine_compound {parser : Parser Stmt} {error : SyntaxError}
    (compound : compound? expr block cursor.current = some parser)
    (fails : parser cursor = .error error ending) (shorter : ending.size < cursor.size) :
    recoveredLine expr block cursor = ([], (ending.report error).synchronize) := by
  have short : (ending.report error).synchronize.size ≤ ending.size := synchronize_size_le _
  have line : statementLine expr block cursor = (⟨[], some error⟩, ending) := by
    rw [statementLine, compound]
    dsimp only
    rw [fails]
  rw [recoveredLine, line]
  dsimp only
  rw [if_neg (by omega)]

theorem compound?_written {token : Token} {parser : Parser Stmt}
    (compound : compound? expr block token = some parser) : token.kind.isLayout = false := by
  by_cases operator : token.isOperator "@" = true
  · simp only [Token.isOperator, Bool.and_eq_true, beq_iff_eq] at operator
    rw [operator.1]
    rfl
  · by_cases keyword : token.kind = .keyword
    · rw [keyword]
      rfl
    · simp [compound?, operator, keyword] at compound

theorem compound?_try {token : Token} (keyword : token.isKeyword "try" = true) :
    compound? expr block token = some ((⟨token.line, ·⟩) <$> tryShape expr block) := by
  simp only [Token.isKeyword, Bool.and_eq_true, beq_iff_eq] at keyword
  have plain : token.isOperator "@" = false := by simp [Token.isOperator, keyword.1]
  simp [compound?, plain, keyword]

theorem compound?_decorator {token : Token} (starts : token.isOperator "@" = true) :
    compound? expr block token = some ((⟨token.line, ·⟩) <$> decoratedShape expr block) := by
  simp [compound?, starts]

theorem map_error {α β : Type} {f : α → β} {parser : Parser α} {error : SyntaxError}
    (fails : parser cursor = .error error ending) : (f <$> parser) cursor = .error error ending := by
  rw [map_eq_pure_bind]
  exact Parser.bind_error fails

end Parser

/-- What two readings of an unfinished statement do: the left one comes to the end of its text, and the
    right one fails there if nothing goes on with the statement. -/
structure Mirror.Stops (mirror : Mirror Likeness.same) (what : Expected) (count : Nat)
    (onward : Mirror Likeness.same) : Prop where
  moves : mirror.Moves 0 0 count [] [] onward
  taken : 0 < count
  ended : onward.left.current.kind = .endOfInput
  fails : what.continuedBy onward.right.current = false →
    ∃ parser, Parser.compound? (Parser.expression nestingLimit) (Parser.nestedBlock nestingLimit)
        mirror.right.current = some parser ∧
      parser mirror.right = .error (Parser.unmet what onward.right) onward.right

namespace Unfinished

variable {text : String} {what : Expected} {mirror : Mirror Likeness.same}

theorem stops (unfinished : Unfinished what text)
    (left : mirror.left = Cursor.ofTokens (Token.ofText text 1)) (fresh : mirror.leftEnd.errors = []) :
    ∃ count onward, mirror.Stops what count onward := by
  have reads := Parser.expression_readable Likeness.same nestingLimit
  have blocks := Parser.nestedBlock_mirrored Likeness.same nestingLimit
  cases unfinished with
  | @tryBlock _ first body last starts keyword read clean ended =>
    have here : mirror.left.current = first := by
      rw [left, Cursor.current]
      change (Token.ofText text 1).head?.getD _ = first
      rw [starts]
      rfl
    have kind : mirror.left.current.kind = .keyword := by
      rw [here]
      exact Token.kind_of_isKeyword keyword
    have written : mirror.left.current.kind.isLayout = false := by rw [kind]; rfl
    have ahead := mirror.ne_nil_of_inside (.inl written)
    obtain ⟨onward, first, left_eq, right_eq⟩ := mirror.exists_advance (by rw [kind]; decide)
      (.single 0 (by rw [kind]; decide) (by rw [kind]; decide))
    have inside : onward.left.Inside := by
      rw [left_eq]
      exact mirror.inside_advance written
    rw [← left, ← left_eq] at read
    have still : onward.leftEnd.errors = [] := by
      have errors : onward.leftEnd.errors = mirror.leftEnd.errors ++ [] := first.left_errors
      rw [errors, fresh, append_nil]
    obtain ⟨count, body', last, moves, rfl, right, -⟩ :=
      (Parser.suite_tracks blocks inside).exists_of_clean still read clean
    refine ⟨1 + count, last, first.trans moves, by omega, ended, ?_⟩
    intro plain
    rw [right_eq] at right
    refine ⟨_, Parser.compound?_try ?_, Parser.map_error (Parser.tryShape_unfinished right plain)⟩
    rw [(mirror.current_alike ahead).test (·.isKeyword "try") fun _ _ => rfl, here]
    exact keyword
  | @decorator _ value last read clean ended =>
    rw [← left] at read
    have starts : mirror.left.current.isOperator "@" = true := by
      by_contra plain
      rw [Parser.decorator_none (by simpa using plain)] at read
      cases read
    have ahead : mirror.leftRun ≠ [] := by
      intro none
      simp [Token.isOperator, mirror.current_of_nil none] at starts
    have tracks := Parser.decorator_tracks reads starts
    obtain ⟨count, _, onward, moves, rfl, right, alike, taken⟩ := tracks.exists_of_clean fresh read clean
    cases alike
    obtain ⟨_, right_size⟩ := moves.size
    refine ⟨count, onward, moves, taken, ended, ?_⟩
    intro plain
    refine ⟨_, Parser.compound?_decorator ?_, Parser.map_error
      (Parser.decoratedShape_unfinished right (by omega) plain)⟩
    rw [(mirror.current_alike ahead).test (·.isOperator "@") fun _ _ => rfl]
    exact starts

theorem owed (unfinished : Unfinished what text) :
    (Token.owedThrough [] (Token.ofText text 1)).isSome = true := by
  have laid : Laid (Cursor.ofTokens (Token.ofText text 1)).rest := (Token.ofText_layout text 1).laid
  have closed : ∃ last tally, (Cursor.ofTokens (Token.ofText text 1)).Passes .block last [] [] .nothing tally ∧
      last.errors = [] ∧ last.current.kind = .endOfInput := by
    cases unfinished with
    | @tryBlock _ first body last starts keyword read clean ended =>
      have here : (Cursor.ofTokens (Token.ofText text 1)).current = first := by
        change (Token.ofText text 1).head?.getD _ = first
        rw [starts]
        rfl
      have turns : (Cursor.ofTokens (Token.ofText text 1)).current.Turns [] [] :=
        .keyword (.inl rfl) (here ▸ keyword)
      have passes := ((Parser.suite_serves (Parser.nestedBlock_fills nestingLimit)).ok read).1
      exact ⟨last, _, (Cursor.Passes.turns turns .nothing).trans passes, clean, ended⟩
    | @decorator _ value last read clean ended =>
      have passes := ((Parser.decorator_serves (Parser.expression_reads nestingLimit)).lifted.ok read).1
      exact ⟨last, _, passes, clean, ended⟩
  obtain ⟨last, tally, passes, clean, ended⟩ := closed
  have all : Token.owedThrough [] (Token.ofText text 1) = some [] :=
    Parser.owed_of_passes laid passes clean ended
  rw [all]
  rfl

theorem read_append {front back : String} (unfinished : Unfinished what front)
    (ends : Token.EndsLine front.toList) (plain : (Scanner.start front.toList 1).joinsNext = false)
    (flush : Token.startsFlush back.toList = true)
    (starts : ∀ token ∈ (Token.ofText back 1).head?, ∀ word ∈ clauseWords, token.isKeyword word = false)
    (apart : ∀ token ∈ (Token.ofText back 1).head?, what.continuedBy token = false) :
    ∃ ending : Cursor, ending.rest = Token.ofText back (Token.lineAfter 1 (front.toList.count '\n')) ∧
      ending.errors = [] ∧
      Program.read (Cursor.ofTokens (Token.ofText (front ++ back) 1)) =
        Program.read ((ending.report (Parser.unmet what ending)).synchronize) := by
  have laid := (Token.ofText_layout front 1).laid
  obtain ⟨read, count, place, place', inner, front_eq, whole_eq⟩ :=
    Token.ofText_append (.inr ends) plain unfinished.owed flush
  obtain ⟨leftEnd, left_rest, left_errors, left_eq⟩ := Cursor.exists_push front_eq
  obtain ⟨rightEnd, right_rest, right_errors, right_eq⟩ := Cursor.exists_push whole_eq
  have together : Laid (read ++ List.replicate count ⟨.dedent, "", place⟩ ++ leftEnd.rest) := by
    rw [left_rest, ← front_eq]
    exact laid
  have ended : leftEnd.current.kind = .endOfInput := by
    rw [Cursor.current, left_rest, Token.ofText_empty]
    rfl
  let mirror := atSeam read count place place' leftEnd rightEnd together ended
    (Cursor.apart_of_flush right_rest flush starts)
  have left : mirror.left = Cursor.ofTokens (Token.ofText front 1) := left_eq
  obtain ⟨taken, onward, stops⟩ := unfinished.stops left left_errors
  have inner : ∀ token ∈ mirror.leftRun, token.kind ≠ .endOfInput := by
    intro token member
    rcases mem_append.mp member with member | member
    · exact inner token member
    · rw [eq_of_mem_replicate member]
      simp
  have reached : onward.right = rightEnd := mirror.right_of_ended inner stops.moves stops.ended
  have goes : what.continuedBy rightEnd.current = false :=
    Cursor.current_ofText right_rest what.continuedBy (fun _ _ => by cases what <;> rfl) apart
  obtain ⟨parser, compound, fails⟩ := stops.fails (by rw [reached]; exact goes)
  obtain ⟨_, right_size⟩ := stops.moves.size
  have some := stops.taken
  rw [reached] at fails right_size
  have line := Parser.recoveredLine_compound compound fails (by omega)
  have short : ((rightEnd.report (Parser.unmet what rightEnd)).synchronize).size ≤ rightEnd.size :=
    Parser.synchronize_size_le _
  refine ⟨rightEnd, right_rest, right_errors, ?_⟩
  rw [← right_eq]
  exact Parser.outermost_recovered (Parser.compound?_written compound) line (by omega)

end Unfinished

namespace Parser

variable {expr : Precedence → Parser Expr} {block : Parser (Block Stmt)} {cursor : Cursor}

theorem recoveredLine_failed {line : Line} {after : Cursor} {error : SyntaxError}
    (run : statementLine expr block cursor = (line, after)) (failure : line.failure = some error)
    (part : after.rest <:+ cursor.rest) :
    ∃ stop, recoveredLine expr block cursor = (line.statements, stop) ∧ stop.rest <:+ cursor.rest ∧
      stop.errors ≠ [] := by
  have resumed : (after.report error).synchronize.rest <:+ cursor.rest :=
    (Cursor.nextStatement_suffix after.rest).trans part
  rw [recoveredLine, run]
  dsimp only
  rw [failure]
  refine ⟨_, rfl, ?_, ?_⟩
  · split
    · exact (drop_suffix 1 _).trans resumed
    · exact resumed
  · split <;> simp [Cursor.advance, Cursor.drop, Cursor.synchronize, Cursor.report]

section

variable (reads : Readable Likeness.same expr) (blocks : Mirrored Likeness.same block)

include reads blocks

theorem outermost_dirty {after : Cursor} {statements : List Stmt} (more : cursor.current.kind ≠ .endOfInput)
    (starts : cursor.current.kind ≠ .newline ∧ cursor.current.kind ≠ .dedent)
    (line : recovered expr block cursor = (statements, after)) (onward : Laid after.rest)
    (dirty : after.errors ≠ []) : (outermost expr block cursor).2.errors ≠ [] := by
  rw [outermost_step more starts, line, Cursor.followed]
  split
  · obtain ⟨_, new, errors⟩ := outermost_ends reads blocks onward
    dsimp only
    rw [errors]
    exact fun none => dirty (append_eq_nil_iff.mp none).1
  · exact dirty

theorem outermost_failed {line : Line} {after : Cursor} {error : SyntaxError} (laid : Laid cursor.rest)
    (written : cursor.current.kind.isLayout = false)
    (run : statementLine expr block cursor = (line, after)) (failure : line.failure = some error)
    (part : after.rest <:+ cursor.rest) : (outermost expr block cursor).2.errors ≠ [] := by
  have plain : ∀ kind, kind.isLayout = true → cursor.current.kind ≠ kind := by
    rintro kind layout rfl
    rw [written] at layout
    cases layout
  obtain ⟨stop, line, ⟨passed, parts⟩, dirty⟩ := recoveredLine_failed run failure part
  have here : recovered expr block cursor = _ := (if_neg (plain .indent rfl)).trans line
  rw [← parts] at laid
  exact outermost_dirty reads blocks (plain .endOfInput rfl) ⟨plain .newline rfl, plain .dedent rfl⟩ here
    laid.suffix dirty

theorem outermost_clause {word : String} (laid : Laid cursor.rest) (clause : word ∈ clauseWords)
    (keyword : cursor.current.isKeyword word = true) : (outermost expr block cursor).2.errors ≠ [] := by
  simp only [Token.isKeyword, Bool.and_eq_true, beq_iff_eq] at keyword
  obtain ⟨kind, text⟩ := keyword
  have simple : cursor.current.startsCompound = false := by
    simp only [clauseWords, mem_cons, not_mem_nil, or_false] at clause
    rcases clause with rfl | rfl | rfl | rfl <;>
      simp [Token.startsCompound, compoundWords, Token.isKeyword, Token.isOperator, kind, text]
  have orphan : keywordStatement expr word = fail (.orphanClause word) := by
    simp only [clauseWords, mem_cons, not_mem_nil, or_false] at clause
    rcases clause with rfl | rfl | rfl | rfl <;> rfl
  have statement : simpleStatement expr cursor = .error (.atToken cursor.current (.orphanClause word)) cursor := by
    change (if cursor.current.kind = .keyword then _ else _ : Parser Stmt) cursor = _
    rw [if_pos kind, text, orphan]
    rfl
  have line : statementLine expr block cursor =
      (⟨[], some (.atToken cursor.current (.orphanClause word))⟩, cursor) := by
    rw [statementLine, compound?_none simple]
    exact simpleLine_error (Parser.bind_error statement)
  exact outermost_failed reads blocks laid (by rw [kind]; rfl) line rfl suffix_rfl

theorem outermost_indent (laid : Laid cursor.rest) (indent : cursor.current.kind = .indent) :
    (outermost expr block cursor).2.errors ≠ [] := by
  cases rest : cursor.rest with
  | nil =>
    rw [Cursor.current, rest] at indent
    cases indent
  | cons token tokens =>
    have first : token.kind = .indent := Cursor.current_of_cons rest ▸ indent
    rw [rest] at laid
    have owes := laid.closes _ suffix_rfl
    rw [Token.indents_cons, Token.dedents_cons, if_pos first, if_neg (by simp [first])] at owes
    have tail : (cursor.advance.report (.atToken cursor.current .unexpectedIndent)).rest = tokens := by
      change cursor.rest.drop 1 = tokens
      rw [rest]
      rfl
    have dirty : (cursor.advance.report (.atToken cursor.current .unexpectedIndent)).errors ≠ [] := by
      simp [Cursor.report]
    have here : recovered expr block cursor = overIndented expr block 1
        (cursor.advance.report (.atToken cursor.current .unexpectedIndent)) := if_pos indent
    generalize cursor.advance.report (.atToken cursor.current .unexpectedIndent) = opened at tail dirty here
    have onward : Laid opened.rest := by
      rw [tail]
      exact laid.rest
    have same := left_ofCursor opened onward
    have collects : (ofCursor opened onward).Collects 0 1 (fun _ => True) _ _ :=
      overIndented_collects reads blocks 1 (by rw [same, tail]; omega)
    rw [same] at collects
    have fate : Laid (overIndented expr block 1 opened).2.rest ∧
        (overIndented expr block 1 opened).2.errors ≠ [] := by
      generalize overIndented expr block 1 opened = outcome at collects
      generalize overIndented expr block 1 (ofCursor opened onward).right = outcome' at collects
      cases collects with
      | @read _ _ last _ _ _ moves =>
        refine ⟨last.laid, ?_⟩
        rw [moves.left_errors]
        exact fun none => dirty (append_eq_nil_iff.mp none).1
      | lost gone =>
        refine ⟨gone.laid, ?_⟩
        rw [gone.errors]
        exact fun none => dirty (append_eq_nil_iff.mp none).1
    exact outermost_dirty reads blocks (by simp [indent]) (by simp [indent]) here fate.1 fate.2

theorem outermost_first_line (laid : Laid cursor.rest)
    (clean : (outermost expr block cursor).2.errors = []) (written : cursor.current.kind.isLayout = false)
    (simple : cursor.current.startsCompound = false) :
    ∃ line last more, cursor.rest = line ++ last :: more ∧ (∀ token ∈ line, token.kind.isLayout = false) ∧
      last.kind = .newline ∧ (∀ next ∈ more.head?, next.kind ≠ .indent) ∧
      (simpleLine expr cursor).1.statements ≠ [] ∧
      outermost expr block cursor =
        ((simpleLine expr cursor).1.statements ++ (outermost expr block (cursor.drop (line.length + 1))).1,
          (outermost expr block (cursor.drop (line.length + 1))).2) := by
  have same := left_ofCursor cursor laid
  have inside : (ofCursor cursor laid).left.Inside := by
    rw [same]
    exact .inl written
  obtain ⟨line, last, more, _, _, _, split, _, _, _, words, newline⟩ := exists_line inside
  have split : cursor.rest = line ++ last :: more := split
  have ending_rest : (cursor.drop line.length).rest = last :: more := by
    change cursor.rest.drop line.length = _
    rw [split, drop_left]
  have ending_kind : (cursor.drop line.length).current.kind = .newline := by
    rw [Cursor.current, ending_rest]
    exact newline
  let twins : Twins Likeness.same :=
    { leftEnd := cursor.drop line.length
      rightEnd := cursor.drop line.length
      leftRun := line
      rightRun := line
      alike := forall₂_same.mpr fun _ _ => ⟨rfl, rfl, rfl⟩
      written := words
      layout := by
        rw [ending_kind]
        rfl
      ends := ⟨rfl, rfl, rfl⟩ }
  have left : twins.left = cursor := by
    refine Cursor.eq_of_parts ?_ rfl rfl
    change line ++ (cursor.drop line.length).rest = cursor.rest
    rw [ending_rest, split]
  have next : (cursor.drop line.length).advance = cursor.drop (line.length + 1) := by
    refine Cursor.eq_of_parts ?_ rfl rfl
    exact drop_drop
  have more_eq : (cursor.drop (line.length + 1)).rest = more := by
    change cursor.rest.drop (line.length + 1) = more
    rw [split, ← drop_drop, drop_left, drop_one, tail_cons]
  have line_eq : statementLine expr block cursor = simpleLine expr cursor := by
    rw [statementLine, compound?_none simple]
  have outcome : twins.ReadsLine _ _ := simpleLine_reads reads ending_kind
  rw [left] at outcome
  generalize run : simpleLine expr cursor = found at outcome line_eq
  generalize simpleLine expr twins.right = found' at outcome
  cases outcome with
  | @failed statements statements' error error' count =>
    refine absurd clean (outermost_failed reads blocks laid written line_eq rfl ?_)
    refine ⟨line.take count, ?_⟩
    change line.take count ++ (line.drop count ++ (cursor.drop line.length).rest) = cursor.rest
    rw [← append_assoc, take_append_drop, ending_rest, split]
  | @read statements statements' some =>
    have stop : twins.leftEnd.advance = cursor.drop (line.length + 1) := next
    rw [stop] at line_eq
    have shorter : (cursor.drop (line.length + 1)).size < cursor.size := by
      rw [Cursor.size_eq, Cursor.size_eq, more_eq, split, length_append, length_cons]
      omega
    have taken : recoveredLine expr block cursor = (statements, cursor.drop (line.length + 1)) := by
      rw [recoveredLine, line_eq]
    have whole := outermost_recovered written taken shorter
    refine ⟨line, last, more, split, words, newline, ?_, some, whole⟩
    intro token found indent
    have here : (cursor.drop (line.length + 1)).current.kind = .indent := by
      rw [Cursor.current, more_eq, found]
      exact indent
    have onward : Laid (cursor.drop (line.length + 1)).rest := by
      rw [more_eq]
      rw [split, append_cons] at laid
      exact laid.suffix
    refine outermost_indent reads blocks onward here ?_
    rw [whole] at clean
    exact clean

end

end Parser

theorem Cursor.nextStatement_alike {lines : Nat → Nat → Prop} {run run' : List Token}
    (alike : List.Forall₂ (Token.Alike lines) run run') (laid : Laid run)
    (whole : ∃ token ∈ run, token.kind = .endOfInput) :
    List.Forall₂ (Token.Alike lines) (nextStatement run) (nextStatement run') ∧
      Laid (nextStatement run) ∧ ∃ token ∈ nextStatement run, token.kind = .endOfInput := by
  have laid' : Laid (run ++ []) := by
    rw [append_nil]
    exact laid
  obtain ⟨count, skipped⟩ := nextStatement_skipped alike laid' (by simp)
  obtain ⟨token, member, last⟩ := whole
  have left := skipped.left
  simp only [append_nil] at left
  have kept : token ∈ run.drop count := by
    rw [← take_append_drop count run] at member
    rcases mem_append.mp member with member | member
    · exact absurd last (skipped.inner token member)
    · exact member
  have inside : count < run.length := by
    have some := length_pos_of_mem kept
    rw [length_drop] at some
    omega
  have right := skipped.right inside []
  simp only [append_nil] at right
  rw [left, right]
  rw [← take_append_drop count run] at laid
  exact ⟨forall₂_drop count alike, laid.suffix, token, kept, last⟩

namespace Program

/-- What is read of a text whose first statement is lost to recovery. -/
def resumed (text : String) : List Stmt × Cursor := read (Cursor.ofTokens (Token.ofText text 1)).synchronize

def firstLine (text : String) : List Stmt :=
  (Parser.simpleLine (Parser.expression nestingLimit) (Cursor.ofTokens (Token.ofText text 1))).1.statements

theorem resumed_lowered (text : String) (breaks : Nat) {cursor : Cursor}
    (rest : cursor.rest = Token.ofText text (Token.lineAfter 1 breaks)) :
    List.Forall₂ (Stmt.Alike (Token.Lowered breaks)) (resumed text).1 (read cursor.synchronize).1 ∧
      ∃ later, (read cursor.synchronize).2.errors = cursor.errors ++ later ∧
        List.Forall₂ (SyntaxError.Alike (Token.Lowered breaks)) (resumed text).2.errors later := by
  have tokens : List.Forall₂ (Token.Alike (Token.Lowered breaks)) (Token.ofText text 1) cursor.rest := by
    rw [rest]
    exact Scanner.ofText_alike Token.Lowered.later text rfl
  obtain ⟨alike, laid, whole⟩ := Cursor.nextStatement_alike tokens (Token.ofText_layout text 1).laid
    (Scanner.exists_endOfInput _)
  have alike : List.Forall₂ (Token.Alike (Token.Lowered breaks))
      (Cursor.ofTokens (Token.ofText text 1)).synchronize.rest cursor.synchronize.rest := alike
  exact Parser.outermost_lines_after Token.Lowered.later nestingLimit alike laid whole rfl

theorem resumed_of_starter {text : String} {first : Token} (starts : (Token.ofText text 1).head? = some first)
    (starter : first.isStatementStarter = true) :
    resumed text = read (Cursor.ofTokens (Token.ofText text 1)) := by
  have keyword : first.kind = .keyword := by
    simp only [Token.isStatementStarter, Bool.and_eq_true, beq_iff_eq] at starter
    exact starter.1
  obtain ⟨rest, tokens⟩ := List.head?_eq_some_iff.mp starts
  have stays : Cursor.nextStatement (Token.ofText text 1) = Token.ofText text 1 := by
    rw [tokens, Cursor.nextStatement_word _ (by simp [keyword]) (by simp [keyword]) (by simp [keyword]),
      if_pos starter]
  exact congrArg read (Cursor.eq_of_parts stays rfl rfl)

theorem resumed_of_line (file : String) {text : String} {first : Token} (clean : (ofSource file text).2 = [])
    (starts : (Token.ofText text 1).head? = some first) (written : first.kind.isLayout = false)
    (simple : first.startsCompound = false)
    (plain : ∀ token ∈ (Token.ofText text 1).takeWhile (·.kind != .newline),
      token.isStatementStarter = false) :
    firstLine text ≠ [] ∧ (ofSource file text).1.statements = firstLine text ++ (resumed text).1 ∧
      (resumed text).2.errors = [] := by
  have here : (Cursor.ofTokens (Token.ofText text 1)).current = first := by
    change (Token.ofText text 1).head?.getD _ = first
    rw [starts]
    rfl
  obtain ⟨line, last, more, split, words, newline, flat, some, whole⟩ :=
    Parser.outermost_first_line (Parser.expression_readable Likeness.same nestingLimit)
      (Parser.nestedBlock_mirrored Likeness.same nestingLimit) (Token.ofText_layout text 1).laid clean
      (by rw [here]; exact written) (by rw [here]; exact simple)
  have split : Token.ofText text 1 = line ++ last :: more := split
  have inner : ∀ token ∈ line, (token.kind != .newline) = true := by
    intro token member
    rw [bne_iff_ne]
    intro kind
    have word := words token member
    rw [kind] at word
    cases word
  have first_line : (Token.ofText text 1).takeWhile (·.kind != .newline) = line := by
    rw [split, takeWhile_append_of_pos inner, takeWhile_cons_of_neg (by simp [newline]),
      append_nil]
  rw [first_line] at plain
  have onward : (Cursor.ofTokens (Token.ofText text 1)).synchronize =
      (Cursor.ofTokens (Token.ofText text 1)).drop (line.length + 1) := by
    refine Cursor.eq_of_parts ?_ rfl rfl
    change Cursor.nextStatement (Token.ofText text 1) = (Token.ofText text 1).drop (line.length + 1)
    rw [split, Parser.nextStatement_line words plain newline flat, ← drop_drop, drop_left,
      drop_one, tail_cons]
  rw [← onward] at whole
  refine ⟨some, congrArg Prod.fst whole, ?_⟩
  have errors : (ofSource file text).2 = (resumed text).2.errors := congrArg (·.2.errors) whole
  rw [← errors]
  exact clean

/-- A `try` without a handler, or a decorator without a definition, before a text without errors that
    goes on with neither. There is an error at the first token of that text, and its statements are read
    from the place that recovery finds. All of them are kept if the first token is a word at which
    recovery stops. The statements of the first line are lost if no such word is on that line and no
    compound statement starts there. -/
theorem ofSource_unfinished (file front back : String) (what : Expected) (first : Token)
    (unfinished : Unfinished what front) (ends : Token.EndsLine front.toList)
    (alone : (Scanner.start front.toList 1).joinsNext = false)
    (flush : Token.startsFlush back.toList = true) (clean : (ofSource file back).2 = [])
    (starts : (Token.ofText back 1).head? = some first) (written : first.kind.isLayout = false)
    (apart : what.continuedBy first = false) :
    ∃ error lowered later, (ofSource file (front ++ back)).1 = ⟨file, lowered⟩ ∧
      (ofSource file (front ++ back)).2 = error :: later ∧
      SyntaxError.Alike (Token.Lowered (front.toList.count '\n'))
        (.atToken first (.expected what first)) error ∧
      List.Forall₂ (Stmt.Alike (Token.Lowered (front.toList.count '\n'))) (resumed back).1 lowered ∧
      List.Forall₂ (SyntaxError.Alike (Token.Lowered (front.toList.count '\n'))) (resumed back).2.errors later ∧
      (first.isStatementStarter = true → later = [] ∧
        List.Forall₂ (Stmt.Alike (Token.Lowered (front.toList.count '\n')))
          (ofSource file back).1.statements lowered) ∧
      (first.startsCompound = false →
        (∀ token ∈ (Token.ofText back 1).takeWhile (·.kind != .newline), token.isStatementStarter = false) →
        later = [] ∧ firstLine back ≠ [] ∧
          ∃ kept, (ofSource file back).1.statements = firstLine back ++ kept ∧
            List.Forall₂ (Stmt.Alike (Token.Lowered (front.toList.count '\n'))) kept lowered) := by
  have reads := Parser.expression_readable Likeness.same nestingLimit
  have blocks := Parser.nestedBlock_mirrored Likeness.same nestingLimit
  have laid : Laid (Cursor.ofTokens (Token.ofText back 1)).rest := (Token.ofText_layout back 1).laid
  have here : (Cursor.ofTokens (Token.ofText back 1)).current = first := by
    change (Token.ofText back 1).head?.getD _ = first
    rw [starts]
    rfl
  have goes : ∀ token ∈ (Token.ofText back 1).head?, ∀ word ∈ clauseWords, token.isKeyword word = false := by
    intro token found word clause
    rw [starts] at found
    cases found
    by_contra keyword
    refine Parser.outermost_clause reads blocks laid clause ?_ clean
    rw [here]
    exact Bool.not_eq_false _ |>.mp keyword
  obtain ⟨ending, rest, fresh, whole⟩ := unfinished.read_append ends alone flush goes (by
    intro token found
    rw [starts] at found
    cases found
    exact apart)
  have tokens : List.Forall₂ (Token.Alike (Token.Lowered (front.toList.count '\n'))) (Token.ofText back 1)
      ending.rest := by
    rw [rest]
    exact Scanner.ofText_alike Token.Lowered.later back rfl
  have found : Token.Alike (Token.Lowered (front.toList.count '\n')) first ending.current := by
    obtain ⟨others, split⟩ := List.head?_eq_some_iff.mp starts
    rw [split] at tokens
    obtain ⟨other, _, alike, _, split'⟩ := forall₂_cons_left_iff.mp tokens
    rw [Cursor.current, split']
    exact alike
  have below : (ending.report (Parser.unmet what ending)).rest = _ := rest
  obtain ⟨lowered, later, errors, alikes⟩ := resumed_lowered back (front.toList.count '\n') below
  refine ⟨Parser.unmet what ending, _, later, ?_, ?_, .atToken found (.expected what found),
    lowered, alikes, ?_, ?_⟩
  · rw [ofSource_read, whole]
  · rw [ofSource_read, whole, errors, Cursor.report, fresh]
    rfl
  · intro starter
    have all := resumed_of_starter starts starter
    rw [all] at lowered alikes
    have none : (read (Cursor.ofTokens (Token.ofText back 1))).2.errors = [] := clean
    rw [none] at alikes
    exact ⟨forall₂_nil_left_iff.mp alikes, lowered⟩
  · intro simple plain
    obtain ⟨some, kept, none⟩ := resumed_of_line file clean starts written simple plain
    rw [none] at alikes
    exact ⟨forall₂_nil_left_iff.mp alikes, some, _, kept, lowered⟩

def readsWhole {α : Type} (test : α → Bool) : EStateM.Result SyntaxError Cursor α → Bool
  | .ok value last => test value && last.errors.isEmpty && last.current.kind == .endOfInput
  | .error _ _ => false

theorem exists_of_readsWhole {α : Type} {test : α → Bool} {outcome : EStateM.Result SyntaxError Cursor α}
    (whole : readsWhole test outcome = true) :
    ∃ value last, outcome = .ok value last ∧ test value = true ∧ last.errors = [] ∧
      last.current.kind = .endOfInput := by
  cases outcome with
  | ok value last =>
    simp only [readsWhole, Bool.and_eq_true, List.isEmpty_iff, beq_iff_eq] at whole
    exact ⟨value, last, rfl, whole.1.1, whole.1.2, whole.2⟩
  | error error last => cases whole

def openTry : String := "try:\n  f(1)\n  # end\n"

def openDecorator : String := "@dec\n"

def plainLines : String := "x = 1; y = 2\nif x:\n  z = y\n"

theorem openTry_unfinished : Unfinished .handlerOrFinally openTry := by
  have starts : (Token.ofText openTry 1).head? = some ⟨.keyword, "try", 1⟩ := by decide +kernel
  have whole : readsWhole (fun _ => true) (Parser.suite (Parser.nestedBlock nestingLimit)
      (Cursor.ofTokens (Token.ofText openTry 1)).advance) = true := by decide +kernel
  obtain ⟨body, last, read, _, clean, ended⟩ := exists_of_readsWhole whole
  exact .tryBlock starts rfl read clean ended

theorem openDecorator_unfinished : Unfinished .decorated openDecorator := by
  have whole : readsWhole Option.isSome (Parser.decorator (Parser.expression nestingLimit)
      (Cursor.ofTokens (Token.ofText openDecorator 1))) = true := by decide +kernel
  obtain ⟨value, last, read, found, clean, ended⟩ := exists_of_readsWhole whole
  obtain ⟨value, rfl⟩ := Option.isSome_iff_exists.mp found
  exact .decorator read clean ended

theorem ofSource_unfinished_openTry :
    Unfinished .handlerOrFinally openTry ∧ (ofSource "lib" plainLines).2 = [] ∧
    ∃ error lowered, (ofSource "lib" (openTry ++ plainLines)).1 = ⟨"lib", lowered⟩ ∧
      (ofSource "lib" (openTry ++ plainLines)).2 = [error] ∧
      SyntaxError.Alike (Token.Lowered (openTry.toList.count '\n'))
        (.atToken ⟨.identifier, "x", 1⟩ (.expected .handlerOrFinally ⟨.identifier, "x", 1⟩)) error ∧
      firstLine plainLines ≠ [] ∧
      ∃ kept, (ofSource "lib" plainLines).1.statements = firstLine plainLines ++ kept ∧
        List.Forall₂ (Stmt.Alike (Token.Lowered (openTry.toList.count '\n'))) kept lowered := by
  have clean : (ofSource "lib" plainLines).2 = [] := by decide +kernel
  have flush : Token.startsFlush plainLines.toList = true := by decide +kernel
  have alone : (Scanner.start openTry.toList 1).joinsNext = false := by decide +kernel
  have first : (Token.ofText plainLines 1).head? = some ⟨.identifier, "x", 1⟩ := by decide +kernel
  have plain : ((Token.ofText plainLines 1).takeWhile (·.kind != .newline)).all (!·.isStatementStarter) = true := by
    decide +kernel
  obtain ⟨error, lowered, later, program, errors, found, _, _, _, lost⟩ :=
    ofSource_unfinished "lib" openTry plainLines .handlerOrFinally _ openTry_unfinished (by decide) alone flush
      clean first rfl (by decide)
  obtain ⟨rfl, kept⟩ := lost (by decide) fun token member => by
    simpa using all_eq_true.mp plain token member
  exact ⟨openTry_unfinished, clean, error, lowered, program, errors, found, kept⟩

/-- The statement after a decorator may be lost, though it can be read alone. -/
theorem ofSource_unfinished_loses :
    Unfinished .decorated openDecorator ∧ (ofSource "lib" "x = 1\ny = 2\n").2 = [] ∧
      (ofSource "lib" "x = 1\ny = 2\n").1.statements.map Stmt.line = [1, 2] ∧
      (ofSource "lib" (openDecorator ++ "x = 1\ny = 2\n")).1.statements.map Stmt.line = [3] :=
  ⟨openDecorator_unfinished, by decide +kernel, by decide +kernel, by decide +kernel⟩

end Program

end SourceAudit
