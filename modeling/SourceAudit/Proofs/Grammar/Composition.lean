import SourceAudit.Proofs.Grammar.Indentation
import SourceAudit.Proofs.Grammar.StatementTakings
import SourceAudit.Proofs.Scanner.Relocation
import SourceAudit.Proofs.Scanner.Seam

open List

namespace SourceAudit

open Layout Mirror

variable {like : Likeness}

/-- What two readings up to the end of input do with a mirror: the right one goes on where the left
    one ends, or the left one ends after an error. -/
inductive Mirror.Covers (mirror : Mirror like) (collect : Cursor → List Stmt × Cursor) : Prop where
  | read {statements statements' : List Stmt} {onward : Mirror like} {low high count : Nat} {new new' : List SyntaxError}
      (moves : mirror.Moves low high count new new' onward) (left : collect mirror.left = (statements, onward.left))
      (right : collect mirror.right = (statements' ++ (collect onward.right).1, (collect onward.right).2))
      (ended : onward.left.current.kind = .endOfInput) (alike : List.Forall₂ like.stmt statements statements')
  | lost {statements : List Stmt} {stop : Cursor} {new : List SyntaxError}
      (left : collect mirror.left = (statements, stop)) (gone : mirror.Gone new stop) (dirty : new ≠ [])

namespace Mirror

variable {mirror onward : Mirror like} {collect : Cursor → List Stmt × Cursor} {low high count : Nat}

theorem Covers.append {first first' : List Stmt} {new new' : List SyntaxError}
    (moves : mirror.Moves low high count new new' onward) (alike : List.Forall₂ like.stmt first first')
    (left : collect mirror.left = (first ++ (collect onward.left).1, (collect onward.left).2))
    (right : collect mirror.right = (first' ++ (collect onward.right).1, (collect onward.right).2))
    (covers : onward.Covers collect) : mirror.Covers collect := by
  cases covers with
  | lost left' gone dirty =>
    rw [left'] at left
    exact .lost left (moves.gone gone) fun clean => dirty (append_eq_nil_iff.mp clean).2
  | @read _ _ _ low' _ _ _ _ moves' left' right' ended alike' =>
    rw [left'] at left
    rw [right', ← append_assoc] at right
    have moves := moves.raise low'
    rw [Nat.add_comm low' high] at moves
    exact .read (moves.trans (moves'.raise high)) left right ended (rel_append alike alike')

theorem Covers.here (ended : mirror.left.current.kind = .endOfInput)
    (left : collect mirror.left = ([], mirror.left)) : mirror.Covers collect :=
  .read (.refl mirror 0) left rfl ended .nil

theorem right_of_ended (inner : ∀ token ∈ mirror.leftRun, token.kind ≠ .endOfInput)
    (moves : mirror.Moves low high count [] [] onward) (ended : onward.left.current.kind = .endOfInput) :
    onward.right = mirror.rightEnd := by
  rcases onward.run_cases with ⟨_, none⟩ | ⟨token, _, rest, _, run, _⟩
  · rw [Mirror.right, none, Cursor.push_nil, moves.eq]
    exact Cursor.reportAll_nil _
  · have member : token ∈ mirror.leftRun.drop count := by
      change token ∈ (mirror.move count [] [] moves.before).leftRun
      rw [← moves.eq, run]
      exact mem_cons_self
    rw [Mirror.left, run] at ended
    exact absurd ended (inner token (mem_of_mem_drop member))

end Mirror

namespace Parser

variable {mirror : Mirror like} {expr : Precedence → Parser Expr} {block : Parser (Block Stmt)}

def outermost (expr : Precedence → Parser Expr) (block : Parser (Block Stmt)) : Cursor → List Stmt × Cursor :=
  statements expr block (fun _ => false) (fun kind => kind == .newline || kind == .dedent)

theorem outermost_covers (reads : Readable like expr) (blocks : Mirrored like block) :
    mirror.Covers (outermost expr block) := by
  -- by the tokens left of the end: one is passed over, or one statement is read with its recovery
  induction size : mirror.left.size using Nat.strongRecOn generalizing mirror with
  | ind size ih =>
    subst size
    by_cases ended : mirror.left.current.kind = .endOfInput
    · exact .here ended (statements_ended ended)
    have ahead : mirror.leftRun ≠ [] := fun none => ended (mirror.current_of_nil none)
    obtain ⟨rest, rest'⟩ := mirror.rest_cons ahead
    have alike := mirror.current_alike ahead
    have goes : ¬ (mirror.left.current.kind = .endOfInput ∨ false = true) := by simp [ended]
    have goes' : ¬ (mirror.right.current.kind = .endOfInput ∨ false = true) := by
      rw [← alike.kind]
      exact goes
    have left : outermost expr block mirror.left = _ := (statements_cons rest).trans (if_neg goes)
    have right : outermost expr block mirror.right = _ := (statements_cons rest').trans (if_neg goes')
    rw [← alike.kind] at right
    by_cases layout : (mirror.left.current.kind == .newline || mirror.left.current.kind == .dedent) = true
    · obtain ⟨low, high, shifts⟩ := Token.Shifts.exists_single mirror.left.current
      obtain ⟨onward, moves, left_eq, right_eq⟩ := mirror.exists_advance ended shifts
      rw [if_pos layout, ← left_eq] at left
      rw [if_pos layout, ← right_eq] at right
      exact .append moves .nil left right (ih _ (by have := moves.size; omega) rfl)
    · have starts : mirror.left.current.kind ≠ .newline ∧ mirror.left.current.kind ≠ .dedent := by
        simpa using layout
      rw [if_neg layout] at left right
      have collects := recovered_collects reads blocks ended starts
      generalize recovered expr block mirror.left = outcome at collects left
      generalize recovered expr block mirror.right = outcome' at collects right
      cases collects with
      | read moves alikes taken =>
        obtain ⟨left_size, right_size⟩ := moves.size
        unfold Cursor.followed at left right
        dsimp only at left right
        rw [if_pos (by omega)] at left right
        exact .append moves alikes left right (ih _ (by omega) rfl)
      | @lost found stop _ new gone dirty =>
        have ends : mirror.left.followed (outermost expr block) (found, stop) = (found, stop) := by
          unfold Cursor.followed
          dsimp only
          rw [outermost, statements_ended gone.ended, append_nil, ite_self]
        exact .lost (left.trans ends) gone dirty

section

variable {cursor stop : Cursor} {owed : List String} {before after : Tally} (laid : Laid cursor.rest)
  (passes : cursor.Passes .block stop owed [] before after) (clean : stop.errors = cursor.errors)
  (ended : stop.current.kind = .endOfInput)

include laid passes clean ended

theorem exists_spells :
    ∃ tokens last, cursor.rest = tokens ++ last ∧ Token.Spells owed tokens [] before after ∧
      (last = [] ∨ ∃ token, last = [token] ∧ token.kind = .endOfInput) := by
  obtain ⟨tokens, split, spells⟩ := passes.spells clean
  refine ⟨tokens, stop.rest, split, spells, ?_⟩
  cases rest : stop.rest with
  | nil => exact .inl rfl
  | cons token more =>
    rw [Cursor.current, rest] at ended
    rw [split, rest] at laid
    exact .inr ⟨token, by rw [laid.suffix.last ended], ended⟩

theorem owed_of_passes : Token.owedThrough owed cursor.rest = some [] := by
  obtain ⟨tokens, last, split, spells, rfl | ⟨token, rfl, kind⟩⟩ := exists_spells laid passes clean ended
  all_goals rw [split, Token.owedThrough_append, spells.closes]
  · rfl
  · simp [Token.owedThrough, Token.owedAfter, kind]

end

section

variable (mirror : Mirror Likeness.same) (reads : Readable Likeness.same expr)
  (blocks : Mirrored Likeness.same block)

include reads blocks

theorem outermost_ends {cursor : Cursor} (laid : Laid cursor.rest) :
    (outermost expr block cursor).2.current.kind = .endOfInput ∧
      ∃ new, (outermost expr block cursor).2.errors = cursor.errors ++ new := by
  have same := left_ofCursor cursor laid
  have covers : (ofCursor cursor laid).Covers (outermost expr block) := outermost_covers reads blocks
  cases covers with
  | lost left gone =>
    rw [same] at left
    rw [left]
    exact ⟨gone.ended, _, gone.errors⟩
  | read moves left right ended =>
    have errors := moves.left_errors
    rw [same] at left errors
    rw [left]
    exact ⟨ended, _, errors⟩

theorem outermost_right (inner : ∀ token ∈ mirror.leftRun, token.kind ≠ .endOfInput)
    (clean : (outermost expr block mirror.left).2.errors = []) :
    outermost expr block mirror.right =
      ((outermost expr block mirror.left).1 ++ (outermost expr block mirror.rightEnd).1,
        (outermost expr block mirror.rightEnd).2) := by
  have covers : mirror.Covers (outermost expr block) := outermost_covers reads blocks
  cases covers with
  | lost left gone dirty =>
    rw [left, gone.errors] at clean
    exact absurd (append_eq_nil_iff.mp clean).2 dirty
  | @read statements statements' _ _ _ _ new new' moves left right ended alike =>
    have none : new = [] := by
      rw [left, moves.left_errors] at clean
      exact (append_eq_nil_iff.mp clean).2
    subst none
    cases moves.errors
    have same : statements = statements' := forall₂_eq_eq_eq ▸ alike
    rw [right, mirror.right_of_ended inner moves ended, left, same]

end

theorem outermost_passes (depth : Nat) (cursor : Cursor) :
    cursor.Passes .block (outermost (expression depth) (nestedBlock depth) cursor).2 [] [] .nothing
      (.all Stmt.tally (outermost (expression depth) (nestedBlock depth) cursor).1) :=
  statements_serves (expression_reads depth) (nestedBlock_fills depth) _ _ (by simp) cursor

theorem outermost_ended (depth : Nat) {cursor : Cursor} (laid : Laid cursor.rest) :
    (outermost (expression depth) (nestedBlock depth) cursor).2.current.kind = .endOfInput :=
  (outermost_ends (expression_readable .same depth) (nestedBlock_mirrored .same depth) laid).1

theorem outermost_alike (mirror : Mirror like) (reads : Readable like expr) (blocks : Mirrored like block)
    (whole : ∃ token ∈ mirror.leftRun, token.kind = .endOfInput) :
    List.Forall₂ like.stmt (outermost expr block mirror.left).1 (outermost expr block mirror.right).1 ∧
      ∃ new new', (outermost expr block mirror.left).2.errors = mirror.leftEnd.errors ++ new ∧
        (outermost expr block mirror.right).2.errors = mirror.rightEnd.errors ++ new' ∧
        List.Forall₂ (SyntaxError.Alike like.error) new new' := by
  have covers : mirror.Covers (outermost expr block) := outermost_covers reads blocks
  obtain ⟨token, member, last⟩ := whole
  cases covers with
  | lost left gone dirty => exact absurd last (gone.inner token member)
  | @read _ _ onward _ _ count new new' moves left right ended alike =>
    obtain ⟨before, rfl, errors, -⟩ := moves
    have ahead : (mirror.move count new new' before).leftRun ≠ [] := by
      rw [← take_append_drop count mirror.leftRun] at member
      rcases mem_append.mp member with member | member
      · exact absurd last (before token member)
      · exact ne_nil_of_mem member
    have ended' : (mirror.move count new new' before).right.current.kind = .endOfInput := by
      rw [← (current_alike ahead).kind]
      exact ended
    rw [show outermost expr block _ = _ from statements_ended ended', append_nil] at right
    rw [left, right]
    exact ⟨alike, new, new', rfl, rfl, errors⟩

end Parser

namespace Token

def Lowered (breaks line lower : Nat) : Prop := lower = lineAfter line breaks

theorem Lowered.later {breaks line lower : Nat} (more : Nat) (lowered : Lowered breaks line lower) :
    Lowered breaks (lineAfter line more) (lineAfter lower more) := by
  rw [Lowered, lowered, lineAfter_lineAfter, lineAfter_lineAfter, Nat.add_comm]

theorem ofText_flush {text : String} (flush : startsFlush text.toList = true) (line : Nat) :
    ∀ token ∈ (ofText text line).head?, token.kind ≠ .indent := by
  intro token found indent
  -- read below an open block, the text closes that block first, and no indent comes after a dedent
  have sorted : [1, 0].Pairwise (· > ·) := by simp
  obtain ⟨place, closed⟩ := Scanner.exists_closing flush sorted rfl (.inl rfl)
  have sound : (Scanner.between text.toList line [1, 0] true).Sound :=
    ⟨sorted, rfl, fun _ => ⟨rfl, rfl, rfl⟩⟩
  have chain := ((Scanner.tokens_shaped sound rfl).2 rfl).chain
  rw [closed] at chain
  change List.IsChain Follows (⟨.dedent, "", place⟩ :: ofText text line) at chain
  cases tokens : ofText text line with
  | nil =>
    rw [tokens] at found
    cases found
  | cons first rest =>
    rw [tokens] at found chain
    cases found
    have newline := (isChain_cons_cons.mp chain).1.indent indent
    cases newline

theorem ofText_empty (line : Nat) : ofText "" line = [⟨.endOfInput, "", line⟩] :=
  Scanner.between_end rfl line true (pairwise_singleton _ _) rfl

end Token

namespace Mirror

theorem dedents_mirror (count place place' : Nat) :
    List.Forall₂ (Token.Mirrors Likeness.same) (List.replicate count ⟨.dedent, "", place⟩)
      (List.replicate count ⟨.dedent, "", place'⟩) := by
  induction count with
  | zero => exact .nil
  | succ count ih => exact .cons ⟨⟨rfl, rfl, trivial⟩, fun written => absurd rfl written⟩ ih

/-- A text that ends after the given tokens, and one that goes on there. The blocks that are open are
    closed on different lines. -/
def atSeam (read : List Token) (count place place' : Nat) (leftEnd rightEnd : Cursor)
    (laid : Laid (read ++ List.replicate count ⟨.dedent, "", place⟩ ++ leftEnd.rest))
    (ended : leftEnd.current.kind = .endOfInput)
    (apart : rightEnd.current.kind ≠ .indent ∧
      ∀ word ∈ clauseWords, rightEnd.current.isKeyword word = false) :
    Mirror Likeness.same where
  leftEnd := leftEnd
  rightEnd := rightEnd
  leftRun := read ++ List.replicate count ⟨.dedent, "", place⟩
  rightRun := read ++ List.replicate count ⟨.dedent, "", place'⟩
  alike := by
    refine rel_append (forall₂_same.mpr fun _ _ => ⟨⟨rfl, rfl, trivial⟩, fun _ => rfl⟩) ?_
    exact dedents_mirror count place place'
  laid := laid
  ended := ended
  apart := apart
  kept := .inl Likeness.same_reflexive

end Mirror

namespace Parser

variable {expr : Precedence → Parser Expr} {block : Parser (Block Stmt)}

theorem outermost_seam {read : List Token} {count place : Nat} {leftEnd rightEnd : Cursor} (place' : Nat)
    (reads : Readable Likeness.same expr) (blocks : Mirrored Likeness.same block)
    (inner : ∀ token ∈ read, token.kind ≠ .endOfInput)
    (laid : Laid (read ++ List.replicate count ⟨.dedent, "", place⟩ ++ leftEnd.rest))
    (ended : leftEnd.current.kind = .endOfInput)
    (apart : rightEnd.current.kind ≠ .indent ∧ ∀ word ∈ clauseWords, rightEnd.current.isKeyword word = false)
    (clean : (outermost expr block
      (leftEnd.push (read ++ List.replicate count ⟨.dedent, "", place⟩))).2.errors = []) :
    outermost expr block (rightEnd.push (read ++ List.replicate count ⟨.dedent, "", place'⟩)) =
      ((outermost expr block (leftEnd.push (read ++ List.replicate count ⟨.dedent, "", place⟩))).1 ++
        (outermost expr block rightEnd).1, (outermost expr block rightEnd).2) := by
  have inner : ∀ token ∈ read ++ List.replicate count ⟨.dedent, "", place⟩, token.kind ≠ .endOfInput := by
    intro token member
    rcases mem_append.mp member with member | member
    · exact inner token member
    · rw [eq_of_mem_replicate member]
      simp
  exact outermost_right (atSeam read count place place' leftEnd rightEnd laid ended apart) reads blocks inner
    clean

section

variable {lines : Nat → Nat → Prop}
  (later : ∀ {m n : Nat} (breaks : Nat), lines m n →
    lines (Token.lineAfter m breaks) (Token.lineAfter n breaks))
  (depth : Nat) {cursor other : Cursor} (alike : List.Forall₂ (Token.Alike lines) cursor.rest other.rest)
  (laid : Laid cursor.rest) (whole : ∃ token ∈ cursor.rest, token.kind = .endOfInput)
  (fresh : cursor.errors = [])

include later alike laid whole fresh

theorem outermost_lines_after :
    List.Forall₂ (Stmt.Alike lines) (outermost (expression depth) (nestedBlock depth) cursor).1
        (outermost (expression depth) (nestedBlock depth) other).1 ∧
      ∃ errors, (outermost (expression depth) (nestedBlock depth) other).2.errors = other.errors ++ errors ∧
        List.Forall₂ (SyntaxError.Alike lines)
          (outermost (expression depth) (nestedBlock depth) cursor).2.errors errors := by
  have mirrors : List.Forall₂ (Token.Mirrors (Likeness.ofLines lines later)) cursor.rest other.rest :=
    alike.imp fun _ _ same => same.mirrors
  have both := outermost_alike (ofCursors cursor other mirrors laid (.inr whole))
    (expression_readable _ depth) (nestedBlock_mirrored _ depth) whole
  have left : (ofCursors cursor other mirrors laid (.inr whole)).left = cursor := push_drop cursor
  have right : (ofCursors cursor other mirrors laid (.inr whole)).right = other := push_drop other
  rw [left, right] at both
  obtain ⟨statements, new, new', errors, errors', alikes⟩ := both
  have errors : (outermost (expression depth) (nestedBlock depth) cursor).2.errors = cursor.errors ++ new :=
    errors
  rw [fresh, nil_append] at errors
  refine ⟨statements, new', errors', ?_⟩
  rw [errors]
  exact alikes

theorem outermost_lines (fresh' : other.errors = []) :
    List.Forall₂ (Stmt.Alike lines) (outermost (expression depth) (nestedBlock depth) cursor).1
        (outermost (expression depth) (nestedBlock depth) other).1 ∧
      List.Forall₂ (SyntaxError.Alike lines)
        (outermost (expression depth) (nestedBlock depth) cursor).2.errors
        (outermost (expression depth) (nestedBlock depth) other).2.errors := by
  obtain ⟨statements, errors, same, alikes⟩ := outermost_lines_after later depth alike laid whole fresh
  rw [fresh', nil_append] at same
  refine ⟨statements, ?_⟩
  rw [same]
  exact alikes

end

end Parser

namespace Cursor

theorem current_ofText {cursor : Cursor} {text : String} {line : Nat}
    (rest : cursor.rest = Token.ofText text line) (test : Token → Bool)
    (blind : ∀ token line, test { token with line } = test token)
    (holds : ∀ token ∈ (Token.ofText text 1).head?, test token = false) : test cursor.current = false := by
  have tokens : List.Forall₂ (Token.Alike fun _ _ => True) (Token.ofText text 1) (Token.ofText text line) :=
    Scanner.ofText_alike (fun _ _ => trivial) text trivial
  obtain ⟨last, member, _⟩ := Scanner.exists_endOfInput (Scanner.start text.toList line)
  have member : last ∈ Token.ofText text line := member
  unfold current
  rw [rest]
  generalize Token.ofText text line = found at tokens member
  generalize Token.ofText text 1 = alone at tokens holds
  cases tokens with
  | nil => cases member
  | @cons token other _ _ alike _ =>
    change test other = false
    rw [alike.test test blind]
    exact holds token rfl

theorem apart_of_flush {cursor : Cursor} {text : String} {line : Nat}
    (rest : cursor.rest = Token.ofText text line) (flush : Token.startsFlush text.toList = true)
    (starts : ∀ token ∈ (Token.ofText text 1).head?, ∀ word ∈ clauseWords, token.isKeyword word = false) :
    cursor.current.kind ≠ .indent ∧ ∀ word ∈ clauseWords, cursor.current.isKeyword word = false := by
  have margin := current_ofText rest (·.kind == .indent) (fun _ _ => rfl) fun token found => by
    simpa using Token.ofText_flush flush 1 token found
  refine ⟨by simpa using margin, fun word clause => ?_⟩
  exact current_ofText rest (·.isKeyword word) (fun _ _ => rfl) fun token found => starts token found word clause

end Cursor

namespace Program

theorem ofSource_eq (file text : String) :
    ofSource file text =
      (⟨file, (Parser.outermost (Parser.expression nestingLimit) (Parser.nestedBlock nestingLimit)
          (Cursor.ofTokens (Token.ofText text 1))).1⟩,
        (Parser.outermost (Parser.expression nestingLimit) (Parser.nestedBlock nestingLimit)
          (Cursor.ofTokens (Token.ofText text 1))).2.errors) := rfl

theorem exists_spells {file text : String} (clean : (ofSource file text).2 = []) :
    ∃ tokens last, Token.ofText text 1 = tokens ++ last ∧
      Token.Spells [] tokens [] .nothing (.all Stmt.tally (ofSource file text).1.statements) ∧
      (last = [] ∨ ∃ token, last = [token] ∧ token.kind = .endOfInput) := by
  have laid : Laid (Cursor.ofTokens (Token.ofText text 1)).rest := (Token.ofText_layout text 1).laid
  exact Parser.exists_spells laid (Parser.outermost_passes _ _) clean (Parser.outermost_ended _ laid)

theorem owed_of_clean {file text : String} (clean : (ofSource file text).2 = []) :
    Token.owedThrough [] (Token.ofText text 1) = some [] := by
  have laid : Laid (Cursor.ofTokens (Token.ofText text 1)).rest := (Token.ofText_layout text 1).laid
  exact Parser.owed_of_passes laid (Parser.outermost_passes _ _) clean (Parser.outermost_ended _ laid)

/-- A text that is read without errors may stand before any text that starts at the margin and goes on
    with no clause of a statement before it: its statements come first, and everything in the second
    text is what it would be alone, on lines that are further down by the lines of the first. -/
theorem ofSource_append (file front back : String) (ends : front = "" ∨ Token.EndsLine front.toList)
    (plain : (Scanner.start front.toList 1).joinsNext = false) (clean : (ofSource file front).2 = [])
    (flush : Token.startsFlush back.toList = true)
    (starts : ∀ token ∈ (Token.ofText back 1).head?, ∀ word ∈ clauseWords, token.isKeyword word = false) :
    ∃ lowered, (ofSource file (front ++ back)).1 = ⟨file, (ofSource file front).1.statements ++ lowered⟩ ∧
      List.Forall₂ (Stmt.Alike (Token.Lowered (front.toList.count '\n')))
        (ofSource file back).1.statements lowered ∧
      List.Forall₂ (SyntaxError.Alike (Token.Lowered (front.toList.count '\n')))
        (ofSource file back).2 (ofSource file (front ++ back)).2 ∧
      (ofSource file (front ++ back)).2.map SyntaxError.message =
        (ofSource file back).2.map SyntaxError.message := by
  have laid := fun text => (Token.ofText_layout text 1).laid
  have reads := Parser.expression_readable Likeness.same nestingLimit
  have blocks := Parser.nestedBlock_mirrored Likeness.same nestingLimit
  have owed : (Token.owedThrough [] (Token.ofText front 1)).isSome = true := by rw [owed_of_clean clean]; rfl
  obtain ⟨read, count, place, place', inner, front_eq, whole_eq⟩ := Token.ofText_append ends plain owed flush
  -- up to the seam both texts have the same tokens, and the first one ends there
  obtain ⟨leftEnd, left_rest, _, left_eq⟩ := Cursor.exists_push front_eq
  obtain ⟨rightEnd, right_rest, right_errors, right_eq⟩ := Cursor.exists_push whole_eq
  have together : Laid (read ++ List.replicate count ⟨.dedent, "", place⟩ ++ leftEnd.rest) := by
    rw [left_rest, ← front_eq]
    exact laid front
  have ended : leftEnd.current.kind = .endOfInput := by
    rw [Cursor.current, left_rest, Token.ofText_empty]
    rfl
  have apart := Cursor.apart_of_flush right_rest flush starts
  rw [ofSource_eq, ← left_eq] at clean
  have joined := Parser.outermost_seam place' reads blocks inner together ended apart clean
  rw [right_eq, left_eq] at joined
  -- after the seam stand the tokens of the second text, further down
  have tokens : List.Forall₂ (Token.Alike (Token.Lowered (front.toList.count '\n')))
      (Cursor.ofTokens (Token.ofText back 1)).rest rightEnd.rest := by
    rw [right_rest]
    exact Scanner.ofText_alike Token.Lowered.later back rfl
  have below := Parser.outermost_lines Token.Lowered.later nestingLimit tokens (laid back)
    (Scanner.exists_endOfInput _) rfl right_errors
  have errors : (ofSource file (front ++ back)).2 = _ := congrArg (·.2.errors) joined
  refine ⟨_, ?_, below.1, ?_, ?_⟩
  · rw [ofSource_eq, joined]
    rfl
  · rw [errors]
    exact below.2
  · rw [errors]
    exact SyntaxError.messages_alike below.2

def openBlock : String := "def f():\n  return [1,\n2]\n  # end\n"

def marginLines : String := "\n   # note\ny = f\"\x7bf(2)\x7d\"\n)\n"

theorem ofSource_append_openBlock :
    (ofSource "lib" openBlock).2 = [] ∧ Token.startsFlush marginLines.toList = true ∧
    ∃ lowered, (ofSource "lib" (openBlock ++ marginLines)).1 =
        ⟨"lib", (ofSource "lib" openBlock).1.statements ++ lowered⟩ ∧
      List.Forall₂ (Stmt.Alike (Token.Lowered (openBlock.toList.count '\n')))
        (ofSource "lib" marginLines).1.statements lowered ∧
      List.Forall₂ (SyntaxError.Alike (Token.Lowered (openBlock.toList.count '\n')))
        (ofSource "lib" marginLines).2 (ofSource "lib" (openBlock ++ marginLines)).2 ∧
      (ofSource "lib" (openBlock ++ marginLines)).2.map SyntaxError.message =
        (ofSource "lib" marginLines).2.map SyntaxError.message := by
  have clean : (ofSource "lib" openBlock).2 = [] := by decide +kernel
  have flush : Token.startsFlush marginLines.toList = true := by decide +kernel
  have plain : (Scanner.start openBlock.toList 1).joinsNext = false := by decide +kernel
  have first : (Token.ofText marginLines 1).head? = some ⟨.identifier, "y", 3⟩ := by decide +kernel
  refine ⟨clean, flush, ofSource_append "lib" openBlock marginLines (.inr (by decide)) plain clean flush ?_⟩
  intro token found
  rw [first] at found
  cases found
  decide

end Program
end SourceAudit
