import Mathlib.Data.List.Forall2
import SourceAudit.Proofs.Grammar.BlockReading

open List

namespace SourceAudit

open Layout Mirror

theorem Likeness.same_reflexive : Likeness.same.Reflexive where
  line _ := rfl
  stmt _ := rfl

namespace Mirror

variable {like : Likeness}

def ofCursors (cursor other : Cursor) (alike : List.Forall₂ (Token.Mirrors like) cursor.rest other.rest)
    (laid : Laid cursor.rest) (kept : like.Reflexive ∨ ∃ token ∈ cursor.rest, token.kind = .endOfInput) :
    Mirror like where
  leftEnd := cursor.drop cursor.rest.length
  rightEnd := other.drop other.rest.length
  leftRun := cursor.rest
  rightRun := other.rest
  alike := alike
  laid := by
    change Laid (cursor.rest ++ cursor.rest.drop cursor.rest.length)
    rw [drop_length, append_nil]
    exact laid
  ended := by simp [Cursor.current, Cursor.drop, Cursor.endToken]
  apart := by simp [Cursor.current, Cursor.drop, Cursor.endToken, Token.isKeyword]
  kept := kept

theorem push_drop (cursor : Cursor) : (cursor.drop cursor.rest.length).push cursor.rest = cursor := by
  refine Cursor.eq_of_parts ?_ rfl rfl
  change cursor.rest ++ cursor.rest.drop cursor.rest.length = cursor.rest
  rw [drop_length, append_nil]

def ofCursor (cursor : Cursor) (laid : Laid cursor.rest) : Mirror Likeness.same :=
  ofCursors cursor cursor (forall₂_same.mpr fun _ _ => ⟨⟨rfl, rfl, trivial⟩, fun _ => rfl⟩) laid
    (.inl Likeness.same_reflexive)

theorem left_ofCursor (cursor : Cursor) (laid : Laid cursor.rest) : (ofCursor cursor laid).left = cursor :=
  push_drop cursor

end Mirror

/-- What is read from one cursor to another: the tokens between them, the errors reported for them and
    how these leave the blocks. -/
structure Cursor.Keeps (before after : Cursor) (used : List Token) (new : List SyntaxError) : Prop where
  rest : before.rest = used ++ after.rest
  errors : after.errors = before.errors ++ new
  nested : ∀ front, front <+: used → Token.dedents front ≤ Token.indents front
  counted : Token.indents used = Token.dedents used + SyntaxError.stranded new

namespace Mirror

theorem Collects.keeps {mirror : Mirror Likeness.same} {least : Nat} {ends : Cursor → Prop}
    {outcome outcome' : List Stmt × Cursor} (whole : ∃ token ∈ mirror.leftRun, token.kind = .endOfInput)
    (collects : mirror.Collects least 0 ends outcome outcome') :
    ∃ used new, mirror.left.Keeps outcome.2 used new ∧ ends outcome.2 ∧ least ≤ used.length := by
  cases collects with
  | lost gone dirty =>
    obtain ⟨token, member, ended⟩ := whole
    exact absurd ended (gone.inner token member)
  | @read _ _ _ count new _ moves _ taken reached =>
    obtain ⟨before, rfl, -, bound, shifts⟩ := moves
    have level := shifts 0
    refine ⟨mirror.leftRun.take count, new, ⟨?_, rfl, ?_, ?_⟩, reached, ?_⟩
    · change mirror.leftRun ++ mirror.leftEnd.rest =
        mirror.leftRun.take count ++ (mirror.leftRun.drop count ++ mirror.leftEnd.rest)
      rw [← append_assoc, take_append_drop]
    · intro front part
      have := Token.levelAfter_front level part
      omega
    · have := shifts.count
      omega
    · rw [length_take]
      omega

theorem whole_ofCursor {cursor : Cursor} (laid : Laid cursor.rest)
    (more : cursor.current.kind ≠ .endOfInput) :
    ∃ token ∈ (ofCursor cursor laid).leftRun, token.kind = .endOfInput := by
  have some : cursor.rest ≠ [] := by
    intro none
    rw [Cursor.current, none] at more
    exact more rfl
  exact ⟨cursor.rest.getLast some, getLast_mem some, laid.ends _ (List.getLast?_eq_some_getLast some)⟩

end Mirror

namespace Parser

variable {cursor : Cursor}

theorem recovered_keeps (depth : Nat) (laid : Laid cursor.rest) (more : cursor.current.kind ≠ .endOfInput)
    (starts : cursor.current.kind ≠ .newline ∧ cursor.current.kind ≠ .dedent) :
    ∃ used new, cursor.Keeps (recovered (expression depth) (nestedBlock depth) cursor).2 used new ∧
      1 ≤ used.length := by
  have same := left_ofCursor cursor laid
  rw [← same] at more starts
  have collects := recovered_collects (expression_readable .same depth) (nestedBlock_mirrored .same depth)
    more starts
  rw [same] at collects more
  obtain ⟨used, new, keeps, _, taken⟩ := collects.keeps (whole_ofCursor laid more)
  rw [same] at keeps
  exact ⟨used, new, keeps, taken⟩

theorem nestedBlock_keeps (depth : Nat) (laid : Laid cursor.rest) (newline : cursor.current.kind = .newline)
    (indent : cursor.peek.kind = .indent) :
    ∃ body last used new, nestedBlock (depth + 1) cursor = .ok body last.advance ∧
      last.current.kind = .dedent ∧ cursor.advance.advance.Keeps last used new := by
  obtain ⟨opening, rest_eq⟩ : ∃ opening, cursor.advance.rest = opening :: cursor.advance.advance.rest := by
    rw [← Cursor.current_advance, Cursor.current] at indent
    cases rest : cursor.advance.rest with
    | nil =>
      rw [rest] at indent
      cases indent
    | cons opening more =>
      refine ⟨opening, ?_⟩
      change _ = opening :: cursor.advance.rest.drop 1
      rw [rest]
      rfl
  have opens : opening.kind = .indent := by
    rw [← Cursor.current_advance, Cursor.current, rest_eq] at indent
    exact indent
  have below : Laid cursor.advance.rest := by
    have split := take_append_drop 1 cursor.rest
    rw [← split] at laid
    exact laid.suffix
  rw [rest_eq] at below
  have laid' := below.rest
  have owes : 1 + Token.indents cursor.advance.advance.rest ≤ Token.dedents cursor.advance.advance.rest := by
    have closes := below.closes _ suffix_rfl
    rw [Token.indents_cons, Token.dedents_cons, if_pos opens, if_neg (by simp [opens])] at closes
    omega
  have more : cursor.advance.advance.current.kind ≠ .endOfInput := by
    intro ended
    rw [dedents_ended ended laid'] at owes
    omega
  have same := left_ofCursor cursor.advance.advance laid'
  rw [← same] at owes
  have collects := blockLines_collects (expression_readable .same depth) (nestedBlock_mirrored .same depth) owes
  rw [same] at collects
  obtain ⟨used, new, keeps, dedent, _⟩ := collects.keeps (whole_ofCursor laid' more)
  rw [same] at keeps
  have run : nestedBlock (depth + 1) cursor = _ :=
    (if_neg (by simp [newline])).trans (if_neg (by simp [indent]))
  dsimp only at run
  generalize statements _ _ _ _ _ = outcome at keeps dedent run
  obtain ⟨body, last⟩ := outcome
  dsimp only at run dedent
  rw [if_pos dedent] at run
  exact ⟨_, last, used, new, run, dedent, keeps⟩

/-- A statement that is read, with the errors in it skipped, takes whole blocks, but for every error
    raised at an indent it takes one indent too many. So the lines under an indent end at the dedent
    that closes it, unless there is such an error among them. -/
theorem recovered_keeps_blocks (text : String) (line depth : Nat) (cursor : Cursor)
    (part : cursor.rest <:+ Token.ofText text line) :
    (cursor.current.kind ∉ [.newline, .dedent, .endOfInput] →
      ∃ used new, cursor.Keeps (recovered (expression depth) (nestedBlock depth) cursor).2 used new ∧
        1 ≤ used.length ∧
        (Token.indents used = Token.dedents used ↔ ∀ error ∈ new, error.strandsIndent = false)) ∧
    (cursor.current.kind = .newline → cursor.peek.kind = .indent →
      ∃ body last used new, nestedBlock (depth + 1) cursor = .ok body last.advance ∧
        last.current.kind = .dedent ∧ cursor.advance.advance.Keeps last used new) := by
  have laid : Laid cursor.rest := by
    obtain ⟨front, whole⟩ := part
    have lines := (Token.ofText_layout text line).laid
    rw [← whole] at lines
    exact lines.suffix
  constructor
  · intro starts
    simp only [mem_cons, not_mem_nil, or_false, not_or] at starts
    obtain ⟨used, new, keeps, taken⟩ := recovered_keeps depth laid starts.2.2 ⟨starts.1, starts.2.1⟩
    refine ⟨used, new, keeps, taken, ?_⟩
    rw [keeps.counted, Nat.add_eq_left, SyntaxError.stranded, countP_eq_zero]
    simp
  · exact nestedBlock_keeps depth laid

def strayDecorator : String := "class A:\n    @dec\n        x = 1\n    y = 2\n"

def inStrayDecorator (count : Nat) : Cursor :=
  (Cursor.ofTokens (Token.ofText strayDecorator 1)).drop count

theorem inStrayDecorator_part (count : Nat) :
    (inStrayDecorator count).rest <:+ Token.ofText strayDecorator 1 :=
  drop_suffix count _

theorem inStrayDecorator_kinds :
    (inStrayDecorator 5).current.kind = .operator ∧ (inStrayDecorator 3).current.kind = .newline ∧
      (inStrayDecorator 3).peek.kind = .indent := by
  refine ⟨?_, ?_, ?_⟩ <;> decide +kernel

/-- Where the class goes on after its decorator: its statements are read one level below the limit. -/
def strayResumed : Cursor :=
  (recovered (expression (nestingLimit - 1)) (nestedBlock (nestingLimit - 1)) (inStrayDecorator 5)).2

theorem recovered_keeps_blocks_of_stray :
    (inStrayDecorator 5).current.kind ∉ [.newline, .dedent, .endOfInput] ∧
    (∃ used new, (inStrayDecorator 5).Keeps strayResumed used new ∧ 1 ≤ used.length ∧
      (Token.indents used = Token.dedents used ↔ ∀ error ∈ new, error.strandsIndent = false)) ∧
    (inStrayDecorator 3).current.kind = .newline ∧ (inStrayDecorator 3).peek.kind = .indent ∧
    ∃ body last used new, nestedBlock nestingLimit (inStrayDecorator 3) = .ok body last.advance ∧
      last.current.kind = .dedent ∧ (inStrayDecorator 3).advance.advance.Keeps last used new := by
  obtain ⟨operator, newline, indent⟩ := inStrayDecorator_kinds
  have starts : (inStrayDecorator 5).current.kind ∉ [.newline, .dedent, .endOfInput] := by
    rw [operator]
    decide
  have statement := (recovered_keeps_blocks strayDecorator 1 (nestingLimit - 1) _ (inStrayDecorator_part 5)).1 starts
  have block := (recovered_keeps_blocks strayDecorator 1 (nestingLimit - 1) _ (inStrayDecorator_part 3)).2 newline
    indent
  exact ⟨starts, statement, newline, indent, block⟩

/-- So what is skipped after an error is not always whole blocks: here the indent of `x = 1` goes, and
    its dedent then closes the class. -/
theorem recovered_not_balanced :
    ¬ ∀ (text : String) (line depth : Nat) (cursor : Cursor), depth < nestingLimit →
      cursor.rest <:+ Token.ofText text line → cursor.current.kind ∉ [.newline, .dedent, .endOfInput] →
      (recovered (expression depth) (nestedBlock depth) cursor).2.current.kind ≠ .endOfInput →
      ∃ used, cursor.rest = used ++ (recovered (expression depth) (nestedBlock depth) cursor).2.rest ∧
        Token.indents used = Token.dedents used := by
  intro always
  have resumed : strayResumed.current.kind = .dedent ∧ Token.indents strayResumed.rest = 0 ∧
      Token.dedents strayResumed.rest = 2 := by
    refine ⟨?_, ?_, ?_⟩ <;> decide +kernel
  unfold strayResumed at resumed
  have whole : Token.indents (inStrayDecorator 5).rest = 1 ∧ Token.dedents (inStrayDecorator 5).rest = 2 := by
    constructor <;> decide +kernel
  have below : nestingLimit - 1 < nestingLimit := by decide
  obtain ⟨used, split, balanced⟩ := always strayDecorator 1 (nestingLimit - 1) _ below (inStrayDecorator_part 5)
    (by rw [inStrayDecorator_kinds.1]; decide) (by rw [resumed.1]; decide)
  rw [split, Token.indents_append, Token.dedents_append] at whole
  omega

end Parser
end SourceAudit
