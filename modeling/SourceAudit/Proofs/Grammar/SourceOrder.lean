import SourceAudit.Proofs.Grammar.Recovery
import SourceAudit.Proofs.Grammar.StatementTakings

open List

namespace SourceAudit

namespace Program

theorem ofSource_climbs (file text : String) (room : 1 + text.toList.count '\n' < 0x10000000000000000) :
    Climb 1 (Stmt.lines (ofSource file text).1.statements) (1 + text.toList.count '\n') ∧
    Climb 1 ((ofSource file text).2.map SyntaxError.line) (1 + text.toList.count '\n') := by
  have first := Cursor.line_ofText room
  by_cases several : 2 ≤ (Token.ofText text 1).length
  · have ordered := Cursor.ordered_ofText room several
    have passes := Parser.statements_serves (Parser.expression_reads nestingLimit) (Parser.nestedBlock_fills nestingLimit)
      (fun _ => false) (fun kind => kind == .newline || kind == .dedent) (by simp) (Cursor.ofTokens (Token.ofText text 1))
    rw [Stmt.tally_all] at passes
    obtain ⟨⟨new, errors, inside⟩, climb⟩ := passes.climbs ordered (Nat.le_refl _)
    have stops := (ordered.onward passes.toOnward).1
    have errors : (ofSource file text).2 = [] ++ new := errors
    refine ⟨(climb.lower first).raise stops.line_le, ?_⟩
    rw [errors]
    exact (inside.lower first).raise stops.line_le
  · obtain ⟨last, alone, ended⟩ := Cursor.exists_of_few several
    have finished : (Cursor.ofTokens [last]).current.kind = .endOfInput := ended
    have nothing : ofSource file text = (⟨file, []⟩, []) := by
      unfold ofSource ofTokens
      rw [alone, Parser.statements_ended finished]
      rfl
    simp [nothing]

/-- A walk of the tree read from a text, well-formed or not, follows the text: it starts at the first
    line, never goes up, and stays within the lines of the text. So a node stands at or above all that
    is below it in the tree, and a search finds nodes from the top down. Lines are counted in 64 bits,
    which must be enough for those of the text. -/
theorem ofSource_walk_follows (file text : String)
    (room : 1 + text.toList.count '\n' < 0x10000000000000000) :
    (ofSource file text).1.nodes.head?.map Node.line = some 1 ∧
    ((ofSource file text).1.nodes.map Node.line).Pairwise (· ≤ ·) ∧
    ∀ node ∈ (ofSource file text).1.nodes,
      (1 ≤ node.line ∧ node.line ≤ 1 + text.toList.count '\n') ∧
      (∀ below ∈ node.walk, node.line ≤ below.line) ∧
      ∀ kind, ((node.findAll kind).map Node.line).Pairwise (· ≤ ·) := by
  have walked : (ofSource file text).1.nodes.map Node.line =
      1 :: Stmt.lines (ofSource file text).1.statements := by
    have lines := Node.lines_cons (.program (ofSource file text).1) []
    rwa [Node.lines_nil, append_nil] at lines
  have climb : Climb 1 ((ofSource file text).1.nodes.map Node.line) (1 + text.toList.count '\n') := by
    rw [walked]
    exact ⟨Nat.le_refl 1, (ofSource_climbs file text room).1⟩
  refine ⟨?_, climb.pairwise, ?_⟩
  · rw [← List.head?_map, walked]
    rfl
  · intro node member
    have part := Node.walk_sublist member
    have inside : (node.walk.map Node.line).Pairwise (· ≤ ·) := climb.pairwise.sublist (part.map Node.line)
    refine ⟨climb.bounds _ (mem_map_of_mem member), ?_, ?_⟩
    · rw [Node.walk_eq_cons, map_cons, pairwise_cons] at inside
      intro below reached
      rw [Node.walk_eq_cons] at reached
      rcases mem_cons.mp reached with rfl | deeper
      · exact Nat.le_refl _
      · exact inside.1 _ (mem_map_of_mem deeper)
    · intro kind
      exact inside.sublist (filter_sublist.map Node.line)

def tangled : String :=
  "@d(1,\n 2)\ndef f():\n  w = )\n  x = f'''\x7bp\x7d\n\x7bq\x7d''' if y else (\n  z)\n"

theorem ofSource_walk_follows_tangled :
    1 + tangled.toList.count '\n' < 0x10000000000000000 ∧ (ofSource "lib" tangled).2.length = 1 ∧
    (ofSource "lib" tangled).1.nodes.map Node.line = [1, 1, 1, 1, 1, 2, 4, 5, 5, 5, 5, 5, 6, 6, 7] ∧
    ∀ node ∈ (ofSource "lib" tangled).1.nodes,
      (1 ≤ node.line ∧ node.line ≤ 8) ∧ (∀ below ∈ node.walk, node.line ≤ below.line) ∧
      ∀ kind, ((node.findAll kind).map Node.line).Pairwise (· ≤ ·) := by
  have breaks : tangled.toList.count '\n' = 7 := by decide
  have room : 1 + tangled.toList.count '\n' < 0x10000000000000000 := by
    rw [breaks]
    decide
  have follows := (ofSource_walk_follows "lib" tangled room).2.2
  rw [breaks] at follows
  exact ⟨room, by decide +kernel, by decide +kernel, follows⟩

/-- The errors in a text are reported from the top down, on lines of the text, however they are nested and
    wherever on their statement they point. The lines of the text must be few enough to be counted in 64 bits. -/
theorem ofSource_errors_follow (file text : String)
    (room : 1 + text.toList.count '\n' < 0x10000000000000000) :
    ((ofSource file text).2.map SyntaxError.line).Pairwise (· ≤ ·) ∧
    ∀ error ∈ (ofSource file text).2, 1 ≤ error.line ∧ error.line ≤ 1 + text.toList.count '\n' := by
  have climb := (ofSource_climbs file text room).2
  refine ⟨climb.pairwise, ?_⟩
  intro error member
  exact climb.bounds error.line (mem_map_of_mem member)

def misread : String := "if a:\n )\n 1\\\n=2\nf'''\n\x7b+\x7d'''"

theorem ofSource_errors_follow_misread :
    1 + misread.toList.count '\n' < 0x10000000000000000 ∧
    (ofSource "lib" misread).2.map SyntaxError.line = [2, 3, 6] ∧
    ((ofSource "lib" misread).2.map SyntaxError.line).Pairwise (· ≤ ·) ∧
    ∀ error ∈ (ofSource "lib" misread).2, 1 ≤ error.line ∧ error.line ≤ 6 := by
  have breaks : misread.toList.count '\n' = 5 := by decide
  have room : 1 + misread.toList.count '\n' < 0x10000000000000000 := by
    rw [breaks]
    decide
  have follows := ofSource_errors_follow "lib" misread room
  rw [breaks] at follows
  exact ⟨room, by decide +kernel, follows⟩

end Program
end SourceAudit
