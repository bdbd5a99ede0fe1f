import Mathlib.Data.List.DropRight
import SourceAudit.Proofs.Audit.CommentDirectives
import SourceAudit.Proofs.Scanner.TokenPlaces

open List

namespace SourceAudit

open Token

namespace SourceLine

/-- A place on this line or at its end, given by the text before it. -/
def Holds (line : SourceLine) (before : List Char) : Prop := ∃ start, before = line.before ++ start ∧ '\n' ∉ start

theorem holds_iff_count (line : SourceLine) {front back : List Char} (whole : front ++ back = line.source.toList) :
    line.Holds front ↔ front.count '\n' = line.before.count '\n' := by
  constructor
  · intro holds
    obtain ⟨start, rfl, inner⟩ := holds
    rw [count_append, count_eq_zero.mpr inner, Nat.add_zero]
  · intro count
    rw [line.toList_source] at whole
    obtain ⟨start, rfl⟩ := line.before_of_count whole.symm count
    refine ⟨start, rfl, ?_⟩
    rw [count_append] at count
    exact count_eq_zero.mp (by omega)

theorem exists_dropReturn {text before part after : List Char} (whole : text = before ++ part ++ '\n' :: after)
    (first : before = [] ∨ EndsLine before) (inner : '\n' ∉ part) :
    ∃ line : SourceLine, line.source.toList = text ∧ line.text = Text.dropReturn part ∧ line.before = before := by
  unfold Text.dropReturn
  split
  · rename_i last
    obtain ⟨front, rfl⟩ := List.getLast?_eq_some_iff.mp last
    have inner : '\n' ∉ front := by simpa using inner
    refine ⟨⟨before, front, '\r' :: '\n' :: after, first, inner, .inr (.inr ⟨after, rfl⟩)⟩, ?_, ?_, rfl⟩
    · rw [toList_source, whole]
      simp
    · rw [dropLast_concat]
  · refine ⟨⟨before, part, '\n' :: after, first, inner, .inr (.inl ⟨after, rfl⟩)⟩, ?_, rfl, rfl⟩
    rw [toList_source, whole]

theorem exists_numbered {text : String} {content : List Char} {number : Nat}
    (member : (content, number) ∈ (Text.lines text.toList).zipIdx 1) :
    ∃ line : SourceLine, line.source = text ∧ line.text = content ∧ line.number = number := by
  obtain ⟨low, found⟩ := mk_mem_zipIdx_iff_le_and_getElem?_sub.mp member
  obtain ⟨index, rfl⟩ : ∃ index, number = index + 1 := ⟨number - 1, by omega⟩
  rw [Nat.add_sub_cancel] at found
  have length := Text.length_split '\n' text.toList
  obtain ⟨last, front, parts⟩ : ∃ last front, Text.split (· == '\n') text.toList = front ++ [last] := by
    have some := Text.split_ne_nil (· == '\n') text.toList
    exact ⟨_, _, (dropLast_concat_getLast some).symm⟩
  unfold Text.lines at found
  dsimp only at found
  rw [parts, dropLast_concat, List.getLast?_concat] at found
  rw [parts, length_append, length_singleton] at length
  by_cases inside : index < front.length
  · rw [List.getElem?_append_left (by simpa using inside), List.getElem?_map] at found
    obtain ⟨part, here, rfl⟩ := Option.map_eq_some_iff.mp found
    have here : (Text.split (· == '\n') text.toList)[index]? = some part := by
      rw [parts, List.getElem?_append_left inside, here]
    obtain ⟨before, after, whole, first, count, inner, ends⟩ := Text.exists_line here
    -- there are more line breaks than before the line, so one ends it
    rcases ends with rfl | ⟨more, rfl⟩
    · exfalso
      rw [whole, append_nil, count_append, count_eq_zero.mpr inner] at length
      omega
    · obtain ⟨line, source, content, start⟩ := exists_dropReturn whole first inner
      refine ⟨line, String.toList_injective source, content, ?_⟩
      rw [number, start, count]
  · have same : index = front.length ∧ last = content := by
      rw [List.getElem?_append_right (by simpa using inside), length_map] at found
      cases last with
      | nil => simp at found
      | cons c last =>
        cases offset : index - front.length with
        | zero =>
          rw [offset] at found
          exact ⟨by omega, Option.some.inj found⟩
        | succ _ =>
          rw [offset] at found
          cases found
    obtain ⟨rfl, rfl⟩ := same
    have here : (Text.split (· == '\n') text.toList)[front.length]? = some last := by
      rw [parts, List.getElem?_concat_length]
    obtain ⟨before, after, whole, first, count, inner, ends⟩ := Text.exists_line here
    refine ⟨⟨before, last, after, first, inner, ends.imp_right .inl⟩, ?_, rfl, congrArg (· + 1) count⟩
    exact String.toList_injective ((toList_source _).trans whole.symm)

end SourceLine

namespace Token

variable {text : String} {first : Nat}

theorem places_line (room : first + text.toList.count '\n' < 0x10000000000000000) :
    ∀ placed ∈ places text first, placed.token.line = first + placed.before.count '\n' := by
  intro placed member
  have stands := places_at (by omega) placed member
  have part : placed.before.count '\n' ≤ text.toList.count '\n' := by
    rw [← stands.whole, count_append]
    omega
  rw [stands.line, lineAfter_of_lt (by omega)]

theorem ofText_lines_pairwise (room : first + text.toList.count '\n' < 0x10000000000000000) :
    (ofText text first).Pairwise (fun token later => token.line ≤ later.line) := by
  have low : first < 0x10000000000000000 := by omega
  rw [← places_tokens low, pairwise_map]
  apply (places_pairwise low).imp_of_mem
  intro placed later member member' onward
  rw [places_line room placed member, places_line room later member']
  have more := onward.sublist.count_le '\n'
  omega

/-- The line of a token is the first line of the text plus the line breaks before the token, counted with 64
    bits. If these are enough for the text, lines never decrease, and with the first line 1 the lines of
    tokens are those by which directives are found. -/
theorem ofText_line_exact {text : String} {first : Nat} (low : first < 0x10000000000000000) :
    (places text first).map (·.token) = ofText text first ∧
    (∀ placed ∈ places text first, placed.At first text.toList) ∧
    (places text first).Pairwise (fun placed later => placed.before <+: later.before) ∧
    (first + text.toList.count '\n' < 0x10000000000000000 →
      (∀ placed ∈ places text first, placed.token.line = first + placed.before.count '\n') ∧
      (ofText text first).Pairwise (fun token later => token.line ≤ later.line) ∧
      (first = 1 → ∀ content number, (content, number) ∈ (Text.lines text.toList).zipIdx 1 →
        (Suppressions.ofSource text).directives.lookup number = Directive.ofLine? content ∧
        ∃ line : SourceLine, line.source = text ∧ line.text = content ∧ line.number = number ∧
          ∀ placed ∈ places text first, placed.token.line = number ↔ line.Holds placed.before)) := by
  refine ⟨places_tokens low, places_at low, places_pairwise low, fun room => ?_⟩
  refine ⟨places_line room, ofText_lines_pairwise room, ?_⟩
  intro one content number member
  obtain ⟨line, rfl, rfl, rfl⟩ := SourceLine.exists_numbered member
  refine ⟨line.lookup_number, line, rfl, rfl, rfl, ?_⟩
  intro placed member
  rw [line.holds_iff_count (places_at low placed member).whole, places_line room placed member, one,
    SourceLine.number]
  omega

def unevenText : String := "if a:\r\n    b = \'\'\'x\ny\'\'\'\n  # pysast: allow(xss)\r\n  c\n"

theorem ofText_line_exact_uneven : 1 + unevenText.toList.count '\n' < 0x10000000000000000 ∧
    (∀ placed ∈ places unevenText 1, placed.token.line = 1 + placed.before.count '\n') ∧
    (ofText unevenText 1).Pairwise (fun token later => token.line ≤ later.line) ∧
    ∃ line : SourceLine, line.source = unevenText ∧ line.text = "  # pysast: allow(xss)".toList ∧ line.number = 4 ∧
      (Suppressions.ofSource unevenText).directives.lookup 4 = Directive.ofLine? "  # pysast: allow(xss)".toList ∧
      ∀ placed ∈ places unevenText 1, placed.token.line = 4 ↔ line.Holds placed.before := by
  have room : 1 + unevenText.toList.count '\n' < 0x10000000000000000 := by decide
  obtain ⟨lines, climbs, numbered⟩ := (@ofText_line_exact unevenText 1 (by decide)).2.2.2 room
  have member : ("  # pysast: allow(xss)".toList, 4) ∈ (Text.lines unevenText.toList).zipIdx 1 := by decide
  obtain ⟨directive, line, source, content, number, holds⟩ := numbered rfl _ _ member
  exact ⟨room, lines, climbs, line, source, content, number, directive, holds⟩

/-- The line after the last number is line zero, so that lines can decrease. -/
theorem ofText_line_wraps :
    (∃ placed ∈ places "a\nb\n" 0xFFFFFFFFFFFFFFFF,
      placed.token.line ≠ 0xFFFFFFFFFFFFFFFF + placed.before.count '\n') ∧
    ¬ (ofText "a\nb\n" 0xFFFFFFFFFFFFFFFF).Pairwise (fun token later => token.line ≤ later.line) := by
  have here : places "a\nb\n" 0xFFFFFFFFFFFFFFFF =
      [⟨⟨.identifier, "a", 0xFFFFFFFFFFFFFFFF⟩, [], ['a', '\n', 'b', '\n']⟩,
        ⟨⟨.newline, "\n", 0xFFFFFFFFFFFFFFFF⟩, ['a'], ['\n', 'b', '\n']⟩,
        ⟨⟨.identifier, "b", 0⟩, ['a', '\n'], ['b', '\n']⟩, ⟨⟨.newline, "\n", 0⟩, ['a', '\n', 'b'], ['\n']⟩,
        ⟨⟨.endOfInput, "", 1⟩, ['a', '\n', 'b', '\n'], []⟩] := by decide +kernel
  constructor
  · refine ⟨⟨⟨.identifier, "b", 0⟩, ['a', '\n'], ['b', '\n']⟩, ?_, by decide⟩
    rw [here]
    simp
  · intro climbs
    rw [← places_tokens (by decide), here] at climbs
    have first := (pairwise_cons.mp climbs).1 ⟨.identifier, "b", 0⟩ (by simp)
    dsimp only at first
    omega

end Token
end SourceAudit
