import SourceAudit.Text.Class
import SourceAudit.Text.Search

open List

namespace SourceAudit.Text

theorem split_eq_splitOnP (test : Char → Bool) (text : List Char) : split test text = text.splitOnP test := by
  induction text with
  | nil => rfl
  | cons c rest ih =>
    rw [split, splitOnP_cons_eq_if_modifyHead, ih]
    cases parts : rest.splitOnP test with
    | nil => exact absurd parts (splitOnP_ne_nil test rest)
    | cons first others => rfl

theorem split_ne_nil (test : Char → Bool) (text : List Char) : split test text ≠ [] := by
  rw [split_eq_splitOnP]
  exact splitOnP_ne_nil test text

theorem split_append (c : Char) (front back : List Char) :
    split (· == c) (front ++ c :: back) = split (· == c) front ++ split (· == c) back := by
  simp only [split_eq_splitOnP]
  exact splitOn_append_cons_self front back

theorem split_of_not_mem {c : Char} {text : List Char} (absent : c ∉ text) : split (· == c) text = [text] := by
  rw [split_eq_splitOnP]
  exact splitOn_eq_singleton absent

theorem intercalate_split (c : Char) (text : List Char) : [c].intercalate (split (· == c) text) = text := by
  rw [split_eq_splitOnP]
  exact intercalate_splitOn c

theorem split_intercalate {c : Char} {first : List Char} {others : List (List Char)}
    (absent : ∀ part ∈ first :: others, c ∉ part) :
    split (· == c) ([c].intercalate (first :: others)) = first :: others := by
  rw [split_eq_splitOnP]
  exact splitOn_intercalate c absent (cons_ne_nil first others)

theorem length_split (c : Char) (text : List Char) : (split (· == c) text).length = text.count c + 1 := by
  rw [split_eq_splitOnP]
  induction text with
  | nil => rfl
  | cons d rest ih =>
    rw [splitOnP_cons_eq_if_modifyHead, count_cons]
    split <;> simp [ih]

theorem intercalate_append (c : Char) {front back : List (List Char)} (some : front ≠ []) (more : back ≠ []) :
    [c].intercalate (front ++ back) = [c].intercalate front ++ c :: [c].intercalate back := by
  induction front with
  | nil => exact absurd rfl some
  | cons first others ih =>
    cases others with
    | nil => simp [intercalate_cons_of_ne_nil more]
    | cons second others => simpa using ih (cons_ne_nil second others)

/-- The parts of a text begin or end with those of another one exactly if it is that one, or has it at this end with
    the separator next to it. -/
theorem split_suffix_iff (c : Char) (back text : List Char) :
    split (· == c) back <:+ split (· == c) text ↔ text = back ∨ c :: back <:+ text := by
  constructor
  · rintro ⟨front, whole⟩
    have joined := intercalate_split c text
    by_cases some : front = []
    · rw [← whole, some, nil_append, intercalate_split] at joined
      exact .inl joined.symm
    · rw [← whole, intercalate_append c some (split_ne_nil _ back), intercalate_split] at joined
      exact .inr ⟨_, joined⟩
  · rintro (rfl | ⟨front, rfl⟩)
    · exact suffix_rfl
    · rw [split_append]
      exact suffix_append _ _

theorem split_isPrefix_iff (c : Char) (front text : List Char) :
    split (· == c) front <+: split (· == c) text ↔ text = front ∨ front ++ [c] <+: text := by
  constructor
  · rintro ⟨back, whole⟩
    have joined := intercalate_split c text
    by_cases some : back = []
    · rw [← whole, some, append_nil, intercalate_split] at joined
      exact .inl joined.symm
    · rw [← whole, intercalate_append c (split_ne_nil _ front) some, intercalate_split, append_cons] at joined
      exact .inr ⟨_, joined⟩
  · rintro (rfl | ⟨back, rfl⟩)
    · exact prefix_rfl
    · rw [append_assoc, singleton_append, split_append]
      exact prefix_append _ _

theorem dropPrefix?_append (start : String) (rest : List Char) : dropPrefix? start (start.toList ++ rest) = some rest := by
  unfold dropPrefix?
  rw [if_pos (List.isPrefixOf_iff_prefix.mpr (prefix_append _ _)), ← String.length_toList, drop_left]

theorem dropPrefix?_eq_none {start : String} {text : List Char} :
    dropPrefix? start text = none ↔ ¬ start.toList <+: text := by
  simp [dropPrefix?]

theorem dropWhile_of_visible {text : List Char} (visible : ∀ c ∈ text, isBlank c = false) :
    text.dropWhile isBlank = text := by
  cases text with
  | nil => rfl
  | cons c text => exact dropWhile_cons_of_neg (by simp [visible c mem_cons_self])

theorem trim_of_visible {text : List Char} (visible : ∀ c ∈ text, isBlank c = false) : trim text = text := by
  unfold trim trimStart trimEnd
  rw [dropWhile_of_visible visible, dropWhile_of_visible fun c member => visible c (mem_reverse.mp member),
    reverse_reverse]

end SourceAudit.Text
