import Mathlib.Data.List.Basic
import SourceAudit.Proofs.Scanner.TrailingComments
import SourceAudit.Proofs.Text.Splitting
import SourceAudit.Suppression

open List

namespace SourceAudit

open Token

namespace Text

theorem isPrefixOf_concat {word : List Char} {c : Char} (outside : c ∉ word) (text back : List Char) :
    word.isPrefixOf (text ++ c :: back) = word.isPrefixOf text := by
  induction word generalizing text with
  | nil => simp
  | cons d word ih =>
    have other : d ≠ c := fun same => outside (same ▸ mem_cons_self)
    cases text with
    | nil =>
      change (d == c && _) = false
      rw [beq_false_of_ne other]
      rfl
    | cons e text =>
      change (d == e && word.isPrefixOf (text ++ c :: back)) = (d == e && word.isPrefixOf text)
      rw [ih fun member => outside (mem_cons_of_mem d member)]

theorem splitOnce_concat {needle : List Char} {c : Char} (outside : c ∉ needle) (some : needle ≠ [])
    (text : List Char) :
    splitOnce needle (text ++ [c]) = (splitOnce needle text).map fun parts => (parts.1, parts.2 ++ [c]) := by
  induction text with
  | nil =>
    have starts : needle.isPrefixOf [c] = false := by
      cases needle with
      | nil => exact absurd rfl some
      | cons d needle => exact isPrefixOf_concat outside [] []
    simp [splitOnce, starts, some]
  | cons d text ih =>
    rw [cons_append, splitOnce, splitOnce, ← cons_append, isPrefixOf_concat outside, ih]
    split
    · rename_i starts
      have fits := (List.isPrefixOf_iff_prefix.mp starts).length_le
      rw [drop_append_of_le_length fits]
      rfl
    · cases splitOnce needle text <;> rfl

theorem splitOnce_eq_some {needle text front back : List Char}
    (found : splitOnce needle text = some (front, back)) : text = front ++ needle ++ back := by
  induction text generalizing front with
  | nil =>
    rw [splitOnce] at found
    split at found
    · rename_i none
      cases found
      simp [none]
    · cases found
  | cons c rest ih =>
    rw [splitOnce] at found
    split at found
    · rename_i starts
      cases found
      obtain ⟨back, whole⟩ := isPrefixOf_iff_prefix.mp starts
      rw [← whole, drop_left, nil_append]
    · obtain ⟨parts, later, same⟩ := Option.map_eq_some_iff.mp found
      cases same
      rw [ih later]
      rfl

theorem trim_concat {c : Char} (blank : isBlank c = true) (text : List Char) : trim (text ++ [c]) = trim text := by
  unfold trim trimStart
  rw [List.dropWhile_append]
  split
  · rename_i none
    rw [List.isEmpty_iff.mp none, dropWhile_cons_of_pos blank]
    rfl
  · unfold trimEnd
    rw [reverse_append, reverse_singleton, singleton_append, dropWhile_cons_of_pos blank]

end Text

namespace Directive

theorem marked?_concat (text : List Char) :
    marked? (text ++ ['\r']) = (marked? text).map (· ++ ['\r']) := by
  unfold marked?
  rw [Text.splitOnce_concat (by decide) (by decide), Text.splitOnce_concat (by decide) (by decide)]
  cases Text.splitOnce "# pysast:".toList text with
  | some parts => rfl
  | none => cases Text.splitOnce "#pysast:".toList text <;> rfl

theorem ofLine?_concat (text : List Char) : ofLine? (text ++ ['\r']) = ofLine? text := by
  unfold ofLine?
  rw [marked?_concat]
  cases marked? text with
  | none => rfl
  | some marked =>
    have trimmed := Text.trim_concat (by decide : Text.isBlank '\r' = true) marked
    simp only [Option.map_some, Option.bind_eq_bind, Option.bind_some, trimmed]

def keyword : List Char := "pysast:".toList

theorem marked?_eq_none {text : List Char} (unmarked : ¬ keyword <:+: text) : marked? text = none := by
  have absent : ∀ front : List Char, Text.splitOnce (front ++ keyword) text = none := by
    intro front
    rw [Option.eq_none_iff_forall_ne_some]
    rintro ⟨before, after⟩ found
    apply unmarked
    rw [Text.splitOnce_eq_some found]
    exact ⟨before ++ front, after, by simp⟩
  have spaced := absent ['#', ' ']
  have tight := absent ['#']
  unfold marked?
  rw [show "# pysast:".toList = ['#', ' '] ++ keyword from rfl, show "#pysast:".toList = ['#'] ++ keyword from rfl,
    spaced, tight]
  rfl

theorem ofLine?_eq_none {text : List Char} (unmarked : ¬ keyword <:+: text) : ofLine? text = none := by
  unfold ofLine?
  rw [marked?_eq_none unmarked]
  rfl

theorem ofLine?_dropReturn (text : List Char) : ofLine? (Text.dropReturn text) = ofLine? text := by
  unfold Text.dropReturn
  split
  · rename_i last
    obtain ⟨front, rfl⟩ := List.getLast?_eq_some_iff.mp last
    rw [dropLast_concat, ofLine?_concat]
  · rfl

end Directive

namespace Suppressions

theorem lookup_numbered (lines : List (List Char)) (first number : Nat) :
    ((lines.zipIdx first).filterMap fun (line, number) => (Directive.ofLine? line).map (number, ·)).lookup number =
      if first ≤ number then lines[number - first]?.bind Directive.ofLine? else none := by
  induction lines generalizing first with
  | nil => simp
  | cons line rest ih =>
    have later := ih (first + 1)
    rw [zipIdx_cons, filterMap_cons]
    by_cases here : number = first
    · subst here
      rw [if_neg (by omega)] at later
      cases read : Directive.ofLine? line with
      | none => simpa [read] using later
      | some directive => simp [read]
    · have index : first ≤ number → number - first = number - (first + 1) + 1 := by omega
      have same : (if first ≤ number then (line :: rest)[number - first]?.bind Directive.ofLine? else none) =
          if first + 1 ≤ number then rest[number - (first + 1)]?.bind Directive.ofLine? else none := by
        by_cases above : first ≤ number
        · rw [if_pos above, if_pos (by omega), index above, List.getElem?_cons_succ]
        · rw [if_neg above, if_neg (by omega)]
      rw [same, ← later]
      cases read : Directive.ofLine? line with
      | none => simp [read]
      | some directive => simp [read, lookup_cons, beq_false_of_ne here]

theorem lookup_ofSource (source : String) (number : Nat) :
    (ofSource source).directives.lookup (number + 1) =
      (Text.split (· == '\n') source.toList)[number]?.bind Directive.ofLine? := by
  have bare : Directive.ofLine? [] = none := by decide
  have numbered := lookup_numbered (Text.lines source.toList) 1 (number + 1)
  rw [if_pos (by omega), Nat.add_sub_cancel] at numbered
  refine numbered.trans ?_
  unfold Text.lines
  obtain ⟨last, front, parts⟩ : ∃ last front, Text.split (· == '\n') source.toList = front ++ [last] := by
    have some := Text.split_ne_nil (· == '\n') source.toList
    exact ⟨_, _, (dropLast_concat_getLast some).symm⟩
  dsimp only
  rw [parts, dropLast_concat, List.getLast?_concat]
  rcases Nat.lt_trichotomy number front.length with inner | rfl | outside
  · rw [List.getElem?_append_left (by simpa using inner), List.getElem?_append_left inner, List.getElem?_map]
    cases found : front[number]? with
    | none => rfl
    | some line => exact Directive.ofLine?_dropReturn line
  · rw [List.getElem?_append_right (by simp), List.getElem?_append_right (by simp)]
    cases last with
    | nil => simp [bare]
    | cons c last => simp
  · rw [List.getElem?_eq_none, List.getElem?_eq_none]
    · simp
      omega
    · have short : (List.filter (fun line => decide (line ≠ [])) [last]).length ≤ 1 := length_filter_le _ _
      simp only [length_append, length_map, Option.toList_some]
      omega

theorem lookup_zero (source : String) : (ofSource source).directives.lookup 0 = none := by
  have numbered := lookup_numbered (Text.lines source.toList) 1 0
  exact numbered.trans (if_neg (by omega))

theorem isAllowed_iff (source : String) (line : Nat) (rule : String) :
    (ofSource source).isAllowed line rule = true ↔
      ∃ number directive, (number = line ∨ number + 1 = line) ∧
        (ofSource source).directives.lookup number = some directive ∧ directive.allows rule = true := by
  have first := lookup_zero source
  unfold isAllowed find?
  rw [List.findSome?_isSome_iff]
  constructor
  · rintro ⟨number, member, found⟩
    obtain ⟨directive, kept⟩ := Option.isSome_iff_exists.mp found
    obtain ⟨here, allows⟩ := Option.filter_eq_some_iff.mp kept
    refine ⟨number, directive, ?_, here, allows⟩
    by_cases zero : number = 0
    · rw [zero, first] at here
      cases here
    · simp only [mem_cons, not_mem_nil, or_false] at member
      omega
  · rintro ⟨number, directive, place, here, allows⟩
    refine ⟨number, ?_, ?_⟩
    · simp only [mem_cons, not_mem_nil, or_false]
      omega
    · rw [here, Option.filter_some_pos (by exact allows)]
      rfl

end Suppressions

structure SourceLine where
  before : List Char
  text : List Char
  after : List Char
  first : before = [] ∨ EndsLine before
  inner : '\n' ∉ text
  last : LineEnd after

namespace SourceLine

variable (line : SourceLine)

def source : String := String.ofList (line.before ++ line.text ++ line.after)

def number : Nat := line.before.count '\n' + 1

def rewritten (text : List Char) (inner : '\n' ∉ text) : SourceLine := { line with text, inner }

theorem exists_parts :
    ∃ front carriage others, front.length = line.before.count '\n' ∧ (carriage = [] ∨ carriage = ['\r']) ∧
      ∀ text : List Char, '\n' ∉ text → Text.split (· == '\n') (line.before ++ text ++ line.after) =
        front ++ (text ++ carriage) :: others := by
  obtain ⟨front, length, starts⟩ : ∃ front, front.length = line.before.count '\n' ∧
      ∀ rest, Text.split (· == '\n') (line.before ++ rest) = front ++ Text.split (· == '\n') rest := by
    rcases line.first with none | ends
    · exact ⟨[], by simp [none], by simp [none]⟩
    · obtain ⟨lines, same⟩ := List.getLast?_eq_some_iff.mp ends
      refine ⟨Text.split (· == '\n') lines, ?_, fun rest => ?_⟩
      · rw [Text.length_split, same, count_append]
        rfl
      · rw [same, append_assoc, singleton_append, Text.split_append]
  have finish : ∃ carriage others, (carriage = [] ∨ carriage = ['\r']) ∧
      ∀ text : List Char, '\n' ∉ text → Text.split (· == '\n') (text ++ line.after) = (text ++ carriage) :: others := by
    rcases line.last with none | ⟨more, same⟩ | ⟨more, same⟩
    · refine ⟨[], [], .inl rfl, fun text inner => ?_⟩
      rw [none, append_nil, Text.split_of_not_mem inner]
    · refine ⟨[], Text.split (· == '\n') more, .inl rfl, fun text inner => ?_⟩
      rw [← same, singleton_append, Text.split_append, Text.split_of_not_mem inner]
      simp
    · refine ⟨['\r'], Text.split (· == '\n') more, .inr rfl, fun text inner => ?_⟩
      have inner' : '\n' ∉ text ++ ['\r'] := by simp [inner]
      rw [← same, show text ++ (['\r', '\n'] ++ more) = (text ++ ['\r']) ++ '\n' :: more by simp,
        Text.split_append, Text.split_of_not_mem inner']
      rfl
  obtain ⟨carriage, others, either, ends⟩ := finish
  refine ⟨front, carriage, others, length, either, fun text inner => ?_⟩
  rw [append_assoc, starts, ends text inner]

theorem lookup_rewritten (text : List Char) (inner : '\n' ∉ text) (number : Nat) :
    (Suppressions.ofSource (line.rewritten text inner).source).directives.lookup number =
      if number = line.number then Directive.ofLine? text
      else (Suppressions.ofSource line.source).directives.lookup number := by
  obtain ⟨front, carriage, others, length, either, parts⟩ := line.exists_parts
  cases number with
  | zero =>
    rw [Suppressions.lookup_zero, Suppressions.lookup_zero, if_neg (by unfold SourceLine.number; omega)]
  | succ index =>
    rw [Suppressions.lookup_ofSource, Suppressions.lookup_ofSource]
    unfold source
    rw [String.toList_ofList, String.toList_ofList, parts line.text line.inner]
    change (Text.split (· == '\n') (line.before ++ text ++ line.after))[index]?.bind _ = _
    rw [parts text inner]
    unfold SourceLine.number
    rw [← length]
    by_cases here : index = front.length
    · subst here
      rw [if_pos rfl, List.getElem?_append_right (Nat.le_refl _), Nat.sub_self]
      change Directive.ofLine? (text ++ carriage) = _
      rcases either with rfl | rfl
      · rw [append_nil]
      · exact Directive.ofLine?_concat text
    · rw [if_neg (by omega)]
      rcases Nat.lt_or_ge index front.length with before | after
      · rw [List.getElem?_append_left before, List.getElem?_append_left before]
      · obtain ⟨rest, offset⟩ : ∃ rest, index - front.length = rest + 1 := ⟨index - front.length - 1, by omega⟩
        rw [List.getElem?_append_right after, List.getElem?_append_right after, offset]
        rfl

theorem lookup_number :
    (Suppressions.ofSource line.source).directives.lookup line.number = Directive.ofLine? line.text := by
  have here := line.lookup_rewritten line.text line.inner line.number
  rwa [if_pos rfl] at here

end SourceLine
end SourceAudit
