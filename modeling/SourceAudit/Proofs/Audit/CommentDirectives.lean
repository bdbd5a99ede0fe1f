import Mathlib.Data.List.Basic
import SourceAudit.Proofs.Audit.Directives

open List

namespace SourceAudit

open Token

namespace Text

theorem splitOnce_drop {needle front back before after : List Char}
    (found : splitOnce needle (front ++ back) = some (before, after)) (late : front.length ≤ before.length) :
    splitOnce needle back = some (before.drop front.length, after) := by
  induction front generalizing before with
  | nil => exact found
  | cons c front ih =>
    rw [cons_append, splitOnce] at found
    split at found
    · cases found
      simp at late
    · obtain ⟨parts, later, same⟩ := Option.map_eq_some_iff.mp found
      cases same
      exact ih later (by simpa using late)

theorem splitOnce_back {needle front back : List Char} (absent : splitOnce needle (front ++ back) = none) :
    splitOnce needle back = none := by
  induction front with
  | nil => exact absent
  | cons c front ih =>
    rw [cons_append, splitOnce] at absent
    split at absent
    · cases absent
    · exact ih (Option.map_eq_none_iff.mp absent)

theorem exists_line {text part : List Char} {index : Nat} (found : (split (· == '\n') text)[index]? = some part) :
    ∃ before after, text = before ++ part ++ after ∧ (before = [] ∨ EndsLine before) ∧
      before.count '\n' = index ∧ '\n' ∉ part ∧ (after = [] ∨ ['\n'] <+: after) := by
  induction text generalizing part index with
  | nil =>
    cases index with
    | zero =>
      cases found
      exact ⟨[], [], rfl, .inl rfl, rfl, by simp, .inl rfl⟩
    | succ index => simp [split] at found
  | cons c rest ih =>
    rw [split] at found
    by_cases lineBreak : c = '\n'
    · subst lineBreak
      rw [if_pos (by decide)] at found
      cases index with
      | zero =>
        cases found
        exact ⟨[], '\n' :: rest, rfl, .inl rfl, rfl, by simp, .inr ⟨rest, rfl⟩⟩
      | succ index =>
        obtain ⟨before, after, rfl, first, count, inner, last⟩ := ih found
        refine ⟨'\n' :: before, after, rfl, .inr ?_, by simp [count], inner, last⟩
        rcases first with rfl | ends
        · rfl
        · exact ends.cons
    · rw [if_neg (by simpa using lineBreak)] at found
      cases parts : split (· == '\n') rest with
      | nil => exact absurd parts (split_ne_nil _ rest)
      | cons head others =>
        rw [parts] at found ih
        cases index with
        | zero =>
          cases found
          obtain ⟨before, after, whole, first, count, inner, last⟩ := @ih head 0 rfl
          have none : before = [] := by
            refine first.resolve_right fun ends => ?_
            exact absurd count (count_pos_iff.mpr (mem_of_getLast? ends)).ne'
          subst none
          refine ⟨[], after, by rw [whole]; rfl, .inl rfl, rfl, ?_, last⟩
          simp [Ne.symm lineBreak, inner]
        | succ index =>
          obtain ⟨before, after, rfl, first, count, inner, last⟩ := @ih part (index + 1) found
          refine ⟨c :: before, after, rfl, .inr ?_, by rw [count_cons_of_ne lineBreak, count], inner, last⟩
          refine (first.resolve_left ?_).cons
          rintro rfl
          cases count

end Text

namespace Directive

def markAt? (line : List Char) : Option Nat :=
  ((Text.splitOnce "# pysast:".toList line).or (Text.splitOnce "#pysast:".toList line)).map (·.1.length)

variable {line front back : List Char}

theorem markAt?_of_ofLine? {directive : Directive} (read : ofLine? line = some directive) :
    ∃ place, markAt? line = some place := by
  unfold ofLine? marked? at read
  unfold markAt?
  cases found : (Text.splitOnce "# pysast:".toList line).or (Text.splitOnce "#pysast:".toList line) with
  | none =>
    rw [found] at read
    cases read
  | some parts => exact ⟨_, rfl⟩

theorem markAt?_concat (line : List Char) : markAt? (line ++ ['\r']) = markAt? line := by
  unfold markAt?
  rw [Text.splitOnce_concat (by decide) (by decide), Text.splitOnce_concat (by decide) (by decide)]
  cases Text.splitOnce "# pysast:".toList line with
  | some parts => rfl
  | none => cases Text.splitOnce "#pysast:".toList line <;> rfl

theorem exists_hash {place : Nat} (marked : markAt? line = some place) :
    ∃ front c more, line = front ++ '#' :: c :: more ∧ c ≠ '\n' ∧ front.length = place := by
  unfold markAt? at marked
  obtain ⟨⟨before, after⟩, found, rfl⟩ := Option.map_eq_some_iff.mp marked
  rcases Option.or_eq_some_iff.mp found with spaced | ⟨_, tight⟩
  · exact ⟨before, ' ', "pysast:".toList ++ after, by rw [Text.splitOnce_eq_some spaced]; simp, by decide, rfl⟩
  · exact ⟨before, 'p', "ysast:".toList ++ after, by rw [Text.splitOnce_eq_some tight]; simp, by decide, rfl⟩

theorem markAt?_back {place : Nat} (marked : markAt? back = some place) (front : List Char) :
    ∃ later, markAt? (front ++ back) = some later := by
  unfold markAt? at marked ⊢
  cases found : (Text.splitOnce "# pysast:".toList (front ++ back)).or
      (Text.splitOnce "#pysast:".toList (front ++ back)) with
  | some parts => exact ⟨_, rfl⟩
  | none =>
    obtain ⟨spaced, tight⟩ := Option.or_eq_none_iff.mp found
    rw [Text.splitOnce_back spaced, Text.splitOnce_back tight] at marked
    cases marked

theorem ofLine?_drop {place : Nat} (marked : markAt? (front ++ back) = some place) (late : front.length ≤ place) :
    ofLine? back = ofLine? (front ++ back) := by
  have same : marked? back = marked? (front ++ back) := by
    unfold markAt? at marked
    unfold marked?
    obtain ⟨⟨before, after⟩, found, rfl⟩ := Option.map_eq_some_iff.mp marked
    rcases Option.or_eq_some_iff.mp found with spaced | ⟨absent, tight⟩
    · rw [spaced, Text.splitOnce_drop spaced late]
      rfl
    · rw [absent, tight, Text.splitOnce_back absent, Text.splitOnce_drop tight late]
      rfl
  unfold ofLine?
  rw [same]

end Directive

namespace Scanner

/-- A comment of a source text, with the number of the line that it stands on. -/
def HasComment (source : List Char) (number : Nat) (text : List Char) : Prop :=
  ∃ before after, (start source 1).stretches = before ++ ⟨.comment, text⟩ :: after ∧
    (joined before).count '\n' + 1 = number

variable {source text other : List Char} {number : Nat}

theorem joined_cons (stretch : Stretch) (rest : List Stretch) :
    joined (stretch :: rest) = stretch.text ++ joined rest := rfl

theorem tidy_comment {before after : List Stretch}
    (parts : (start source 1).stretches = before ++ ⟨.comment, text⟩ :: after) :
    ∃ more, text = '#' :: more ∧ '\n' ∉ text ∧ ∀ c ∈ (joined after).head?, c = '\n' := by
  have tidy := tidy_stretches (start source 1)
  rw [parts] at tidy
  obtain ⟨more, rfl, inner, ends⟩ := tidy.of_append
  exact ⟨more, rfl, by simp [inner], ends⟩

theorem lineBreak_between {before between after : List Stretch}
    (parts : (start source 1).stretches = before ++ ⟨.comment, text⟩ :: (between ++ ⟨.comment, other⟩ :: after)) :
    '\n' ∈ joined between := by
  obtain ⟨_, _, _, ends⟩ := tidy_comment parts
  have later : (start source 1).stretches = (before ++ ⟨.comment, text⟩ :: between) ++ ⟨.comment, other⟩ :: after := by
    rw [parts, append_assoc, cons_append]
  obtain ⟨more, hash, _, _⟩ := tidy_comment later
  rw [joined_append, joined_cons, hash] at ends
  cases left : joined between with
  | nil =>
    rw [left] at ends
    exact absurd (ends '#' rfl) (by decide)
  | cons c rest =>
    rw [left] at ends
    rw [ends c rfl]
    exact mem_cons_self

theorem eq_of_count {before between after after' : List Stretch}
    (parts : (start source 1).stretches = before ++ ⟨.comment, text⟩ :: after)
    (same : ⟨.comment, text⟩ :: after = between ++ ⟨.comment, other⟩ :: after')
    (count : (joined (before ++ between)).count '\n' = (joined before).count '\n') : text = other := by
  cases between with
  | nil =>
    cases same
    rfl
  | cons _ between =>
    exfalso
    obtain ⟨rfl, rfl⟩ := List.cons.inj same
    have some := count_pos_iff.mpr (lineBreak_between parts)
    rw [joined_append, joined_cons, count_append, count_append] at count
    omega

theorem HasComment.unique (first : HasComment source number text) (second : HasComment source number other) :
    text = other := by
  obtain ⟨before, after, parts, place⟩ := first
  obtain ⟨before', after', parts', place'⟩ := second
  rcases append_eq_append_iff.mp (parts.symm.trans parts') with ⟨between, rfl, same⟩ | ⟨between, rfl, same⟩
  · exact eq_of_count parts same (by omega)
  · exact (eq_of_count parts' same (by omega)).symm

end Scanner

namespace SourceLine

open Scanner

variable (line : SourceLine)

theorem toList_source : line.source.toList = line.before ++ line.text ++ line.after := String.toList_ofList

theorem whole_of_stretches {before after : List Stretch} {stretch : Stretch}
    (parts : (start line.source.toList 1).stretches = before ++ stretch :: after) :
    line.before ++ line.text ++ line.after = joined before ++ (stretch.text ++ joined after) := by
  have all := joined_stretches (start line.source.toList 1)
  rw [parts, joined_append, joined_cons] at all
  exact (all.trans line.toList_source).symm

theorem before_of_count {front back : List Char} (whole : line.before ++ line.text ++ line.after = front ++ back)
    (count : front.count '\n' = line.before.count '\n') : ∃ start, front = line.before ++ start := by
  rw [append_assoc] at whole
  rcases append_eq_append_iff.mp whole with ⟨start, same, _⟩ | ⟨missing, same, _⟩
  · exact ⟨start, same⟩
  · rw [same, count_append] at count
    have none : missing = [] := by
      by_contra some
      have ends : EndsLine line.before := line.first.resolve_left (by simp [same, some])
      rw [same] at ends
      have last : missing.getLast? = Option.some '\n' := by
        rwa [EndsLine, List.getLast?_append_of_ne_nil _ some] at ends
      have breaks := count_pos_iff.mpr (mem_of_getLast? last)
      omega
    exact ⟨[], by simp [same, none]⟩

theorem takeWhile_of_not_mem {front : List Char} (inner : '\n' ∉ front) (rest : List Char) :
    (front ++ rest).takeWhile (· ≠ '\n') = front ++ rest.takeWhile (· ≠ '\n') := by
  apply takeWhile_append_of_pos
  intro c member
  apply decide_eq_true
  rintro rfl
  exact inner member

theorem takeWhile_line :
    ∃ carriage, (carriage = [] ∨ carriage = ['\r']) ∧
      (line.text ++ line.after).takeWhile (· ≠ '\n') = line.text ++ carriage := by
  rw [takeWhile_of_not_mem line.inner]
  rcases line.last with none | ⟨more, same⟩ | ⟨more, same⟩
  · exact ⟨[], .inl rfl, by rw [none]; rfl⟩
  · exact ⟨[], .inl rfl, by rw [← same]; rfl⟩
  · exact ⟨['\r'], .inr rfl, by rw [← same]; rfl⟩

variable {line}

theorem comment_ends {before after : List Stretch} {text : List Char}
    (parts : (start line.source.toList 1).stretches = before ++ ⟨.comment, text⟩ :: after)
    (place : (joined before).count '\n' + 1 = line.number) :
    ∃ start carriage, joined before = line.before ++ start ∧ (carriage = [] ∨ carriage = ['\r']) ∧
      start ++ text = line.text ++ carriage := by
  obtain ⟨_, _, inner, ends⟩ := tidy_comment parts
  have whole := line.whole_of_stretches parts
  have count : (joined before).count '\n' = line.before.count '\n' := Nat.succ_inj.mp place
  obtain ⟨start, front⟩ := line.before_of_count whole count
  obtain ⟨carriage, either, upTo⟩ := line.takeWhile_line
  refine ⟨start, carriage, front, either, ?_⟩
  rw [front, append_assoc, append_assoc] at whole
  have rest := append_cancel_left whole
  have bare : '\n' ∉ start ++ text := by
    rw [front, count_append] at count
    have none : start.count '\n' = 0 := by omega
    simp [count_eq_zero.mp none, inner]
  have reach : (start ++ (text ++ joined after)).takeWhile (· ≠ '\n') = start ++ text := by
    rw [← append_assoc, takeWhile_of_not_mem bare]
    cases left : joined after with
    | nil => simp
    | cons c more =>
      rw [left] at ends
      simp [ends c rfl]
  rw [← reach, ← rest, upTo]

theorem comment_reads {before after : List Stretch} {text : List Char}
    (parts : (start line.source.toList 1).stretches = before ++ ⟨.comment, text⟩ :: after)
    (place : (joined before).count '\n' + 1 = line.number) :
    ∃ start, joined before = line.before ++ start ∧
      Directive.markAt? (start ++ text) = Directive.markAt? line.text ∧
      Directive.ofLine? (start ++ text) = Directive.ofLine? line.text := by
  obtain ⟨start, carriage, front, either, same⟩ := comment_ends parts place
  refine ⟨start, front, ?_⟩
  rw [same]
  rcases either with rfl | rfl
  · rw [append_nil]
    exact ⟨rfl, rfl⟩
  · exact ⟨Directive.markAt?_concat line.text, Directive.ofLine?_concat line.text⟩

theorem number_of_reaches {before after : List Stretch} {stretch : Stretch} {place : Nat}
    (parts : (start line.source.toList 1).stretches = before ++ stretch :: after) (inner : '\n' ∉ stretch.text)
    (within : place ≤ line.text.length) (low : (joined before).length ≤ line.before.length + place)
    (high : line.before.length ≤ (joined before).length + stretch.text.length) :
    (joined before).count '\n' + 1 = line.number := by
  have whole := line.whole_of_stretches parts
  rw [append_assoc] at whole
  unfold number
  rcases append_eq_append_iff.mp whole with ⟨start, same, left⟩ | ⟨missing, same, left⟩
  · rw [same, length_append] at low
    have part : start <+: line.text :=
      prefix_of_prefix_length_le ⟨_, left.symm⟩ (prefix_append _ _) (by omega)
    have none := count_eq_zero.mpr fun member => line.inner (part.mem member)
    rw [same, count_append, none, Nat.add_zero]
  · rw [same, length_append] at high
    have part : missing <+: stretch.text :=
      prefix_of_prefix_length_le ⟨_, left.symm⟩ (prefix_append _ _) (by omega)
    have none := count_eq_zero.mpr fun member => inner (part.mem member)
    rw [same, count_append, none, Nat.add_zero]

variable (line) in
/-- The mark of a directive stands on this line, in a literal. -/
def MarksLiteral : Prop :=
  ∃ place ∈ Directive.markAt? line.text, ∃ role ∈ roleAt line.source.toList (line.before.length + place + 1),
    role = .literal ∨ role = .unclosed

theorem exists_comment {place : Nat} (marked : Directive.markAt? line.text = some place)
    (outside : ¬ line.MarksLiteral) :
    ∃ text, HasComment line.source.toList line.number text ∧ Directive.ofLine? text = Directive.ofLine? line.text := by
  obtain ⟨front, c, more, written, inner, length⟩ := Directive.exists_hash marked
  have whole : joined (start line.source.toList 1).stretches =
      (line.before ++ front) ++ '#' :: c :: (more ++ line.after) := by
    refine (joined_stretches _).trans (line.toList_source.trans ?_)
    simp [written]
  obtain ⟨⟨role, text⟩, found, roles⟩ := (tidy_stretches _).hash whole inner
  rw [length_append, length] at found
  have comment : role = .comment :=
    roles.resolve_right fun literal =>
      outside ⟨place, marked, role, Option.map_eq_some_iff.mpr ⟨_, found, rfl⟩, literal⟩
  subst comment
  obtain ⟨before, after, parts, low, high⟩ := stretchAt_eq_some found
  obtain ⟨_, _, bare, _⟩ := tidy_comment parts
  have within : place ≤ line.text.length := by
    rw [written, length_append]
    omega
  have number := number_of_reaches parts bare within (by omega) (by omega)
  obtain ⟨start, same, mark, reads⟩ := comment_reads parts number
  rw [same, length_append] at low
  refine ⟨text, ⟨before, after, parts, number⟩, ?_⟩
  rw [Directive.ofLine?_drop (mark.trans marked) (by omega), reads]

theorem ofLine?_eq_some_iff {directive : Directive} (outside : ¬ line.MarksLiteral) :
    Directive.ofLine? line.text = some directive ↔
      ∃ text, HasComment line.source.toList line.number text ∧ Directive.ofLine? text = some directive := by
  constructor
  · intro read
    obtain ⟨place, marked⟩ := Directive.markAt?_of_ofLine? read
    obtain ⟨text, comment, same⟩ := exists_comment marked outside
    exact ⟨text, comment, same.trans read⟩
  · rintro ⟨text, comment, read⟩
    obtain ⟨place, marked⟩ := Directive.markAt?_of_ofLine? read
    obtain ⟨before, after, parts, number⟩ := comment
    obtain ⟨start, _, mark, _⟩ := comment_reads parts number
    obtain ⟨later, marked'⟩ := Directive.markAt?_back marked start
    -- the comment that the first mark of the line stands in can only be this one
    obtain ⟨text', comment', same⟩ := exists_comment (mark.symm.trans marked') outside
    rw [← same, ← read, comment'.unique ⟨before, after, parts, number⟩]

end SourceLine

namespace Suppressions

theorem exists_sourceLine {source : String} {number : Nat} {directive : Directive}
    (found : (ofSource source).directives.lookup number = some directive) :
    ∃ line : SourceLine, line.source = source ∧ line.number = number ∧
      Directive.ofLine? line.text = some directive := by
  cases number with
  | zero =>
    rw [lookup_zero] at found
    cases found
  | succ index =>
    rw [lookup_ofSource] at found
    obtain ⟨part, here, read⟩ := Option.bind_eq_some_iff.mp found
    obtain ⟨before, after, whole, first, count, inner, last⟩ := Text.exists_line here
    have ends : LineEnd after := last.imp_right .inl
    refine ⟨⟨before, part, after, first, inner, ends⟩, ?_, congrArg (· + 1) count, read⟩
    exact String.toList_injective ((SourceLine.toList_source _).trans whole.symm)

/-- A rule is allowed by the comment on a line or on the line above, and by the text there if the mark of a
    directive stands in a string literal. -/
theorem isAllowed_iff_comment_or_literal (source : String) (number : Nat) (rule : String) :
    (ofSource source).isAllowed number rule = true ↔
      ∃ (line : SourceLine) (directive : Directive), line.source = source ∧
        (line.number = number ∨ line.number + 1 = number) ∧ directive.allows rule = true ∧
        ((¬ line.MarksLiteral ∧ ∃ text, Scanner.HasComment source.toList line.number text ∧
            Directive.ofLine? text = some directive) ∨
          (line.MarksLiteral ∧ Directive.ofLine? line.text = some directive)) := by
  rw [isAllowed_iff]
  constructor
  · rintro ⟨place, directive, near, found, allows⟩
    obtain ⟨line, rfl, rfl, read⟩ := exists_sourceLine found
    refine ⟨line, directive, rfl, near, allows, ?_⟩
    by_cases literal : line.MarksLiteral
    · exact .inr ⟨literal, read⟩
    · exact .inl ⟨literal, (SourceLine.ofLine?_eq_some_iff literal).mp read⟩
  · rintro ⟨line, directive, rfl, near, allows, reads⟩
    have read : Directive.ofLine? line.text = some directive := by
      rcases reads with ⟨outside, comment⟩ | ⟨_, read⟩
      · exact (SourceLine.ofLine?_eq_some_iff outside).mpr comment
      · exact read
    exact ⟨line.number, directive, near, line.lookup_number.trans read, allows⟩

/-- Text in a string literal can allow a rule on a line that has no comment near it. -/
theorem allowed_without_comment :
    ¬ ∀ (source : String) (number : Nat) (rule : String), (ofSource source).isAllowed number rule = true →
      ∃ place text directive, (place = number ∨ place + 1 = number) ∧
        Scanner.HasComment source.toList place text ∧ Directive.ofLine? text = some directive ∧
        directive.allows rule = true := by
  intro only
  have allowed : (ofSource "q = \"# pysast: allow(xss)\"\nprint(input())\n").isAllowed 2 "xss" = true := by
    decide
  have roles : (Scanner.start "q = \"# pysast: allow(xss)\"\nprint(input())\n".toList 1).stretches.all
      (fun stretch => stretch.role != .comment) = true := by decide +kernel
  obtain ⟨_, text, _, _, ⟨before, after, parts, _⟩, _⟩ := only _ _ _ allowed
  rw [parts, List.all_append, List.all_cons] at roles
  simp at roles

end Suppressions

end SourceAudit
