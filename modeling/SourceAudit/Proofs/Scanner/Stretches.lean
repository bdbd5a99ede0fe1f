import SourceAudit.Proofs.Scanner.LineNumbers

open List

namespace SourceAudit

namespace Token

/-- What a stretch of a text is. A joint is a backslash with the line break after it. -/
inductive Role where
  | blank
  | comment
  | lineBreak
  | joint
  | literal
  | unclosed
  | word
deriving DecidableEq, Repr

structure Stretch where
  role : Role
  text : List Char
deriving DecidableEq, Repr

/-- A literal that is not closed is illegal, and its text starts with its quote. -/
def Lexeme.role (unit : Lexeme) : Role :=
  match unit.kind with
  | .string | .formattedString => .literal
  | .illegal => if unit.text.head?.any isQuote then .unclosed else .word
  | _ => .word

structure Lexeme.Takes (unit : Lexeme) (text front : List Char) : Prop where
  whole : front ++ unit.rest = text
  plain : unit.role = .word → '#' ∉ front
  closed : unit.role = .literal → ∃ quote, isQuote quote = true ∧ front.getLast? = some quote

theorem decimalText_suffix (isFloat : Bool) (text : List Char) : (decimalText isFloat text).rest <:+ text := by
  fun_induction decimalText isFloat text with
  | case1 => exact suffix_rfl
  | case2 isFloat c cs digit ih => exact ih.trans (suffix_cons _ _)
  | case3 isFloat cs digit ih => exact ih.trans (suffix_cons _ _)
  | case4 isFloat c cs digit joint point ih => exact ih.trans (suffix_cons _ _)
  | case5 isFloat c digit joint exponent d ds sign point ih =>
    exact (ih.trans (suffix_cons _ _)).trans (suffix_cons _ _)
  | case6 isFloat c digit joint exponent d ds sign digit' point ih => exact ih.trans (suffix_cons _ _)
  | case7 => exact suffix_rfl
  | case8 => exact suffix_rfl
  | case9 => exact suffix_cons _ _
  | case10 => exact suffix_rfl

theorem decimalText_hashes (isFloat : Bool) (text : List Char) :
    (decimalText isFloat text).rest.count '#' = text.count '#' := by
  have digits : ∀ c : Char, c.isDigit = true → c ≠ '#' := by
    rintro c digit rfl
    cases digit
  have signs : ∀ c : Char, isSign c = true → c ≠ '#' := by
    rintro c sign rfl
    cases sign
  fun_induction decimalText isFloat text <;> grind [NumberText.push]

theorem not_mem_takeWhile {p : Char → Bool} {c : Char} (stops : p c = false) (text : List Char) :
    c ∉ text.takeWhile p := by
  intro member
  have passes := all_eq_true.mp all_takeWhile c member
  rw [stops] at passes
  cases passes

theorem numberText_taken (text : List Char) :
    ∃ front, front ++ (numberText text).rest = text ∧ '#' ∉ front := by
  have decimal : ∃ front, front ++ (decimalText false text).rest = text ∧ '#' ∉ front := by
    obtain ⟨front, whole⟩ := decimalText_suffix false text
    refine ⟨front, whole, ?_⟩
    have hashes := decimalText_hashes false text
    have parts := congrArg (List.count '#') whole
    rw [count_append] at parts
    exact count_eq_zero.mp (by omega)
  unfold numberText
  split
  · rename_i mark rest
    split
    · rename_i radix
      have other : mark ≠ '#' := by
        rintro rfl
        cases radix
      refine ⟨'0' :: mark :: rest.takeWhile fun c => isHexDigit c || c == '_', ?_, ?_⟩
      · simp only [cons_append, takeWhile_append_dropWhile]
      · have digits := not_mem_takeWhile (p := fun c => isHexDigit c || c == '_') (c := '#') (by decide) rest
        simp [other.symm, digits]
    · exact decimal
  · exact decimal

namespace QuoteStyle

theorem opening_getLast? (style : QuoteStyle) : style.opening.getLast? = some style.quote := by
  unfold opening
  split <;> rfl

theorem read_taken (style : QuoteStyle) (text : List Char) :
    ∃ front, front ++ (style.read text).rest = text ∧
      ((style.read text).closed = true → front.getLast? = some style.quote) := by
  fun_induction read style text with
  | case1 => exact ⟨[], rfl, fun closed => by cases closed⟩
  | case2 c cs rest closes => exact ⟨style.opening, (close?_eq_some closes).symm, fun _ => style.opening_getLast?⟩
  | case3 cs triple opened ih | case8 c cs opened inner plain ih =>
    obtain ⟨front, whole, last⟩ := ih
    refine ⟨_ :: front, congrArg (List.cons _) whole, fun closed => ?_⟩
    rw [List.getLast?_cons, last closed]
    rfl
  | case4 => exact ⟨[], rfl, fun closed => by cases closed⟩
  | case5 => exact ⟨['\\'], rfl, fun closed => by cases closed⟩
  | case6 ds inner opened ih | case7 d ds inner' inner opened ih =>
    obtain ⟨front, whole, last⟩ := ih
    refine ⟨_ :: _ :: front, congrArg (List.cons _) (congrArg (List.cons _) whole), fun closed => ?_⟩
    rw [List.getLast?_cons, List.getLast?_cons, last closed]
    rfl

end QuoteStyle

theorem openQuote_suffix (verbatim : Bool) (quote : Char) (text : List Char) :
    (openQuote verbatim quote text).2 <:+ text := by
  unfold openQuote
  split
  · exact drop_suffix _ _
  · exact suffix_rfl

theorem quotedLexeme_role (marks : List Char) {quote : Char} (quoted : isQuote quote = true) (text : List Char) :
    (quotedLexeme marks quote text).role =
      if ((openQuote (marks.contains 'f' || marks.contains 'r') quote text).1.read
        (openQuote (marks.contains 'f' || marks.contains 'r') quote text).2).closed then .literal
      else .unclosed := by
  have style := openQuote_quote (marks.contains 'f' || marks.contains 'r') quote text
  unfold quotedLexeme
  dsimp only
  generalize openQuote (marks.contains 'f' || marks.contains 'r') quote text = opened at style ⊢
  obtain ⟨more, opening⟩ := opened.1.opening_cons
  split
  · cases marks.contains 'f' <;> rfl
  · simp [Lexeme.role, opening, style, quoted]

theorem quotedLexeme_rest (marks : List Char) (quote : Char) (text : List Char) :
    (quotedLexeme marks quote text).rest =
      ((openQuote (marks.contains 'f' || marks.contains 'r') quote text).1.read
        (openQuote (marks.contains 'f' || marks.contains 'r') quote text).2).rest := by
  unfold quotedLexeme
  dsimp only
  split <;> rfl

theorem quotedLexeme_takes (marks before : List Char) {quote : Char} (quoted : isQuote quote = true)
    (text : List Char) : ∃ front, (quotedLexeme marks quote text).Takes (before ++ quote :: text) front := by
  have role := quotedLexeme_role marks quoted text
  have rest := quotedLexeme_rest marks quote text
  have style := openQuote_quote (marks.contains 'f' || marks.contains 'r') quote text
  obtain ⟨opening, start⟩ := openQuote_suffix (marks.contains 'f' || marks.contains 'r') quote text
  generalize openQuote (marks.contains 'f' || marks.contains 'r') quote text = opened at role rest style start
  obtain ⟨body, whole, last⟩ := opened.1.read_taken opened.2
  rw [style] at last
  refine ⟨before ++ quote :: (opening ++ body), ?_, ?_, ?_⟩
  · rw [rest, append_assoc, cons_append, append_assoc, whole, start]
  · intro word
    rw [role] at word
    split at word <;> cases word
  · intro literal
    have closed : (opened.1.read opened.2).closed = true := by
      by_contra still
      rw [role, if_neg still] at literal
      cases literal
    refine ⟨quote, quoted, ?_⟩
    rw [List.getLast?_append, List.getLast?_cons, List.getLast?_append, last closed]
    rfl

theorem kindOfWord_role (word text : List Char) (lines : Nat) (rest : List Char) :
    Lexeme.role ⟨kindOfWord (String.ofList word), text, lines, rest⟩ = .word := by
  rcases kindOfWord_cases (String.ofList word) with kind | kind | kind | kind <;> rw [kind] <;> rfl

theorem numberLexeme_role (text : List Char) : (numberLexeme text).role = .word := by
  unfold numberLexeme
  dsimp only
  split <;> rfl

theorem longOperators_hash : ∀ symbol ∈ longOperators, '#' ∉ symbol.toList := by decide

theorem lexeme_takes {c : Char} (other : c ≠ '#') (rest : List Char) :
    ∃ front, (lexeme c rest).Takes (c :: rest) front := by
  have takes : ∀ {unit : Lexeme} {front : List Char}, unit.role = .word → front ++ unit.rest = c :: rest →
      '#' ∉ front → unit.Takes (c :: rest) front := by
    intro unit front role whole bare
    refine ⟨whole, fun _ => bare, fun literal => ?_⟩
    rw [role] at literal
    cases literal
  have form := lexeme_lexed c rest
  generalize lexeme c rest = unit at form
  cases form with
  | quoted whole word opens =>
    rw [← whole]
    exact quotedLexeme_takes _ _ opens _
  | number =>
    obtain ⟨front, whole, bare⟩ := numberText_taken (c :: rest)
    exact ⟨front, takes (numberLexeme_role _) whole bare⟩
  | word whole word => exact ⟨_, takes (kindOfWord_role _ _ _ _) whole (not_mem_letters word (by decide))⟩
  | symbol whole found =>
    exact ⟨_, takes rfl whole (longOperators_hash _ (mem_of_find?_eq_some found))⟩
  | single plain _ one =>
    refine ⟨[c], takes ?_ rfl (by simp [other.symm])⟩
    rcases one with rfl | ⟨rfl, _⟩ | rfl <;> simp [Lexeme.role, plain]

end Token

namespace Scanner

open Token

def passed (scanner : Scanner) : List Stretch :=
  let blanks : Stretch := ⟨.blank, scanner.rest.takeWhile isIndentChar⟩
  if scanner.pending ≠ [] then []
  else if scanner.atLineStart ∧ scanner.depth = 0 then [blanks]
  else
    match scanner.rest.dropWhile isIndentChar with
    | [] => [blanks]
    | '#' :: cs => [blanks, ⟨.comment, '#' :: cs.takeWhile (· ≠ '\n')⟩]
    | '\n' :: _ => [blanks, ⟨.lineBreak, ['\n']⟩]
    | '\\' :: '\n' :: _ => [blanks, ⟨.joint, ['\\', '\n']⟩]
    | c :: cs =>
      [blanks, ⟨(lexeme c cs).role, (c :: cs).take ((c :: cs).length - (lexeme c cs).rest.length)⟩]

def stretches (scanner : Scanner) : List Stretch :=
  if scanner.step.2.work < scanner.work then scanner.passed ++ scanner.step.2.stretches else scanner.passed
termination_by scanner.work

def joined (stretches : List Stretch) : List Char := stretches.flatMap (·.text)

inductive Passes (text : List Char) : List Stretch → List Char → Prop where
  | nothing : Passes text [] text
  | blanks : Passes text [⟨.blank, text.takeWhile isIndentChar⟩] (text.dropWhile isIndentChar)
  | comment {more : List Char} (ahead : text.dropWhile isIndentChar = '#' :: more) :
      Passes text [⟨.blank, text.takeWhile isIndentChar⟩, ⟨.comment, '#' :: more.takeWhile (· ≠ '\n')⟩]
        (more.dropWhile (· ≠ '\n'))
  | lineBreak {more : List Char} (ahead : text.dropWhile isIndentChar = '\n' :: more) :
      Passes text [⟨.blank, text.takeWhile isIndentChar⟩, ⟨.lineBreak, ['\n']⟩] more
  | joint {more : List Char} (ahead : text.dropWhile isIndentChar = '\\' :: '\n' :: more) :
      Passes text [⟨.blank, text.takeWhile isIndentChar⟩, ⟨.joint, ['\\', '\n']⟩] more
  | unit {c : Char} {more front : List Char} (ahead : text.dropWhile isIndentChar = c :: more)
      (takes : (lexeme c more).Takes (c :: more) front) :
      Passes text [⟨.blank, text.takeWhile isIndentChar⟩, ⟨(lexeme c more).role, front⟩] (lexeme c more).rest

variable {scanner after : Scanner} {token : Option Token}

theorem passed_unit {c : Char} {text : List Char} (idle : scanner.pending = [])
    (inside : ¬ (scanner.atLineStart = true ∧ scanner.depth = 0))
    (ahead : scanner.rest.dropWhile isIndentChar = c :: text) (starts : isBlankLine (c :: text) = false) :
    ∃ front, (lexeme c text).Takes (c :: text) front ∧
      scanner.passed = [⟨.blank, scanner.rest.takeWhile isIndentChar⟩, ⟨(lexeme c text).role, front⟩] := by
  have other : c ≠ '#' := by
    rintro rfl
    cases starts
  obtain ⟨front, takes⟩ := lexeme_takes other text
  have part : (c :: text).take ((c :: text).length - (lexeme c text).rest.length) = front := by
    rw [← takes.whole, length_append, Nat.add_sub_cancel, take_left]
  refine ⟨front, takes, ?_⟩
  unfold passed
  rw [if_neg (by simp [idle]), if_neg inside, ahead]
  split
  · rename_i none
    cases none
  · rename_i hash
    cases hash
    cases starts
  · rename_i lineBreak
    cases lineBreak
    cases starts
  · rename_i joint
    cases joint
    cases starts
  · rename_i same
    cases same
    rw [part]

theorem Steps.passes (taken : Steps scanner token after) : Passes scanner.rest scanner.passed after.rest := by
  unfold passed
  cases taken with
  | queued waiting =>
    rw [if_pos (by simp [waiting])]
    exact .nothing
  | opened idle fresh flat =>
    rw [if_neg (by simp [idle]), if_pos ⟨fresh, flat⟩, openLine_rest]
    exact .blanks
  | lastBreak idle inside ahead | lastDedent idle inside ahead | ended idle inside ahead =>
    rw [if_neg (by simp [idle]), if_neg inside, ahead]
    dsimp only
    rw [← ahead]
    exact .blanks
  | comment idle inside ahead =>
    rw [if_neg (by simp [idle]), if_neg inside, ahead]
    exact .comment ahead
  | joined idle inside ahead | lineBreak idle inside ahead | blankBreak idle inside ahead =>
    rw [if_neg (by simp [idle]), if_neg inside, ahead]
    exact .lineBreak ahead
  | continued idle inside ahead =>
    rw [if_neg (by simp [idle]), if_neg inside, ahead]
    exact .joint ahead
  | unit idle inside ahead starts =>
    obtain ⟨front, takes, passed⟩ := passed_unit idle inside ahead starts
    change Passes scanner.rest scanner.passed _
    rw [passed]
    exact .unit ahead takes

theorem step_passes (scanner : Scanner) : Passes scanner.rest scanner.passed scanner.step.2.rest :=
  (step_steps scanner).passes

theorem joined_append (first second : List Stretch) : joined (first ++ second) = joined first ++ joined second :=
  flatMap_append

theorem Passes.whole {text rest : List Char} {stretches : List Stretch} (passes : Passes text stretches rest) :
    joined stretches ++ rest = text := by
  have parts := takeWhile_append_dropWhile (p := isIndentChar) (l := text)
  cases passes with
  | nothing => rfl
  | blanks => simp [joined, parts]
  | comment ahead | lineBreak ahead | joint ahead =>
    rw [ahead] at parts
    refine Eq.trans ?_ parts
    simp [joined]
  | unit ahead takes =>
    rw [ahead, ← takes.whole] at parts
    refine Eq.trans ?_ parts
    simp [joined]

theorem rest_of_not_lt (last : ¬ scanner.step.2.work < scanner.work) : scanner.step.2.rest = [] := by
  have taken := step_steps scanner
  obtain ⟨read, found, ended⟩ := (step_work scanner).resolve_left last
  generalize scanner.step = outcome at taken last found
  obtain ⟨token, after⟩ := outcome
  dsimp only at taken last found ⊢
  subst found
  rcases taken.final ended with ⟨more, waiting, rfl⟩ | ⟨_, _, rest⟩
  · exfalso
    apply last
    simp only [work, waiting, length_cons]
    omega
  · exact rest

theorem joined_stretches (scanner : Scanner) : joined scanner.stretches = scanner.rest := by
  fun_induction stretches scanner with
  | case1 scanner _ ih =>
    rw [joined_append, ih]
    exact (step_passes scanner).whole
  | case2 scanner last =>
    have whole := (step_passes scanner).whole
    rwa [rest_of_not_lt last, append_nil] at whole

/-- What is known of a stretch that stands before a text: a comment goes to the end of its line, and
    outside of comments and literals there is no hash. -/
def Tidy (stretch : Stretch) (rest : List Char) : Prop :=
  match stretch.role with
  | .comment => ∃ more, stretch.text = '#' :: more ∧ '\n' ∉ more ∧ ∀ c ∈ rest.head?, c = '\n'
  | .literal => ∃ quote, isQuote quote = true ∧ stretch.text.getLast? = some quote
  | .unclosed => True
  | _ => '#' ∉ stretch.text

def AllTidy : List Stretch → Prop
  | [] => True
  | stretch :: rest => Tidy stretch (joined rest) ∧ AllTidy rest

theorem tidy_blank (text rest : List Char) : Tidy ⟨.blank, text.takeWhile isIndentChar⟩ rest :=
  not_mem_takeWhile (by decide) text

theorem tidy_unit {unit : Lexeme} {text front : List Char} (takes : unit.Takes text front) (rest : List Char) :
    Tidy ⟨unit.role, front⟩ rest := by
  have kinds : unit.role = .literal ∨ unit.role = .unclosed ∨ unit.role = .word := by
    unfold Lexeme.role
    split
    · exact .inl rfl
    · exact .inl rfl
    · split
      · exact .inr (.inl rfl)
      · exact .inr (.inr rfl)
    · exact .inr (.inr rfl)
  unfold Tidy
  rcases kinds with role | role | role
  · rw [role]
    exact takes.closed role
  · rw [role]
    trivial
  · rw [role]
    exact takes.plain role

theorem Passes.tidy {text rest : List Char} {stretches more : List Stretch} (passes : Passes text stretches rest)
    (left : joined more = rest) (tidy : AllTidy more) : AllTidy (stretches ++ more) := by
  cases passes with
  | nothing => exact tidy
  | blanks => exact ⟨tidy_blank _ _, tidy⟩
  | @comment line ahead =>
    refine ⟨tidy_blank _ _, ⟨_, rfl, not_mem_takeWhile (by decide) line, ?_⟩, tidy⟩
    intro c found
    change c ∈ (joined more).head? at found
    rw [left] at found
    have head := List.head?_dropWhile_not (· ≠ '\n') line
    rw [Option.mem_def] at found
    rw [found] at head
    simpa using head
  | lineBreak =>
    have plain : '#' ∉ ['\n'] := by decide
    exact ⟨tidy_blank _ _, plain, tidy⟩
  | joint =>
    have plain : '#' ∉ ['\\', '\n'] := by decide
    exact ⟨tidy_blank _ _, plain, tidy⟩
  | unit ahead takes => exact ⟨tidy_blank _ _, tidy_unit takes _, tidy⟩

theorem tidy_stretches (scanner : Scanner) : AllTidy scanner.stretches := by
  fun_induction stretches scanner with
  | case1 scanner _ ih => exact (step_passes scanner).tidy (joined_stretches _) ih
  | case2 scanner last =>
    have bare : joined [] = scanner.step.2.rest := (rest_of_not_lt last).symm
    have tidy := (step_passes scanner).tidy bare trivial
    rwa [append_nil] at tidy

theorem AllTidy.of_append {before after : List Stretch} {stretch : Stretch}
    (tidy : AllTidy (before ++ stretch :: after)) : Tidy stretch (joined after) := by
  induction before with
  | nil => exact tidy.1
  | cons first before ih => exact ih tidy.2

/-- The stretch around a place, which is given by the number of characters before it. A place between two
    stretches is in neither of them; only the end of a literal that is not closed still belongs to it. -/
def stretchAt : Nat → List Stretch → Option Stretch
  | _, [] => none
  | place, stretch :: rest =>
    if place = 0 then none
    else if place < stretch.text.length ∨ (place = stretch.text.length ∧ stretch.role = .unclosed) then some stretch
    else stretchAt (place - stretch.text.length) rest

def roleAt (text : List Char) (place : Nat) : Option Role :=
  (stretchAt place (start text 1).stretches).map (·.role)

theorem stretchAt_append {place : Nat} (first more : List Stretch) (inside : 0 < place) :
    stretchAt ((joined first).length + place) (first ++ more) = stretchAt place more := by
  induction first with
  | nil => simp [joined]
  | cons stretch first ih =>
    have length : (joined (stretch :: first)).length = stretch.text.length + (joined first).length := by
      simp [joined]
    rw [cons_append, stretchAt, if_neg (by omega), if_neg (by omega), ← ih]
    congr 1
    omega

theorem stretchAt_eq_some {place : Nat} {stretches : List Stretch} {stretch : Stretch}
    (found : stretchAt place stretches = some stretch) :
    ∃ before after, stretches = before ++ stretch :: after ∧ (joined before).length < place ∧
      place ≤ (joined before).length + stretch.text.length := by
  induction stretches generalizing place with
  | nil => cases found
  | cons first rest ih =>
    rw [stretchAt] at found
    split at found
    · cases found
    · split at found
      · cases found
        refine ⟨[], rest, rfl, ?_, ?_⟩
        · change 0 < place
          omega
        · change place ≤ 0 + stretch.text.length
          omega
      · obtain ⟨before, after, rfl, low, high⟩ := ih found
        refine ⟨first :: before, after, rfl, ?_, ?_⟩
        · simp only [joined, flatMap_cons, length_append] at low ⊢
          omega
        · simp only [joined, flatMap_cons, length_append] at high ⊢
          omega

theorem AllTidy.hash {stretches : List Stretch} (tidy : AllTidy stretches) {front more : List Char} {c : Char}
    (whole : joined stretches = front ++ '#' :: c :: more) (inner : c ≠ '\n') :
    ∃ stretch, stretchAt (front.length + 1) stretches = some stretch ∧
      (stretch.role = .comment ∨ stretch.role = .literal ∨ stretch.role = .unclosed) := by
  induction stretches generalizing front with
  | nil => simp [joined] at whole
  | cons stretch rest ih =>
    obtain ⟨first, others⟩ := tidy
    change stretch.text ++ joined rest = _ at whole
    unfold Tidy at first
    rw [stretchAt, if_neg (by omega)]
    by_cases past : stretch.text.length ≤ front.length
    · rw [if_neg (by omega)]
      obtain ⟨front', rfl⟩ : ∃ front', front = stretch.text ++ front' := by
        have part : stretch.text <+: front ++ '#' :: c :: more := ⟨_, whole⟩
        exact (prefix_of_prefix_length_le part (prefix_append _ _) past).imp fun _ => Eq.symm
      rw [append_assoc] at whole
      have next := ih others (append_cancel_left whole)
      rwa [show (stretch.text ++ front').length + 1 - stretch.text.length = front'.length + 1 by simp; omega]
    · obtain ⟨last, parts⟩ : ∃ last, stretch.text = front ++ '#' :: last := by
        have part : front ++ ['#'] <+: stretch.text ++ joined rest := ⟨c :: more, by simp [whole]⟩
        have fits : (front ++ ['#']).length ≤ stretch.text.length := by
          rw [length_append, length_singleton]
          omega
        obtain ⟨last, same⟩ := prefix_of_prefix_length_le part (prefix_append _ _) fits
        exact ⟨last, by simpa using same.symm⟩
      have member : '#' ∈ stretch.text := by simp [parts]
      have roles : stretch.role = .comment ∨ stretch.role = .literal ∨ stretch.role = .unclosed := by
        by_contra other
        simp only [not_or] at other
        cases role : stretch.role <;> simp_all
      refine ⟨stretch, if_pos ?_, roles⟩
      by_cases ends : last = []
      · subst ends
        have length := congrArg List.length parts
        rw [parts, append_assoc] at whole
        have next : joined rest = c :: more := by simpa using whole
        rcases roles with role | role | role
        · rw [role] at first
          obtain ⟨_, _, _, line⟩ := first
          exact absurd (line c (by simp [next])) inner
        · rw [role] at first
          obtain ⟨quote, quoted, final⟩ := first
          rw [parts, List.getLast?_append] at final
          cases final
          cases quoted
        · exact .inr ⟨by simp [length], role⟩
      · have length := congrArg List.length parts
        have some := length_pos_iff.mpr ends
        rw [length_append, length_cons] at length
        exact .inl (by omega)

end Scanner
end SourceAudit
