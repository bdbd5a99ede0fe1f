import Mathlib.Data.List.DropRight
import SourceAudit.Proofs.Scanner.Layout
import SourceAudit.Proofs.Scanner.Seam

open List

namespace SourceAudit

namespace Token

structure Placed where
  token : Token
  before : List Char
  ahead : List Char
deriving DecidableEq, Repr

/-- What stands at the place of a token: the unit that it is read from, the line break that ends its line, the
    line that it opens, or nothing at the end of the text. -/
inductive Placed.Starts : Placed → Prop where
  | unit {before more : List Char} {c : Char} {line : Nat} (visible : isIndentChar c = false)
      (starts : Scanner.isBlankLine (c :: more) = false) :
      Starts ⟨⟨(lexeme c more).kind, String.ofList (lexeme c more).text, line⟩, before, c :: more⟩
  | lineBreak {before more : List Char} {line : Nat} : Starts ⟨⟨.newline, "\n", line⟩, before, '\n' :: more⟩
  | opening {token : Token} {before blanks more : List Char} {c : Char} (first : before = [] ∨ EndsLine before)
      (blank : ∀ c ∈ blanks, isIndentChar c = true) (visible : isIndentChar c = false)
      (starts : Scanner.isBlankLine (c :: more) = false)
      (layout : token.kind = .indent ∨ token.kind = .dedent ∨ token.IsMisaligned ∧ token.text.toList = blanks) :
      Starts ⟨token, before, blanks ++ c :: more⟩
  | final {token : Token} {before : List Char}
      (layout : token.kind = .newline ∨ token.kind = .dedent ∨ token.kind = .endOfInput) : Starts ⟨token, before, []⟩

end Token

open Token

theorem rdropWhile_lineStart {before blanks : List Char} (first : before = [] ∨ EndsLine before)
    (blank : ∀ c ∈ blanks, isIndentChar c = true) : (before ++ blanks).rdropWhile isIndentChar = before := by
  induction blanks using List.reverseRecOn with
  | nil =>
    rw [append_nil]
    rcases first with rfl | ends
    · rfl
    · obtain ⟨lines, rfl⟩ := List.getLast?_eq_some_iff.mp ends
      exact rdropWhile_concat_neg _ _ _ (by decide)
  | append_singleton blanks c ih =>
    rw [← append_assoc, rdropWhile_concat_pos _ _ _ (blank c (by simp))]
    exact ih fun d member => blank d (by simp [member])

theorem count_rdropWhile (text : List Char) : (text.rdropWhile isIndentChar).count '\n' = text.count '\n' := by
  have reversed := count_dropWhile (by decide : isIndentChar '\n' = false) text.reverse
  rwa [count_reverse, ← count_reverse] at reversed

namespace Scanner

variable {scanner after : Scanner} {token : Option Token} {first : Nat} {before : List Char}

/-- A token that the next step hands over, where `before` has been passed. Tokens that wait stand at the start
    of the line that has just been opened. -/
def place (before : List Char) (scanner : Scanner) (token : Token) : Placed :=
  if scanner.pending = [] then
    ⟨token, before ++ scanner.rest.takeWhile isIndentChar, scanner.rest.dropWhile isIndentChar⟩
  else ⟨token, before.rdropWhile isIndentChar, before.rtakeWhile isIndentChar ++ scanner.rest⟩

def placed (before : List Char) (scanner : Scanner) : List Placed :=
  match _taken : scanner.step with
  | (none, after) => after.placed (before ++ joined scanner.passed)
  | (some token, after) =>
    if token.kind = .endOfInput then [scanner.place before token]
    else scanner.place before token :: after.placed (before ++ joined scanner.passed)
termination_by scanner.work
decreasing_by
  · exact step_none_work _taken
  · exact step_some_work _taken ‹_›

theorem placed_of_none (taken : scanner.step = (none, after)) :
    scanner.placed before = after.placed (before ++ joined scanner.passed) := by
  rw [placed]
  split
  · rename_i taken'
    rw [taken] at taken'
    cases taken'
    rfl
  · rename_i taken'
    rw [taken] at taken'
    cases taken'

theorem placed_of_some {token : Token} (taken : scanner.step = (some token, after)) :
    scanner.placed before = if token.kind = .endOfInput then [scanner.place before token]
      else scanner.place before token :: after.placed (before ++ joined scanner.passed) := by
  rw [placed]
  split
  · rename_i taken'
    rw [taken] at taken'
    cases taken'
  · rename_i taken'
    rw [taken] at taken'
    cases taken'
    rfl

@[simp] theorem place_token (before : List Char) (scanner : Scanner) (token : Token) :
    (scanner.place before token).token = token := by
  unfold place
  split <;> rfl

theorem place_whole (before : List Char) (scanner : Scanner) (token : Token) :
    (scanner.place before token).before ++ (scanner.place before token).ahead = before ++ scanner.rest := by
  unfold place
  split
  · simp [takeWhile_append_dropWhile]
  · rw [← append_assoc, rdropWhile_append_rtakeWhile]

theorem place_count (before : List Char) (scanner : Scanner) (token : Token) :
    (scanner.place before token).before.count '\n' = before.count '\n' := by
  unfold place
  split
  · have count := count_dropWhile (by decide : isIndentChar '\n' = false) scanner.rest
    have parts := congrArg (List.count '\n') (@takeWhile_append_dropWhile _ isIndentChar scanner.rest)
    rw [count_append] at parts
    rw [count_append]
    omega
  · exact count_rdropWhile before

theorem openLine_fresh (scanner : Scanner) : scanner.openLine.atLineStart = false := by
  unfold openLine
  dsimp only
  split
  · rfl
  · split <;> rfl

/-- What holds when `before` has been passed of a text that started on line `first`. -/
structure Located (first : Nat) (before : List Char) (scanner : Scanner) : Prop where
  sound : scanner.Sound
  line : scanner.line = lineAfter first (before.count '\n')
  fresh : scanner.atLineStart = true → before = [] ∨ EndsLine before
  waits : ∀ token ∈ scanner.pending, token.line = scanner.line ∧
    Placed.Starts ⟨token, before.rdropWhile isIndentChar, before.rtakeWhile isIndentChar ++ scanner.rest⟩

theorem start_located (text : List Char) (low : first < 0x10000000000000000) : (start text first).Located first [] where
  sound := start_sound text first
  line := (Nat.mod_eq_of_lt low).symm
  fresh _ := .inl rfl
  waits _ member := by cases member

theorem Steps.passed_eq {front : List Char} (taken : Steps scanner token after)
    (parts : scanner.rest = front ++ after.rest) : Scanner.joined scanner.passed = front := by
  have whole := taken.passes.whole
  rw [parts] at whole
  exact append_cancel_right whole

theorem passed_opened (idle : scanner.pending = []) (fresh : scanner.atLineStart = true) (flat : scanner.depth = 0) :
    joined scanner.passed = scanner.rest.takeWhile isIndentChar := by
  apply (Steps.opened idle fresh flat).passed_eq
  rw [openLine_rest, takeWhile_append_dropWhile]

theorem Steps.passed_lineBreak {text : List Char} (taken : Steps scanner token after)
    (ahead : scanner.rest.dropWhile isIndentChar = '\n' :: text) (rest : after.rest = text) :
    EndsLine (before ++ Scanner.joined scanner.passed) := by
  have parts := @takeWhile_append_dropWhile _ isIndentChar scanner.rest
  rw [ahead, ← rest] at parts
  have passed : Scanner.joined scanner.passed = scanner.rest.takeWhile isIndentChar ++ ['\n'] :=
    taken.passed_eq (by simpa using parts.symm)
  rw [passed, ← append_assoc]
  exact List.getLast?_concat

theorem Steps.located (taken : Steps scanner token after) (located : scanner.Located first before) :
    after.Located first (before ++ Scanner.joined scanner.passed) := by
  have low : scanner.line < 0x10000000000000000 := by
    rw [located.line]
    exact lineAfter_lt _ _
  have idle_waits : after.pending = [] → ∀ token ∈ after.pending, token.line = after.line ∧ Placed.Starts
      ⟨token, (before ++ Scanner.joined scanner.passed).rdropWhile isIndentChar,
        (before ++ Scanner.joined scanner.passed).rtakeWhile isIndentChar ++ after.rest⟩ := by
    intro idle token member
    rw [idle] at member
    cases member
  refine ⟨taken.sound located.sound, ?_, ?_, ?_⟩
  · rw [taken.line_eq low taken.passes.whole.symm, located.line, lineAfter_lineAfter, count_append]
  · intro fresh
    have steps := taken
    cases taken with
    | queued waiting =>
      have idle := (located.sound.fresh fresh).2.2
      rw [waiting] at idle
      cases idle
    | opened =>
      rw [openLine_fresh] at fresh
      cases fresh
    | lineBreak _ _ ahead | blankBreak _ _ ahead => exact .inr (steps.passed_lineBreak ahead rfl)
    | lastBreak _ inside | lastDedent _ inside | ended _ inside | comment _ inside | joined _ inside
    | continued _ inside | unit _ inside =>
      have later := located.sound.not_fresh inside
      rw [later] at fresh
      cases fresh
  · have steps := taken
    cases taken with
    | @queued token more waiting =>
      have passed : Scanner.joined scanner.passed = [] := steps.passed_eq rfl
      rw [passed, append_nil]
      intro other member
      exact located.waits other (by simp [waiting, member])
    | opened idle fresh flat =>
      have blank : ∀ c ∈ scanner.rest.takeWhile isIndentChar, isIndentChar c = true :=
        all_eq_true.mp all_takeWhile
      intro token member
      obtain ⟨line, starts, layout⟩ := openLine_pending located.sound idle token member
      have start : (before ++ scanner.rest.takeWhile isIndentChar).rdropWhile isIndentChar = before :=
        rdropWhile_lineStart (located.fresh fresh) blank
      have blanks := @rdropWhile_append_rtakeWhile _ isIndentChar (before ++ scanner.rest.takeWhile isIndentChar)
      rw [start] at blanks
      rw [openLine_line, openLine_rest, passed_opened idle fresh flat, start, append_cancel_left blanks]
      refine ⟨line, ?_⟩
      cases ahead : scanner.rest.dropWhile isIndentChar with
      | nil =>
        rw [ahead] at starts
        cases starts
      | cons c more =>
        rw [ahead] at starts
        exact .opening (located.fresh fresh) blank (visible_ahead ahead) starts layout
    | lastBreak idle | lastDedent idle | ended idle | comment idle | joined idle | lineBreak idle | blankBreak idle
    | continued idle | unit idle => exact idle_waits idle

theorem Steps.starts {read : Token} (taken : Steps scanner (some read) after)
    (located : scanner.Located first before) :
    read.line = scanner.line ∧ (scanner.place before read).Starts := by
  unfold place
  cases taken with
  | @queued _ more waiting =>
    have some : scanner.pending ≠ [] := by simp [waiting]
    rw [if_neg some]
    exact located.waits read (by simp [waiting])
  | lastBreak idle inside ahead =>
    rw [if_pos idle, ahead]
    exact ⟨rfl, .final (.inl rfl)⟩
  | lastDedent idle inside ahead =>
    rw [if_pos idle, ahead]
    exact ⟨rfl, .final (.inr (.inl rfl))⟩
  | ended idle inside ahead =>
    rw [if_pos idle, ahead]
    exact ⟨rfl, .final (.inr (.inr rfl))⟩
  | lineBreak idle inside ahead =>
    rw [if_pos idle, ahead]
    exact ⟨rfl, .lineBreak⟩
  | unit idle inside ahead starts =>
    rw [if_pos idle, ahead]
    exact ⟨rfl, .unit (visible_ahead ahead) starts⟩

theorem blanks_passed (idle : scanner.pending = []) :
    scanner.rest.takeWhile isIndentChar <+: joined scanner.passed := by
  unfold passed
  rw [if_neg (by simp [idle])]
  split
  · exact prefix_append _ _
  · split <;> exact prefix_append _ _

def reached (before : List Char) (scanner : Scanner) : List Char :=
  if scanner.pending = [] then before else before.rdropWhile isIndentChar

theorem reached_place (before : List Char) (scanner : Scanner) (read : Token) :
    scanner.reached before <+: (scanner.place before read).before := by
  unfold reached place
  split
  · exact prefix_append _ _
  · exact prefix_rfl

theorem Steps.reached (taken : Steps scanner token after) (located : scanner.Located first before) :
    scanner.reached before <+: after.reached (before ++ Scanner.joined scanner.passed) ∧
      ∀ read ∈ token, (scanner.place before read).before <+: after.reached (before ++ Scanner.joined scanner.passed) := by
  have steps := taken
  have onward : scanner.pending = [] → after.pending = [] →
      scanner.reached before <+: after.reached (before ++ Scanner.joined scanner.passed) ∧
        ∀ read ∈ token, (scanner.place before read).before <+:
          after.reached (before ++ Scanner.joined scanner.passed) := by
    intro idle later
    unfold Scanner.reached place
    rw [if_pos idle, if_pos later]
    refine ⟨prefix_append _ _, fun read _ => ?_⟩
    rw [if_pos idle]
    exact (prefix_append_right_inj before).mpr (blanks_passed idle)
  cases taken with
  | @queued token more waiting =>
    have some : scanner.pending ≠ [] := by simp [waiting]
    have passed : Scanner.joined scanner.passed = [] := steps.passed_eq rfl
    rw [passed, append_nil]
    have later : before.rdropWhile isIndentChar <+: Scanner.reached before { scanner with pending := more } := by
      unfold Scanner.reached
      split
      · exact rdropWhile_prefix _ _
      · exact prefix_rfl
    constructor
    · rwa [Scanner.reached, if_neg some]
    · intro read found
      rwa [place, if_neg some]
  | opened idle fresh flat =>
    have blank : ∀ c ∈ scanner.rest.takeWhile isIndentChar, isIndentChar c = true :=
      all_eq_true.mp all_takeWhile
    refine ⟨?_, fun _ found => by cases found⟩
    rw [passed_opened idle fresh flat, Scanner.reached, if_pos idle, Scanner.reached]
    split
    · exact prefix_append _ _
    · have start := rdropWhile_lineStart (located.fresh fresh) blank
      exact ⟨[], (append_nil _).trans start.symm⟩
  | lastBreak idle | lastDedent idle | ended idle | comment idle | joined idle | lineBreak idle | blankBreak idle
  | continued idle | unit idle => exact onward idle idle

end Scanner

structure Token.Placed.At (first : Nat) (text : List Char) (placed : Placed) : Prop where
  whole : placed.before ++ placed.ahead = text
  starts : placed.Starts
  line : placed.token.line = lineAfter first (placed.before.count '\n')

namespace Scanner

variable {scanner : Scanner} {first : Nat} {before : List Char}

theorem tokens_placed (located : scanner.Located first before) :
    (scanner.placed before).map (·.token) = scanner.tokens ∧
      (∀ placed ∈ scanner.placed before,
        placed.At first (before ++ scanner.rest) ∧ scanner.reached before <+: placed.before) ∧
      (scanner.placed before).Pairwise (fun placed later => placed.before <+: later.before) := by
  -- along the run: a step places at most one token, and the others have its text before them
  induction scanner using run_induction generalizing before with
  | step scanner token after steps ih =>
    have taken := steps.step_eq
    have whole := steps.passes.whole
    have later := steps.located located
    obtain ⟨onward, past⟩ := steps.reached located
    rw [← whole, ← append_assoc]
    cases token with
    | none =>
      obtain ⟨same, at_, climbs⟩ := ih (by simp) later
      rw [placed_of_none taken, tokens_of_none taken]
      refine ⟨same, fun placed member => ?_, climbs⟩
      obtain ⟨stands, bound⟩ := at_ placed member
      exact ⟨stands, onward.trans bound⟩
    | some token =>
      obtain ⟨line, starts⟩ := steps.starts located
      have here : (scanner.place before token).At first (before ++ joined scanner.passed ++ after.rest) := by
        refine ⟨?_, starts, ?_⟩
        · rw [place_whole, append_assoc, whole]
        · rw [place_token, place_count, ← located.line, line]
      have low := reached_place before scanner token
      rw [placed_of_some taken]
      by_cases done : token.kind = .endOfInput
      · rw [tokens_of_end taken done, if_pos done]
        refine ⟨by simp, fun placed member => ?_, pairwise_singleton _ _⟩
        rw [mem_singleton.mp member]
        exact ⟨here, low⟩
      · obtain ⟨same, at_, climbs⟩ := ih (by simpa using done) later
        rw [tokens_of_some taken done, if_neg done]
        refine ⟨by simp [same], fun placed member => ?_,
          pairwise_cons.mpr ⟨fun placed member => ?_, climbs⟩⟩
        · rcases mem_cons.mp member with rfl | member
          · exact ⟨here, low⟩
          · exact ⟨(at_ placed member).1, onward.trans (at_ placed member).2⟩
        · exact (past token rfl).trans (at_ placed member).2

end Scanner

namespace Token

def places (text : String) (line : Nat) : List Placed := (Scanner.start text.toList line).placed []

variable {text : String} {first : Nat}

theorem places_tokens (low : first < 0x10000000000000000) : (places text first).map (·.token) = ofText text first :=
  (Scanner.tokens_placed (Scanner.start_located text.toList low)).1

theorem places_at (low : first < 0x10000000000000000) : ∀ placed ∈ places text first, placed.At first text.toList :=
  fun placed member => ((Scanner.tokens_placed (Scanner.start_located text.toList low)).2.1 placed member).1

theorem places_pairwise (low : first < 0x10000000000000000) :
    (places text first).Pairwise (fun placed later => placed.before <+: later.before) :=
  (Scanner.tokens_placed (Scanner.start_located text.toList low)).2.2

end Token
end SourceAudit
