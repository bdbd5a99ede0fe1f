import SourceAudit.Proofs.Scanner.TokenPlaces

namespace SourceAudit.Scanner

open Token

variable {scanner after : Scanner}

inductive Turns : Scanner → Nat → Token → Scanner → Prop where
  | last {scanner after : Scanner} {read : Token} (taken : scanner.step = (some read, after)) :
      Turns scanner 1 read after
  | skip {scanner middle after : Scanner} {turns : Nat} {read : Token} (taken : scanner.step = (none, middle))
      (more : Turns middle turns read after) : Turns scanner (turns + 1) read after

def afterCalls (scanner : Scanner) : Nat → Scanner
  | 0 => scanner
  | calls + 1 => scanner.next.2.afterCalls calls

theorem next_turns (scanner : Scanner) :
    ∃ turns, turns ≤ scanner.work + 1 ∧ Turns scanner turns scanner.next.1 scanner.next.2 := by
  fun_induction next scanner with
  | case1 scanner read after taken => exact ⟨1, by omega, .last taken⟩
  | case2 scanner after taken ih =>
    obtain ⟨turns, bound, more⟩ := ih
    have smaller := step_none_work taken
    exact ⟨turns + 1, by omega, .skip taken more⟩

theorem exists_lastCall (scanner : Scanner) :
    ∃ calls, calls ≤ scanner.work ∧ scanner.tokens = scanner.take (calls + 1) ∧
      (∀ call < calls, (scanner.afterCalls call).next.1.kind ≠ .endOfInput) ∧
      (scanner.afterCalls calls).next.1.kind = .endOfInput := by
  fun_induction tokens scanner with
  | case1 scanner final => exact ⟨0, by omega, rfl, by simp, final⟩
  | case2 scanner more ih =>
    obtain ⟨calls, bound, same, before, final⟩ := ih
    -- a call that does not report the end makes the work smaller
    have smaller := (next_work scanner).resolve_right more
    refine ⟨calls + 1, by omega, by rw [same]; rfl, ?_, final⟩
    intro call earlier
    cases call with
    | zero => exact more
    | succ call => exact before call (by omega)

structure Finished (scanner : Scanner) : Prop where
  idle : scanner.pending = []
  inside : ¬ (scanner.atLineStart = true ∧ scanner.depth = 0)
  read : scanner.rest = []
  blank : scanner.hasContent = false
  outermost : scanner.indents = [0]

theorem Finished.next (finished : scanner.Finished) :
    scanner.next = (⟨.endOfInput, "", scanner.line⟩, scanner) := by
  have ahead : scanner.rest.dropWhile isIndentChar = [] := by rw [finished.read]; rfl
  have ended := Steps.ended finished.idle finished.inside ahead finished.blank (by simp [finished.outermost])
  have same : { scanner with rest := [] } = scanner := by rw [← finished.read]
  rw [same] at ended
  exact next_of_some ended.step_eq

theorem Finished.afterCalls (finished : scanner.Finished) (calls : Nat) : scanner.afterCalls calls = scanner := by
  induction calls with
  | zero => rfl
  | succ calls ih => rw [Scanner.afterCalls, finished.next, ih]

theorem Sound.outermost_only (sound : scanner.Sound) (single : scanner.indents.length ≤ 1) :
    scanner.indents = [0] := by
  have outermost := sound.outermost
  rcases columns : scanner.indents with _ | ⟨column, _ | ⟨outer, more⟩⟩
  · simp [columns] at outermost
  · simpa [columns] using outermost
  · simp [columns] at single

theorem Queues.more (queues : scanner.Queues) : ∀ read ∈ scanner.pending, read.kind ≠ .endOfInput := by
  intro read member
  rcases (queues read member).2 with kind | kind | ⟨kind, _⟩ <;> rw [kind] <;> decide

theorem Steps.finished {read : Token} (taken : Steps scanner (some read) after) (sound : scanner.Sound)
    (queues : scanner.Queues) (final : read.kind = .endOfInput) :
    after.Finished ∧ read = ⟨.endOfInput, "", after.line⟩ := by
  cases taken with
  | queued waiting => exact absurd final (queues.more read (by simp [waiting]))
  | lastBreak | lastDedent | lineBreak => cases final
  | ended idle inside ahead blank outermost => exact ⟨⟨idle, inside, rfl, blank, sound.outermost_only outermost⟩, rfl⟩
  | unit _ _ ahead => exact absurd final (lexeme_goes_on ahead)

theorem exists_lastTurn (sound : scanner.Sound) (queues : scanner.Queues) :
    ∃ last : Scanner, last.Sound ∧ last.Queues ∧ Steps last (some scanner.next.1) scanner.next.2 := by
  fun_induction Scanner.next scanner with
  | case1 scanner read after taken =>
    have steps := step_steps scanner
    rw [taken] at steps
    exact ⟨scanner, sound, queues, steps⟩
  | case2 scanner after taken ih =>
    have steps := step_steps scanner
    rw [taken] at steps
    exact ih (steps.sound sound) (steps.queues sound queues)

theorem next_finished (sound : scanner.Sound) (queues : scanner.Queues)
    (final : scanner.next.1.kind = .endOfInput) :
    scanner.next.2.Finished ∧ scanner.next.1 = ⟨.endOfInput, "", scanner.next.2.line⟩ := by
  obtain ⟨last, sound', queues', steps⟩ := exists_lastTurn sound queues
  exact steps.finished sound' queues' final

theorem next_sound (sound : scanner.Sound) (queues : scanner.Queues) :
    scanner.next.2.Sound ∧ scanner.next.2.Queues := by
  obtain ⟨last, sound', queues', steps⟩ := exists_lastTurn sound queues
  exact ⟨steps.sound sound', steps.queues sound' queues'⟩

theorem afterCalls_sound (sound : scanner.Sound) (queues : scanner.Queues) (calls : Nat) :
    (scanner.afterCalls calls).Sound ∧ (scanner.afterCalls calls).Queues := by
  induction calls generalizing scanner with
  | zero => exact ⟨sound, queues⟩
  | succ calls ih =>
    obtain ⟨sound', queues'⟩ := next_sound sound queues
    exact ih sound' queues'

theorem afterCalls_add (scanner : Scanner) (first second : Nat) :
    scanner.afterCalls (first + second) = (scanner.afterCalls first).afterCalls second := by
  induction first generalizing scanner with
  | zero => rw [Nat.zero_add]; rfl
  | succ first ih =>
    rw [Nat.add_right_comm]
    exact ih scanner.next.2

theorem afterCalls_finished {calls call : Nat} (sound : scanner.Sound) (queues : scanner.Queues)
    (final : (scanner.afterCalls calls).next.1.kind = .endOfInput) (later : calls ≤ call) :
    (scanner.afterCalls call).next.1 = ⟨.endOfInput, "", (scanner.afterCalls calls).next.2.line⟩ ∧
      scanner.afterCalls (call + 1) = (scanner.afterCalls calls).next.2 ∧
      (scanner.afterCalls calls).next.2.Finished := by
  obtain ⟨sound', queues'⟩ := afterCalls_sound sound queues calls
  obtain ⟨finished, reported⟩ := next_finished sound' queues' final
  -- the state after the first report is a fixed point of `next`
  have done (extra : Nat) : scanner.afterCalls (calls + (extra + 1)) = (scanner.afterCalls calls).next.2 := by
    rw [afterCalls_add]
    exact finished.afterCalls extra
  obtain ⟨extra, rfl⟩ := Nat.exists_eq_add_of_le later
  refine ⟨?_, done extra, finished⟩
  cases extra with
  | zero => exact reported
  | succ extra => rw [done extra, finished.next]

/-- Every call of `next` ends. The calls come to the end of input, after at most five for each character and
    four more; from then on each call reports it again on the same line, with no block open and no token
    waiting. -/
theorem next_reaches_end (text : String) (line : Nat) :
    (∀ scanner : Scanner,
      ∃ turns, turns ≤ scanner.work + 1 ∧ Turns scanner turns scanner.next.1 scanner.next.2) ∧
    ∃ calls last, calls ≤ 5 * text.length + 4 ∧
      ofText text line = (start text.toList line).take (calls + 1) ∧
      (∀ call < calls, ((start text.toList line).afterCalls call).next.1.kind ≠ .endOfInput) ∧
      ∀ call, calls ≤ call →
        ((start text.toList line).afterCalls call).next.1 = ⟨.endOfInput, "", last⟩ ∧
        ((start text.toList line).afterCalls (call + 1)).indents = [0] ∧
        ((start text.toList line).afterCalls (call + 1)).pending = [] := by
  refine ⟨next_turns, ?_⟩
  obtain ⟨calls, bound, tokens, before, final⟩ := exists_lastCall (start text.toList line)
  refine ⟨calls, ((start text.toList line).afterCalls calls).next.2.line, ?_, tokens, before, ?_⟩
  · have length : text.toList.length = text.length := String.length_toList
    have started : (start text.toList line).work = 5 * text.toList.length + 4 := rfl
    omega
  · intro call later
    obtain ⟨reported, same, finished⟩ := afterCalls_finished (start_sound _ _) (start_queues _ _) final later
    rw [same]
    exact ⟨reported, finished.outermost, finished.idle⟩

def unclosed : String := "if a:\n  while b:\n    f(1, # c"

theorem next_reaches_end_unclosed :
    (ofText unclosed 7).length = 18 ∧
    ∃ calls last, calls ≤ 5 * unclosed.length + 4 ∧
      ofText unclosed 7 = (start unclosed.toList 7).take (calls + 1) ∧
      (∀ call < calls, ((start unclosed.toList 7).afterCalls call).next.1.kind ≠ .endOfInput) ∧
      ∀ call, calls ≤ call →
        ((start unclosed.toList 7).afterCalls call).next.1 = ⟨.endOfInput, "", last⟩ ∧
        ((start unclosed.toList 7).afterCalls (call + 1)).indents = [0] ∧
        ((start unclosed.toList 7).afterCalls (call + 1)).pending = [] :=
  ⟨by decide +kernel, (next_reaches_end _ _).2⟩

end SourceAudit.Scanner
