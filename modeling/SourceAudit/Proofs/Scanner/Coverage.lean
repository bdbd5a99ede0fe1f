import SourceAudit.Proofs.Scanner.Termination
import SourceAudit.Proofs.Scanner.UnitTexts

open List

namespace SourceAudit

namespace Token

/-- What may stand before `rest` without being part of a token. A comment goes to the end of its line. -/
inductive Skippable (rest : List Char) : List Char → Prop where
  | nothing : Skippable rest []
  | blank {c : Char} {gap : List Char} (blank : isIndentChar c = true) (more : Skippable rest gap) :
      Skippable rest (c :: gap)
  | lineBreak {gap : List Char} (more : Skippable rest gap) : Skippable rest ('\n' :: gap)
  | joint {gap : List Char} (more : Skippable rest gap) : Skippable rest ('\\' :: '\n' :: gap)
  | comment {line gap : List Char} (inner : '\n' ∉ line) (ends : ∀ c ∈ (gap ++ rest).head?, c = '\n')
      (more : Skippable rest gap) : Skippable rest ('#' :: (line ++ gap))

theorem Skippable.append {gap gap' rest : List Char} (first : Skippable (gap' ++ rest) gap)
    (second : Skippable rest gap') : Skippable rest (gap ++ gap') := by
  induction first with
  | nothing => exact second
  | blank blank _ ih => exact .blank blank ih
  | lineBreak _ ih => exact .lineBreak ih
  | joint _ ih => exact .joint ih
  | comment inner ends _ ih =>
    rw [cons_append, append_assoc]
    refine .comment inner ?_ ih
    rwa [append_assoc]

theorem Skippable.blanks {gap : List Char} (rest : List Char) (blank : ∀ c ∈ gap, isIndentChar c = true) :
    Skippable rest gap := by
  induction gap with
  | nil => exact .nothing
  | cons c gap ih => exact .blank (blank c (by simp)) (ih fun d member => blank d (by simp [member]))

theorem Skippable.takeWhile (text rest : List Char) : Skippable rest (text.takeWhile isIndentChar) :=
  .blanks rest (all_eq_true.mp all_takeWhile)

structure Cut where
  token : Token
  ahead : List Char
  rest : List Char
deriving DecidableEq, Repr

/-- A text from which tokens are cut one after another. Only what may be skipped is left between them. -/
inductive Tiles : List Char → List Cut → Prop where
  | last {gap : List Char} (skips : Skippable [] gap) : Tiles gap []
  | cut {gap source rest : List Char} {token : Token} {cuts : List Cut} (skips : Skippable (source ++ rest) gap)
      (present : source ≠ []) (spells : WrittenAs token.kind token.text.toList (source ++ rest) source)
      (more : Tiles rest cuts) : Tiles (gap ++ (source ++ rest)) (⟨token, source ++ rest, rest⟩ :: cuts)

theorem Tiles.skipped {gap text : List Char} {cuts : List Cut} (skips : Skippable text gap) (tiles : Tiles text cuts) :
    Tiles (gap ++ text) cuts := by
  cases tiles with
  | last skips' =>
    refine .last (Skippable.append ?_ skips')
    rwa [append_nil]
  | cut skips' present spells more =>
    rw [← append_assoc]
    exact .cut (skips.append skips') present spells more

end Token

namespace Scanner

open Token

def waitingText (pending : List Token) : List Char :=
  pending.flatMap fun token => if token.kind.isLayout then [] else token.text.toList

def unread (scanner : Scanner) : List Char := waitingText scanner.pending ++ scanner.rest

def cut (scanner : Scanner) (token : Token) : Cut where
  token := token
  ahead := if scanner.pending = [] then scanner.rest.dropWhile isIndentChar else scanner.unread
  rest := scanner.step.2.unread

def cuts (scanner : Scanner) : List Cut :=
  match _taken : scanner.step with
  | (none, after) => after.cuts
  | (some token, after) =>
    if token.kind = .endOfInput then []
    else if token.kind.isLayout then after.cuts
    else scanner.cut token :: after.cuts
termination_by scanner.work
decreasing_by
  · exact step_none_work _taken
  · exact step_some_work _taken ‹_›
  · exact step_some_work _taken ‹_›

variable {scanner after : Scanner} {token : Option Token}

theorem cuts_of_none (taken : scanner.step = (none, after)) : scanner.cuts = after.cuts := by
  rw [cuts]
  split
  · rename_i taken'
    rw [taken] at taken'
    cases taken'
    rfl
  · rename_i taken'
    rw [taken] at taken'
    cases taken'

theorem cuts_of_some {token : Token} (taken : scanner.step = (some token, after)) :
    scanner.cuts = if token.kind = .endOfInput then [] else if token.kind.isLayout then after.cuts
      else scanner.cut token :: after.cuts := by
  rw [cuts]
  split
  · rename_i taken'
    rw [taken] at taken'
    cases taken'
  · rename_i taken'
    rw [taken] at taken'
    cases taken'
    rfl

/-- What a step does with the text that is not read yet: it skips some, or it cuts a token from it. -/
inductive Moves (scanner after : Scanner) : Option Token → Prop where
  | skips {token : Option Token} {gap : List Char} (layout : ∀ read ∈ token, read.kind.isLayout = true)
      (whole : scanner.unread = gap ++ after.unread) (skips : Skippable after.unread gap) : Moves scanner after token
  | reads {token : Token} {gap source : List Char} (content : token.kind.isLayout = false)
      (whole : scanner.unread = gap ++ (source ++ after.unread)) (skips : Skippable (source ++ after.unread) gap)
      (present : source ≠ []) (spells : WrittenAs token.kind token.text.toList (source ++ after.unread) source)
      (cut : scanner.cut token = ⟨token, source ++ after.unread, after.unread⟩) : Moves scanner after (some token)

theorem unread_idle (idle : scanner.pending = []) : scanner.unread = scanner.rest := by
  rw [unread, idle]
  rfl

theorem openLine_waitingText (idle : scanner.pending = []) :
    waitingText scanner.openLine.pending = [] ∨
      waitingText scanner.openLine.pending = scanner.rest.takeWhile isIndentChar := by
  unfold openLine
  dsimp only
  split
  · rw [idle]
    exact .inl rfl
  · split
    · exact .inl rfl
    · dsimp only
      generalize scanner.indents.takeWhile _ = closed
      have layout : waitingText (closed.map fun _ => (⟨.dedent, "", scanner.line⟩ : Token)) = [] := by
        simp [waitingText, Kind.isLayout]
      unfold waitingText at layout ⊢
      rw [flatMap_append, layout, nil_append]
      split
      · exact .inl rfl
      · right
        simp [Kind.isLayout]

theorem Moves.idle {gap : List Char} (layout : ∀ read ∈ token, read.kind.isLayout = true)
    (idle : scanner.pending = []) (idle' : after.pending = []) (whole : scanner.rest = gap ++ after.rest)
    (skips : Skippable after.rest gap) : Moves scanner after token := by
  rw [← unread_idle idle, ← unread_idle idle'] at whole
  rw [← unread_idle idle'] at skips
  exact .skips layout whole skips

theorem Moves.queued {read : Token} {more : List Token} (queues : scanner.Queues)
    (waiting : scanner.pending = read :: more) : Moves scanner { scanner with pending := more } (some read) := by
  have text : scanner.unread = (if read.kind.isLayout then [] else read.text.toList) ++
      unread { scanner with pending := more } := by
    unfold unread
    rw [waiting, waitingText, flatMap_cons, append_assoc]
    rfl
  have layout : read.kind = .indent ∨ read.kind = .dedent → Moves scanner { scanner with pending := more } (some read) := by
    intro kind
    have layout : read.kind.isLayout = true := by rcases kind with kind | kind <;> rw [kind] <;> rfl
    rw [layout] at text
    refine .skips ?_ text .nothing
    rintro _ ⟨⟩
    exact layout
  rcases (queues read (by simp [waiting])).2 with kind | kind | ⟨kind, present, _⟩
  · exact layout (.inl kind)
  · exact layout (.inr kind)
  · have content : read.kind.isLayout = false := by rw [kind]; rfl
    rw [content] at text
    have whole : scanner.unread = [] ++ (read.text.toList ++ unread { scanner with pending := more }) := text
    refine .reads content whole .nothing present ⟨fun _ => rfl, fun _ _ => rfl, fun operator => ?_⟩ ?_
    · rw [kind] at operator
      cases operator
    · rw [cut, if_neg (by simp [waiting]), (Steps.queued waiting).step_eq, whole]
      rfl

theorem Moves.opened (idle : scanner.pending = []) : Moves scanner scanner.openLine none := by
  have parts := @takeWhile_append_dropWhile _ isIndentChar scanner.rest
  have nothing : ∀ read ∈ (none : Option Token), read.kind.isLayout = true := by simp
  rcases openLine_waitingText idle with taken | waits
  · refine .skips nothing ?_ (Skippable.takeWhile scanner.rest _)
    rw [unread_idle idle, unread, taken, openLine_rest, nil_append, parts]
  · have whole : scanner.unread = [] ++ scanner.openLine.unread := by
      rw [unread_idle idle, unread, waits, openLine_rest, parts]
      rfl
    exact .skips nothing whole .nothing

theorem Moves.unit {c : Char} {text : List Char} (idle : scanner.pending = [])
    (inside : ¬ (scanner.atLineStart = true ∧ scanner.depth = 0))
    (ahead : scanner.rest.dropWhile isIndentChar = c :: text) (starts : isBlankLine (c :: text) = false)
    (idle' : after.pending = []) (rest : after.rest = (lexeme c text).rest) :
    Moves scanner after (some ⟨(lexeme c text).kind, String.ofList (lexeme c text).text, scanner.line⟩) := by
  have parts := @takeWhile_append_dropWhile _ isIndentChar scanner.rest
  have other : c ≠ '#' := by
    rintro rfl
    cases starts
  obtain ⟨front, takes⟩ := lexeme_takes other text
  have present : front ≠ [] := by
    rintro rfl
    have shorter := lexeme_rest_lt c text
    rw [← takes.whole, nil_append] at shorter
    omega
  have spells := lexeme_writtenAs takes.whole
  rw [← takes.whole] at spells
  have step_eq := (Steps.unit idle inside ahead starts).step_eq
  have left : after.unread = (lexeme c text).rest := by rw [unread_idle idle', rest]
  refine .reads (lexeme_written text (visible_ahead ahead)).1 ?_ (Skippable.takeWhile scanner.rest _) present ?_ ?_
  · rw [left, takes.whole, ← ahead, parts, unread_idle idle]
  · rw [left]
    simpa using spells
  · rw [cut, if_pos idle, step_eq, ahead, left, takes.whole]
    congr 1
    exact unread_idle idle

theorem Steps.moves (taken : Steps scanner token after) (queues : scanner.Queues) : Moves scanner after token := by
  have parts := @takeWhile_append_dropWhile _ isIndentChar scanner.rest
  have blanks := Skippable.takeWhile scanner.rest
  have layout : ∀ {kind : Kind} {text : String}, kind.isLayout = true →
      ∀ read ∈ some (⟨kind, text, scanner.line⟩ : Token), read.kind.isLayout = true := by
    rintro kind text layout _ ⟨⟩
    exact layout
  have nothing : ∀ read ∈ (none : Option Token), read.kind.isLayout = true := by simp
  cases taken with
  | queued waiting => exact .queued queues waiting
  | opened idle => exact .opened idle
  | lastBreak idle inside ahead | lastDedent idle inside ahead | ended idle inside ahead =>
    rw [ahead] at parts
    exact .idle (layout rfl) idle idle parts.symm (blanks [])
  | @comment text idle inside ahead =>
    have line := @takeWhile_append_dropWhile _ (fun c => decide (c ≠ '\n')) text
    have ends : ∀ c ∈ ([] ++ text.dropWhile (· ≠ '\n')).head?, c = '\n' := by
      intro c found
      have head := List.head?_dropWhile_not (fun c => decide (c ≠ '\n')) text
      rw [nil_append, Option.mem_def] at found
      rw [found] at head
      simpa using head
    have inner : '\n' ∉ text.takeWhile (· ≠ '\n') := not_mem_takeWhile (by decide) text
    rw [ahead, ← line] at parts
    refine .idle nothing idle idle ?_ (.append (blanks _) (.comment inner ends .nothing))
    simpa using parts.symm
  | joined idle inside ahead =>
    rw [ahead] at parts
    refine .idle nothing idle idle ?_ (.append (blanks _) (.lineBreak .nothing))
    simpa using parts.symm
  | lineBreak idle inside ahead =>
    rw [ahead] at parts
    refine .idle (layout rfl) idle idle ?_ (.append (blanks _) (.lineBreak .nothing))
    simpa using parts.symm
  | blankBreak idle inside ahead =>
    rw [ahead] at parts
    refine .idle nothing idle idle ?_ (.append (blanks _) (.lineBreak .nothing))
    simpa using parts.symm
  | continued idle inside ahead =>
    rw [ahead] at parts
    refine .idle nothing idle idle ?_ (.append (blanks _) (.joint .nothing))
    simpa using parts.symm
  | unit idle inside ahead starts => exact .unit idle inside ahead starts idle rfl

theorem Finished.unread (finished : scanner.Finished) : scanner.unread = [] := by
  rw [unread_idle finished.idle, finished.read]

theorem tiles_cuts (sound : scanner.Sound) (queues : scanner.Queues) : Tiles scanner.unread scanner.cuts := by
  -- along the run: what a step skips or cuts off stands before the tiling of what is left
  induction scanner using run_induction with
  | step scanner token after steps ih =>
    have taken := steps.step_eq
    have onward := fun more => ih more (steps.sound sound) (steps.queues sound queues)
    have moves := steps.moves queues
    cases token with
    | none =>
      have more := onward (by simp)
      rw [cuts_of_none taken]
      cases moves with
      | skips _ whole skips =>
        rw [whole]
        exact more.skipped skips
    | some token =>
      rw [cuts_of_some taken]
      by_cases done : token.kind = .endOfInput
      · rw [if_pos done]
        cases moves with
        | skips _ whole skips =>
          rw [(steps.finished sound queues done).1.unread] at whole skips
          rw [whole, append_nil]
          exact .last skips
        | reads content =>
          rw [done] at content
          cases content
      · rw [if_neg done]
        have more := onward (by simpa using done)
        cases moves with
        | skips layout whole skips =>
          rw [if_pos (layout token rfl), whole]
          exact more.skipped skips
        | reads content whole skips present spells cut =>
          rw [if_neg (by simp [content]), whole, cut]
          exact .cut skips present spells more

theorem cuts_tokens (scanner : Scanner) :
    scanner.cuts.map (·.token) = scanner.tokens.filter (!·.kind.isLayout) := by
  induction scanner using run_induction with
  | step scanner token after steps ih =>
    have taken := steps.step_eq
    cases token with
    | none =>
      rw [cuts_of_none taken, tokens_of_none taken]
      exact ih (by simp)
    | some token =>
      rw [cuts_of_some taken]
      by_cases done : token.kind = .endOfInput
      · rw [if_pos done, tokens_of_end taken done]
        simp [done, Kind.isLayout]
      · have more := ih (by simpa using done)
        rw [if_neg done, tokens_of_some taken done, filter_cons]
        cases token.kind.isLayout
        · exact congrArg (List.cons token) more
        · exact more

end Scanner

namespace Token

/-- A token with the places of its first character and of the one after its last, counted from zero. -/
structure Span where
  token : Token
  start : Nat
  stop : Nat
deriving DecidableEq, Repr

namespace Span

def Covers (span : Span) (place : Nat) : Prop := span.start ≤ place ∧ place < span.stop

def source (text : List Char) (span : Span) : List Char := (text.drop span.start).take (span.stop - span.start)

end Span

def Cut.span (size : Nat) (cut : Cut) : Span := ⟨cut.token, size - cut.ahead.length, size - cut.rest.length⟩

def spans (text : String) (line : Nat) : List Span :=
  (Scanner.start text.toList line).cuts.map (Cut.span text.toList.length)

def Covered (spans : List Span) (place : Nat) : Prop := ∃ span ∈ spans, span.Covers place

structure CommentAt (text : List Char) (covered : Nat → Prop) (start stop : Nat) : Prop where
  hash : text[start]? = some '#'
  free : ∀ place, start ≤ place → place < stop → ¬ covered place ∧ text[place]? ≠ some '\n'
  ends : text[stop]? = none ∨ text[stop]? = some '\n'

/-- Why a character is in no token. -/
inductive SkippedAt (text : List Char) (covered : Nat → Prop) (place : Nat) : Prop where
  | blank {c : Char} (here : text[place]? = some c) (blank : isIndentChar c = true)
  | lineBreak (here : text[place]? = some '\n')
  | joint (here : text[place]? = some '\\') (next : text[place + 1]? = some '\n')
  | comment {start stop : Nat} (comment : CommentAt text covered start stop) (after : start ≤ place)
      (before : place < stop)

theorem drop_past {text front back : List Char} {first : Nat} (whole : text.drop first = front ++ back) :
    text.drop (first + front.length) = back := by
  rw [← drop_drop, whole, drop_left]

theorem getElem?_of_drop {text back : List Char} {first : Nat} (whole : text.drop first = back) (offset : Nat) :
    text[first + offset]? = back[offset]? := by
  rw [← whole, List.getElem?_drop]

theorem commentAt_of_drop {text line back : List Char} {covered : Nat → Prop} {first : Nat}
    (whole : text.drop first = ('#' :: line) ++ back) (inner : '\n' ∉ line) (ends : ∀ c ∈ back.head?, c = '\n')
    (free : ∀ place, first ≤ place → place < first + ('#' :: line).length → ¬ covered place) :
    CommentAt text covered first (first + ('#' :: line).length) where
  hash := getElem?_of_drop whole 0
  free place low high := by
    refine ⟨free place low high, fun found => ?_⟩
    obtain ⟨offset, rfl⟩ := Nat.exists_eq_add_of_le low
    rw [getElem?_of_drop whole, List.getElem?_append_left (by omega)] at found
    have member := mem_of_getElem? found
    simp [inner] at member
  ends := by
    rw [getElem?_of_drop whole, List.getElem?_append_right (Nat.le_refl _), Nat.sub_self]
    cases back with
    | nil => exact .inl rfl
    | cons c back =>
      right
      simpa using ends c

theorem Skippable.skippedAt {text gap rest : List Char} {covered : Nat → Prop} {first place : Nat}
    (skips : Skippable rest gap) (whole : text.drop first = gap ++ rest)
    (free : ∀ place, first ≤ place → place < first + gap.length → ¬ covered place)
    (low : first ≤ place) (high : place < first + gap.length) : SkippedAt text covered place := by
  -- a place behind the first part of the gap is in what the rest of the gap skips
  induction skips generalizing first with
  | nothing =>
    rw [length_nil] at high
    omega
  | @blank c gap blank _ ih =>
    have next : text.drop (first + 1) = gap ++ rest := @drop_past _ [c] _ _ whole
    rw [length_cons] at free high
    by_cases here : place = first
    · subst here
      exact .blank (getElem?_of_drop whole 0) blank
    · exact ih next (fun place low high => free place (by omega) (by omega)) (by omega) (by omega)
  | @lineBreak gap _ ih =>
    have next : text.drop (first + 1) = gap ++ rest := @drop_past _ ['\n'] _ _ whole
    rw [length_cons] at free high
    by_cases here : place = first
    · subst here
      exact .lineBreak (getElem?_of_drop whole 0)
    · exact ih next (fun place low high => free place (by omega) (by omega)) (by omega) (by omega)
  | @joint gap _ ih =>
    have next : text.drop (first + 2) = gap ++ rest := @drop_past _ ['\\', '\n'] _ _ whole
    rw [length_cons, length_cons] at free high
    by_cases here : place = first
    · subst here
      exact .joint (getElem?_of_drop whole 0) (getElem?_of_drop whole 1)
    · by_cases second : place = first + 1
      · subst second
        exact .lineBreak (getElem?_of_drop whole 1)
      · exact ih next (fun place low high => free place (by omega) (by omega)) (by omega) (by omega)
  | @comment line gap inner ends _ ih =>
    have whole : text.drop first = ('#' :: line) ++ (gap ++ rest) := by
      rw [whole, cons_append, append_assoc, cons_append]
    have next := drop_past whole
    rw [length_cons, length_append] at free high
    by_cases here : place < first + ('#' :: line).length
    · refine .comment (commentAt_of_drop whole inner ends ?_) low here
      intro place low high
      rw [length_cons] at high
      exact free place low (by omega)
    · rw [length_cons] at here next
      exact ih next (fun place low high => free place (by omega) (by omega)) (by omega) (by omega)

structure Span.Fits (text : List Char) (span : Span) : Prop where
  present : span.start < span.stop
  inside : span.stop ≤ text.length
  spells : WrittenAs span.token.kind span.token.text.toList (text.drop span.start) (span.source text)

variable {text unread : List Char} {cuts : List Cut} {first : Nat}

theorem span_of_drop {gap source rest : List Char} (token : Token) (bound : first ≤ text.length)
    (whole : text.drop first = gap ++ (source ++ rest)) :
    Cut.span text.length ⟨token, source ++ rest, rest⟩ =
      ⟨token, first + gap.length, first + gap.length + source.length⟩ := by
  have lengths := congrArg List.length whole
  rw [length_drop, length_append, length_append] at lengths
  unfold Cut.span
  dsimp only
  rw [length_append]
  congr 1 <;> omega

theorem Tiles.fits (tiles : Tiles unread cuts) (bound : first ≤ text.length) (whole : text.drop first = unread) :
    ∀ span ∈ cuts.map (Cut.span text.length), first ≤ span.start ∧ span.Fits text := by
  induction tiles generalizing first with
  | last => simp
  | @cut gap source rest token cuts skips present spells _ ih =>
    have ahead := drop_past whole
    have behind := drop_past ahead
    have lengths := congrArg List.length whole
    rw [length_drop, length_append, length_append] at lengths
    have some := length_pos_iff.mpr present
    rw [map_cons, span_of_drop token bound whole]
    intro span member
    rcases mem_cons.mp member with rfl | member
    · dsimp only
      refine ⟨by omega, by dsimp only; omega, by dsimp only; omega, ?_⟩
      dsimp only [Span.source]
      rw [ahead, Nat.add_sub_cancel_left, take_left]
      exact spells
    · obtain ⟨low, fits⟩ := ih (by omega) behind span member
      exact ⟨by omega, fits⟩

theorem Tiles.pairwise (tiles : Tiles unread cuts) (bound : first ≤ text.length) (whole : text.drop first = unread) :
    (cuts.map (Cut.span text.length)).Pairwise (fun span later => span.stop ≤ later.start) := by
  induction tiles generalizing first with
  | last => exact .nil
  | @cut gap source rest token cuts skips present spells more ih =>
    have behind := drop_past (drop_past whole)
    have lengths := congrArg List.length whole
    rw [length_drop, length_append, length_append] at lengths
    rw [map_cons, span_of_drop token bound whole]
    refine pairwise_cons.mpr ⟨fun span member => ?_, ih (by omega) behind⟩
    exact (more.fits (by omega) behind span member).1

theorem Tiles.covered_or_skipped {covered : Nat → Prop} {place : Nat} (tiles : Tiles unread cuts)
    (bound : first ≤ text.length) (whole : text.drop first = unread)
    (same : ∀ place, first ≤ place → (covered place ↔ Covered (cuts.map (Cut.span text.length)) place))
    (low : first ≤ place) (high : place < text.length) : covered place ∨ SkippedAt text covered place := by
  induction tiles generalizing first with
  | @last gap skips =>
    have lengths := congrArg List.length whole
    rw [length_drop] at lengths
    have free : ∀ place, first ≤ place → place < first + gap.length → ¬ covered place := by
      intro place low _ held
      obtain ⟨span, member, _⟩ := (same place low).mp held
      cases member
    right
    exact skips.skippedAt (by rw [whole, append_nil]) free low (by omega)
  | @cut gap source rest token cuts skips present spells more ih =>
    have behind := drop_past (drop_past whole)
    have lengths := congrArg List.length whole
    rw [length_drop, length_append, length_append] at lengths
    have later := more.fits (by omega) behind
    rw [map_cons, span_of_drop token bound whole] at same
    by_cases before : place < first + gap.length
    · right
      refine skips.skippedAt whole ?_ low before
      intro place low high held
      obtain ⟨span, member, start, _⟩ := (same place low).mp held
      rcases mem_cons.mp member with rfl | member
      · dsimp only at start
        omega
      · have := (later span member).1
        omega
    by_cases inside : place < first + gap.length + source.length
    · left
      refine (same place low).mpr ⟨_, mem_cons_self, ?_, ?_⟩
      · dsimp only
        omega
      · exact inside
    · refine ih (by omega) behind (fun place low => ?_) (by omega)
      rw [same place (by omega)]
      constructor
      · rintro ⟨span, member, start, stop⟩
        rcases mem_cons.mp member with rfl | member
        · dsimp only at stop
          omega
        · exact ⟨span, member, start, stop⟩
      · rintro ⟨span, member, held⟩
        exact ⟨span, mem_cons_of_mem _ member, held⟩

theorem unquoted_of_fault {token : Token} (illegal : token.kind = .illegal)
    (other : token.fault? ≠ some .unterminatedString) : token.text.toList.head?.any isQuote = false := by
  unfold fault? at other
  rw [if_pos illegal] at other
  cases written : token.text.toList with
  | nil => rfl
  | cons c text =>
    rw [written] at other
    cases quoted : isQuote c with
    | false => simpa using quoted
    | true => simp [quoted] at other

theorem tiles_start (text : String) (line : Nat) : Tiles text.toList (Scanner.start text.toList line).cuts :=
  Scanner.tiles_cuts (Scanner.start_sound _ _) (Scanner.start_queues _ _)

theorem spans_fit (text : String) (line : Nat) : ∀ span ∈ spans text line, span.Fits text.toList :=
  fun span member => ((tiles_start text line).fits (Nat.zero_le _) rfl span member).2

/-- No text is lost: the tokens apart from layout stand one after another, and what is in none of them is a
    blank, a line break, a comment or a joint of two lines. Words, symbols and illegal characters are written
    as they stand, and an operator is the longest one that fits. -/
theorem ofText_covers (text : String) (line : Nat) :
    (spans text line).map (·.token) = (ofText text line).filter (!·.kind.isLayout) ∧
    (spans text line).Pairwise (fun span later => span.stop ≤ later.start) ∧
    (∀ span ∈ spans text line, span.start < span.stop ∧ span.stop ≤ text.length) ∧
    (∀ place < text.length, Covered (spans text line) place ∨
      SkippedAt text.toList (Covered (spans text line)) place) ∧
    ∀ span ∈ spans text line,
      (span.token.kind.isVerbatim = true ∨ span.token.kind = .illegal ∧
          (span.token.fault? ≠ some .unterminatedString ∨ span.stop = span.start + 1) →
        span.token.text.toList = span.source text.toList) ∧
      (span.token.kind = .operator → IsLongestOperator (text.toList.drop span.start) span.token.text) := by
  have tiles := tiles_start text line
  rw [← String.length_toList]
  refine ⟨?_, tiles.pairwise (Nat.zero_le _) rfl, ?_, ?_, ?_⟩
  · rw [spans, map_map]
    exact Scanner.cuts_tokens _
  · intro span member
    have fits := spans_fit text line span member
    exact ⟨fits.present, fits.inside⟩
  · intro place high
    exact tiles.covered_or_skipped (Nat.zero_le _) rfl (fun _ _ => Iff.rfl) (Nat.zero_le _) high
  · intro span member
    have fits := spans_fit text line span member
    refine ⟨?_, fun operator => ?_⟩
    · rintro (verbatim | ⟨illegal, plain⟩)
      · exact fits.spells.verbatim verbatim
      · refine fits.spells.illegal illegal (plain.imp ?_ ?_)
        · exact unquoted_of_fault illegal
        · intro single
          have inside := fits.inside
          rw [Span.source, length_take, length_drop]
          omega
    · have longest := fits.spells.operator operator
      rwa [String.ofList_toList] at longest

def mixedText : String := "if x:\n    y **= \'#\' # \"z\n  $ \\\n r\"a\n"

theorem ofText_covers_mixedText :
    spans mixedText 1 =
      [⟨⟨.keyword, "if", 1⟩, 0, 2⟩, ⟨⟨.identifier, "x", 1⟩, 3, 4⟩, ⟨⟨.delimiter, ":", 1⟩, 4, 5⟩,
        ⟨⟨.identifier, "y", 2⟩, 10, 11⟩, ⟨⟨.operator, "**=", 2⟩, 12, 15⟩, ⟨⟨.string, "#", 2⟩, 16, 19⟩,
        ⟨⟨.illegal, "  ", 3⟩, 25, 27⟩, ⟨⟨.illegal, "$", 3⟩, 27, 28⟩, ⟨⟨.illegal, "\"a", 4⟩, 32, 35⟩] ∧
    SkippedAt mixedText.toList (Covered (spans mixedText 1)) 22 ∧
    IsLongestOperator (mixedText.toList.drop 12) "**=" ∧
    ['$'] = Span.source mixedText.toList ⟨⟨.illegal, "$", 3⟩, 27, 28⟩ := by
  have here : spans mixedText 1 =
      [⟨⟨.keyword, "if", 1⟩, 0, 2⟩, ⟨⟨.identifier, "x", 1⟩, 3, 4⟩, ⟨⟨.delimiter, ":", 1⟩, 4, 5⟩,
        ⟨⟨.identifier, "y", 2⟩, 10, 11⟩, ⟨⟨.operator, "**=", 2⟩, 12, 15⟩, ⟨⟨.string, "#", 2⟩, 16, 19⟩,
        ⟨⟨.illegal, "  ", 3⟩, 25, 27⟩, ⟨⟨.illegal, "$", 3⟩, 27, 28⟩, ⟨⟨.illegal, "\"a", 4⟩, 32, 35⟩] := by
    decide +kernel
  obtain ⟨_, _, _, places, texts⟩ := ofText_covers mixedText 1
  refine ⟨here, (places 22 (by decide)).resolve_left ?_, ?_, ?_⟩
  · rw [here]
    simp [Covered, Span.Covers]
  · exact (texts ⟨⟨.operator, "**=", 2⟩, 12, 15⟩ (by simp [here])).2 rfl
  · exact (texts ⟨⟨.illegal, "$", 3⟩, 27, 28⟩ (by simp [here])).1 (.inr ⟨rfl, .inr rfl⟩)

end Token
end SourceAudit
