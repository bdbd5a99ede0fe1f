import Mathlib.Data.List.Forall2
import SourceAudit.Proofs.Scanner.Relocation
import SourceAudit.Proofs.Scanner.TrailingComments

open List

namespace SourceAudit

namespace Token

inductive EmptyLine : List Char → Prop where
  | intro {blanks comment : List Char} (blank : ∀ c ∈ blanks, isIndentChar c = true)
      (hash : ∀ c ∈ comment.head?, c = '#') (inner : '\n' ∉ comment) : EmptyLine (blanks ++ comment ++ ['\n'])

theorem EmptyLine.ahead {line : List Char} (empty : EmptyLine line) (back : List Char) :
    (line ++ back).dropWhile isIndentChar = '\n' :: back ∨
      ∃ more, (line ++ back).dropWhile isIndentChar = '#' :: more ∧ more.dropWhile (· ≠ '\n') = '\n' :: back := by
  obtain ⟨blank, hash, inner⟩ := empty
  rename_i blanks comment
  rw [append_assoc, append_assoc, dropWhile_append_of_pos blank]
  cases comment with
  | nil => exact .inl rfl
  | cons c comment =>
    cases hash c rfl
    refine .inr ⟨comment ++ '\n' :: back, by simp [isIndentChar], ?_⟩
    rw [dropWhile_append_of_pos]
    · simp
    · intro d member
      have other : d ≠ '\n' := fun same => inner (same ▸ mem_cons_of_mem _ member)
      simpa using other

theorem EmptyLine.wordless {line : List Char} (empty : EmptyLine line) (back : List Char) :
    ((line ++ back).dropWhile fun c => c == ' ' || c == '\t').takeWhile Text.isIdentifierChar = [] := by
  rcases empty.ahead back with ahead | ⟨more, ahead, _⟩
  · exact wordless_of_ahead ahead (by decide)
  · exact wordless_of_ahead ahead (by decide)

end Token

namespace Scanner

open Token

variable {scanner after last : Scanner} {token : Option Token} {line back : List Char} {read : List Token}

theorem startsStatement_emptyLine (empty : EmptyLine line) (back : List Char) :
    scanner.startsStatement (line ++ back) = false := by
  have nameless : bracketEnders.contains (String.ofList []) = false := by decide
  unfold startsStatement
  rw [empty.wordless, nameless, Bool.and_false]

theorem tokens_emptyLine (empty : EmptyLine line) (idle : scanner.pending = [])
    (inside : ¬ (scanner.atLineStart = true ∧ scanner.depth = 0)) (rest : scanner.rest = line ++ back) :
    scanner.tokens = { scanner with rest := '\n' :: back }.tokens := by
  rcases empty.ahead back with ahead | ⟨more, ahead, ends⟩
  · rw [tokens_congr (step_ahead idle inside), rest, ahead]
  · rw [tokens_comment idle inside (by rw [rest, ahead]), ends]

theorem between_emptyLine (empty : EmptyLine line) (back : List Char) (number : Nat) (columns : List Nat) :
    (between (line ++ back) number columns true).tokens =
      (between back (lineAfter number 1) columns true).tokens := by
  rcases empty.ahead back with ahead | ⟨more, ahead, ends⟩
  · exact between_break ahead number columns true
  · rw [between_comment ahead, ends]
    exact between_break (by simp [isIndentChar]) number columns false

/-- The last line break of the text is reached inside brackets. -/
structure Hangs (scanner : Scanner) : Prop where
  idle : scanner.pending = []
  nested : 0 < scanner.depth
  ahead : scanner.rest.dropWhile isIndentChar = ['\n']

/-- The tokens of a text up to the end of its last line, whatever follows. Inside brackets the last line
    break is still left to read, since it depends on what follows. -/
structure Edge (scanner last : Scanner) (read : List Token) : Prop where
  tokens : ∀ back, (scanner.onto back).tokens = read ++ (last.onto back).tokens
  sound : last.Sound
  place : last.Boundary ∨ last.Hangs

theorem Edge.step (edge : after.Edge last read) (carries : Carries scanner token after)
    (more : ∀ read ∈ token, read.kind ≠ .endOfInput) : scanner.Edge last (token.toList ++ read) where
  tokens back := by
    rw [(carries.steps back).tokens more, edge.tokens, append_assoc]
  sound := edge.sound
  place := edge.place

/-- A place in the text where a new line starts, outside of string literals and not after a backslash. -/
structure LineStart (scanner : Scanner) (place : Nat) : Prop where
  outside : ∀ stretch ∈ stretchAt place scanner.stretches, stretch.role ≠ .literal ∧ stretch.role ≠ .unclosed
  apart : ∀ stretch ∈ stretchAt (place - 1) scanner.stretches, stretch.role ≠ .joint

theorem LineStart.next {place left : Nat} (starts : scanner.LineStart place)
    (split : (joined scanner.passed).length + left = place) (smaller : scanner.step.2.work < scanner.work) :
    scanner.step.2.LineStart left where
  outside stretch found := starts.outside stretch (stretchAt_step split smaller found)
  apart stretch found := by
    rcases Nat.eq_zero_or_pos left with rfl | inside
    · rw [stretchAt_zero] at found
      cases found
    · refine starts.apart stretch (stretchAt_step ?_ smaller found)
      omega

theorem Steps.queue (taken : Steps scanner token after) (sound : scanner.Sound)
    (queue : ∀ read ∈ scanner.pending, read.kind ≠ .endOfInput) :
    ∀ read ∈ after.pending, read.kind ≠ .endOfInput := by
  cases taken with
  | queued waiting =>
    intro read member
    exact queue read (by rw [waiting]; exact mem_cons_of_mem _ member)
  | opened =>
    rcases openLine_cases sound with ⟨_, opens⟩ | ⟨_, columns, opening, opens, queued, _⟩
    · rw [opens]
      exact queue
    · rw [opens]
      exact queued.more
  | _ => exact queue

theorem not_lineStart_open {c : Char} {text : List Char} (ends : EndsLine scanner.rest) (idle : scanner.pending = [])
    (inside : ¬ (scanner.atLineStart = true ∧ scanner.depth = 0))
    (ahead : scanner.rest.dropWhile isIndentChar = c :: text) (visible : isBlankLine (c :: text) = false)
    (goes : (lexeme c text).Open) : ¬ (scanner.onto back).LineStart scanner.rest.length := by
  intro starts
  have whole := ends.dropWhile (p := isIndentChar) (by decide)
  rw [ahead] at whole
  have visible' : isBlankLine (c :: (text ++ back)) = false := by
    rw [← cons_append, isBlankLine_append whole]
    exact visible
  have idle' : (scanner.onto back).pending = [] := idle
  have ahead' : (scanner.onto back).rest.dropWhile isIndentChar = c :: (text ++ back) := onto_ahead ends ahead back
  obtain ⟨stretch, found, role⟩ := stretchAt_open idle' inside ahead' visible' goes
  have place := length_onto (ends.dropWhile_ne_nil (by decide)) back
  rw [ahead] at place
  rw [place] at found
  obtain ⟨inner, unclosed⟩ := starts.outside stretch found
  exact role.elim inner unclosed

theorem not_lineStart_joint (ends : EndsLine scanner.rest) (idle : scanner.pending = [])
    (inside : ¬ (scanner.atLineStart = true ∧ scanner.depth = 0))
    (ahead : scanner.rest.dropWhile isIndentChar = ['\\', '\n']) :
    ¬ (scanner.onto back).LineStart scanner.rest.length := by
  intro starts
  have ahead' : (scanner.onto back).rest.dropWhile isIndentChar = '\\' :: '\n' :: back := onto_ahead ends ahead back
  have idle' : (scanner.onto back).pending = [] := idle
  have place := length_onto (ends.dropWhile_ne_nil (by decide)) back
  rw [ahead, length_cons, length_singleton] at place
  refine starts.apart ⟨.joint, ['\\', '\n']⟩ ?_ rfl
  rw [← place]
  exact stretchAt_joint idle' inside ahead'

theorem LineStart.legal (starts : (scanner.onto back).LineStart scanner.rest.length)
    (taken : Steps scanner token after) (ends : EndsLine scanner.rest) (none : after.rest = []) :
    (∀ read ∈ token, read.kind ≠ .illegal) ∧ scanner.rest.dropWhile isIndentChar ≠ ['\\', '\n'] := by
  have goes := ends.dropWhile_ne_nil (p := isIndentChar) (by decide)
  cases taken with
  | queued => exact absurd none ends.ne_nil
  | opened =>
    rw [openLine_rest] at none
    exact absurd none goes
  | lastBreak _ _ ahead | lastDedent _ _ ahead | ended _ _ ahead => exact absurd ahead goes
  | comment idle inside ahead =>
    have line := ends.dropWhile (p := isIndentChar) (by decide)
    rw [ahead] at line
    exact absurd none ((line.tail (by decide)).dropWhile_ne_nil (by decide))
  | joined idle inside ahead | blankBreak idle inside ahead =>
    rw [ahead]
    exact ⟨by simp, by simp⟩
  | lineBreak idle inside ahead =>
    rw [ahead]
    exact ⟨by simp, by simp⟩
  | continued idle inside ahead =>
    dsimp only at none
    rw [none] at ahead
    exact absurd starts (not_lineStart_joint ends idle inside ahead)
  | @unit c text idle inside ahead visible =>
    refine ⟨?_, ?_⟩
    · rintro read found illegal
      cases found
      have whole := ends.dropWhile (p := isIndentChar) (by decide)
      rw [ahead] at whole
      obtain ⟨inner, other⟩ := ne_of_starts visible
      exact absurd starts
        (not_lineStart_open ends idle inside ahead visible (open_of_last (whole.tail inner) inner other none))
    · rw [ahead]
      intro joint
      cases joint
      cases visible

theorem exists_edge (sound : scanner.Sound) (queue : ∀ read ∈ scanner.pending, read.kind ≠ .endOfInput)
    (ends : EndsLine scanner.rest) (starts : (scanner.onto back).LineStart scanner.rest.length) :
    ∃ last read, scanner.Edge last read := by
  -- along the run, as long as the step does not depend on what follows
  induction scanner using run_induction with
  | step scanner token after taken ih =>
    by_cases hangs : scanner.Hangs
    · exact ⟨scanner, [], fun _ => rfl, sound, .inr hangs⟩
    have more := taken.more ends queue
    have carries := taken.carries ends fun none => by
      obtain ⟨legal, joint⟩ := starts.legal taken ends none
      refine ⟨legal, joint, fun idle ahead => ?_⟩
      by_contra nested
      exact hangs ⟨idle, Nat.pos_of_ne_zero nested, ahead⟩
    have sound' := taken.sound sound
    rcases carries.ends with ends' | boundary
    · have step := (carries.steps back).step_eq
      have whole := congrArg List.length (carries.steps back).passes.whole
      have left : (joined (scanner.onto back).passed).length + after.rest.length = scanner.rest.length := by
        simp only [onto, length_append] at whole ⊢
        omega
      have smaller' : (scanner.onto back).step.2.work < (scanner.onto back).work := by
        rw [step]
        exact (carries.steps back).smaller more
      have starts' := starts.next left smaller'
      rw [step] at starts'
      obtain ⟨last, read, edge⟩ := ih more sound' (taken.queue sound queue) ends' starts'
      exact ⟨last, _, edge.step carries more⟩
    · exact ⟨after, token.toList ++ [], Edge.step ⟨fun _ => rfl, sound', .inl boundary⟩ carries more⟩

def Lower (scanner other : Scanner) : Prop :=
  ∃ base : Scanner, base.pending = [] ∧ scanner.tokens = base.tokens ∧
    other.tokens = { base with line := lineAfter base.line 1 }.tokens

theorem Boundary.lower (boundary : scanner.Boundary) (sound : scanner.Sound) (empty : EmptyLine line)
    (back : List Char) : (scanner.onto back).Lower (scanner.onto (line ++ back)) := by
  obtain ⟨flat, blank, idle⟩ := sound.fresh boundary.fresh
  have same : ∀ text, scanner.onto text = between text scanner.line scanner.indents true := by
    intro text
    unfold onto between
    rw [boundary.rest, boundary.fresh, flat, blank, idle]
    rfl
  refine ⟨between back scanner.line scanner.indents true, rfl, ?_, ?_⟩
  · rw [same]
  · rw [same, between_emptyLine empty]
    rfl

theorem Hangs.lower (hangs : scanner.Hangs) (empty : EmptyLine line) (back : List Char) :
    (scanner.onto back).Lower (scanner.onto (line ++ back)) := by
  have inside : ¬ (scanner.atLineStart = true ∧ scanner.depth = 0) := fun fresh => by
    have nested := hangs.nested
    omega
  have visible : scanner.rest.dropWhile isIndentChar ≠ [] := by simp [hangs.ahead]
  have ahead : ∀ text, (scanner.onto text).rest.dropWhile isIndentChar = '\n' :: text := by
    intro text
    change (scanner.rest ++ text).dropWhile isIndentChar = _
    rw [dropWhile_visible visible, hangs.ahead]
    rfl
  have idle : ∀ text, (scanner.onto text).pending = [] := fun _ => hangs.idle
  refine ⟨{ scanner with rest := '\n' :: back }, hangs.idle, ?_, ?_⟩
  · rw [tokens_congr (step_ahead (idle back) inside), ahead]
    rfl
  · have joined := Steps.joined (idle _) inside (ahead (line ++ back)) hangs.nested (startsStatement_emptyLine empty back)
    rw [tokens_of_none joined.step_eq]
    exact tokens_emptyLine empty hangs.idle inside rfl

theorem layout_at_end (sound : scanner.Sound) (idle : scanner.pending = [])
    (inside : ¬ (scanner.atLineStart = true ∧ scanner.depth = 0))
    (ahead : scanner.rest.dropWhile isIndentChar = []) : ∀ token ∈ scanner.tokens, token.kind.isLayout = true := by
  have closing : ∀ (line count : Nat), ∀ token ∈ List.replicate count (⟨.dedent, "", line⟩ : Token) ++
      [⟨.endOfInput, "", line⟩], token.kind.isLayout = true := by
    intro line count token member
    rcases mem_append.mp member with member | member
    · rw [eq_of_mem_replicate member]
      rfl
    · rw [mem_singleton.mp member]
      rfl
  cases content : scanner.hasContent with
  | false =>
    rw [tokens_at_end sound idle inside ahead content]
    exact closing _ _
  | true =>
    have taken := Steps.lastBreak idle inside ahead content
    rw [taken.tokens (by simp), tokens_at_end (taken.sound sound) idle inside rfl rfl]
    intro token member
    rcases mem_cons.mp member with rfl | member
    · rfl
    · exact closing _ _ token member

theorem Edge.layout (edge : scanner.Edge last read) : ∀ token ∈ last.tokens, token.kind.isLayout = true := by
  have sound := edge.sound
  rcases edge.place with boundary | hangs
  · obtain ⟨flat, blank, idle⟩ := sound.fresh boundary.fresh
    have opened := Steps.opened idle boundary.fresh flat
    have bare : isBlankLine (last.rest.dropWhile isIndentChar) = true := by
      rw [boundary.rest]
      rfl
    have sound' := opened.sound sound
    rw [openLine_blank bare] at opened sound'
    rw [tokens_of_none opened.step_eq]
    exact layout_at_end sound' idle (by simp) (by rw [boundary.rest]; rfl)
  · have inside : ¬ (last.atLineStart = true ∧ last.depth = 0) := fun fresh => by
      have nested := hangs.nested
      omega
    have bare : last.startsStatement [] = false := by simp [startsStatement, bracketEnders]
    have joined := Steps.joined hangs.idle inside hangs.ahead hangs.nested bare
    rw [tokens_of_none joined.step_eq]
    exact layout_at_end (joined.sound sound) hangs.idle inside rfl

end Scanner

namespace Token

def lowered (token : Token) : Token := { token with line := lineAfter token.line 1 }

theorem eq_map_lowered {tokens others : List Token}
    (alike : List.Forall₂ (Token.Alike fun line lower => lower = lineAfter line 1) tokens others) :
    others = tokens.map lowered := by
  induction alike with
  | nil => rfl
  | @cons token other _ _ first _ ih =>
    obtain ⟨kind, text, line⟩ := first
    rw [map_cons, ← ih]
    congr 1
    cases other
    simp_all [lowered]

theorem lineAfter_comm (line first second : Nat) :
    lineAfter (lineAfter line first) second = lineAfter (lineAfter line second) first := by
  rw [lineAfter_lineAfter, lineAfter_lineAfter, Nat.add_comm]

theorem map_of_lower {scanner other : Scanner} (lower : scanner.Lower other) :
    other.tokens = scanner.tokens.map lowered := by
  obtain ⟨base, idle, same, same'⟩ := lower
  rw [same, same']
  apply eq_map_lowered
  apply Scanner.tokens_alike
  · rintro line _ breaks rfl
    exact lineAfter_comm line 1 breaks
  · refine ⟨rfl, rfl, rfl, ?_, rfl, rfl, rfl⟩
    rw [idle]
    exact .nil

/-- A line without content may stand in front of any line that starts outside of string literals and not
    after a backslash. The tokens are the same then, the words before it stand where they stood, and all that
    comes after it stands one line further down. -/
theorem ofText_emptyLine {front line back : String} (ends : front = "" ∨ EndsLine front.toList)
    (outside : ∀ role ∈ Scanner.roleAt (front ++ back).toList front.toList.length,
      role ≠ .literal ∧ role ≠ .unclosed)
    (apart : Scanner.roleAt (front ++ back).toList (front.toList.length - 1) ≠ some .joint)
    (empty : EmptyLine line.toList) :
    ∃ before after, ofText (front ++ back) 1 = before ++ after ∧
      ofText (front ++ line ++ back) 1 = before ++ after.map lowered ∧
      before.filter (!·.kind.isLayout) = (ofText front 1).filter (!·.kind.isLayout) := by
  have sound := Scanner.start_sound front.toList 1
  have starts : ((Scanner.start front.toList 1).onto back.toList).LineStart front.toList.length := by
    have same : (Scanner.start front.toList 1).onto back.toList = Scanner.start (front ++ back).toList 1 := by
      rw [String.toList_append]
      rfl
    rw [same]
    refine ⟨fun stretch found => ?_, fun stretch found joint => ?_⟩
    · exact outside _ (Option.mem_map_of_mem _ found)
    · exact apart (joint ▸ Option.mem_map_of_mem _ found)
  obtain ⟨last, read, edge⟩ : ∃ last read, (Scanner.start front.toList 1).Edge last read := by
    rcases ends with rfl | ends
    · exact ⟨_, [], fun _ => rfl, sound, .inl ⟨rfl, rfl, by decide⟩⟩
    · exact Scanner.exists_edge sound (by simp [Scanner.start]) ends starts
  have lower : (last.onto back.toList).Lower (last.onto (line.toList ++ back.toList)) := by
    rcases edge.place with boundary | hangs
    · exact boundary.lower edge.sound empty _
    · exact hangs.lower empty _
  refine ⟨read, (last.onto back.toList).tokens, ?_, ?_, ?_⟩
  · rw [← edge.tokens, ofText, String.toList_append]
    rfl
  · rw [← map_of_lower lower, ← edge.tokens, ofText, String.toList_append, String.toList_append, append_assoc]
    rfl
  · have whole := edge.tokens []
    rw [Scanner.onto_nil, Scanner.onto_nil] at whole
    have none : last.tokens.filter (!·.kind.isLayout) = [] := by
      rw [filter_eq_nil_iff]
      intro token member
      rw [edge.layout token member]
      decide
    rw [ofText, whole, filter_append, none, append_nil]

def openBracket : String := "class A:\n  def f():\n    x = (\"# \\\n\",\n"

def nextClass : String := "class B: pass\n"

theorem ofText_emptyLine_openBracket :
    EndsLine openBracket.toList ∧
    Scanner.roleAt (openBracket ++ nextClass).toList openBracket.toList.length = none ∧
    Scanner.roleAt (openBracket ++ nextClass).toList (openBracket.toList.length - 1) = none ∧
    EmptyLine "\t # def\n".toList ∧
    ∃ before after, ofText (openBracket ++ nextClass) 1 = before ++ after ∧
      ofText (openBracket ++ "\t # def\n" ++ nextClass) 1 = before ++ after.map lowered ∧
      before.filter (!·.kind.isLayout) = (ofText openBracket 1).filter (!·.kind.isLayout) := by
  have ends : EndsLine openBracket.toList := by decide
  have place : Scanner.roleAt (openBracket ++ nextClass).toList openBracket.toList.length = none := by decide +kernel
  have place' : Scanner.roleAt (openBracket ++ nextClass).toList (openBracket.toList.length - 1) = none := by
    decide +kernel
  have blank : "\t ".toList.all isIndentChar = true := by decide
  have hash : ∀ c ∈ "# def".toList.head?, c = '#' := fun c found => (Option.some.inj found).symm
  have empty : EmptyLine "\t # def\n".toList := .intro (all_eq_true.mp blank) hash (by decide)
  refine ⟨ends, place, place', empty, ofText_emptyLine (.inr ends) ?_ ?_ empty⟩
  · rw [place]
    simp
  · rw [place']
    simp

end Token
end SourceAudit
