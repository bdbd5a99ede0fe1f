import Mathlib.Data.List.Forall2
import Mathlib.Data.List.TakeWhile
import SourceAudit.Proofs.Grammar.Composition
import SourceAudit.Proofs.Scanner.BracketBreaks

open List

namespace SourceAudit

namespace Token

def SameOrNext (line lower : Nat) : Prop := lower = line ∨ Lowered 1 line lower

theorem SameOrNext.later {line lower : Nat} (more : Nat) (near : SameOrNext line lower) :
    SameOrNext (lineAfter line more) (lineAfter lower more) := by
  rcases near with rfl | lowered
  · exact .inl rfl
  · exact .inr (lowered.later more)

def lineBreak (spaces : Nat) : String := "\n" ++ String.ofList (List.replicate spaces ' ')

theorem ofText_cut (front back : String) :
    ofText (front ++ back) 1 = ((Scanner.start front.toList 1).onto back.toList).tokens := by
  unfold ofText
  rw [String.toList_append]
  rfl

theorem ofText_lineBreak (front back : String) (spaces : Nat) :
    ofText (front ++ lineBreak spaces ++ back) 1 =
      ((Scanner.start front.toList 1).onto ('\n' :: (List.replicate spaces ' ' ++ back.toList))).tokens := by
  have parts : (lineBreak spaces ++ back).toList = '\n' :: (List.replicate spaces ' ' ++ back.toList) := by
    simp [lineBreak]
  rw [String.append_assoc, ofText_cut, parts]

theorem lexeme_point (text : List Char) : (lexeme '.' text).kind ≠ .identifier := by
  intro name
  unfold lexeme at name
  rw [if_neg (by decide)] at name
  split at name
  · unfold numberLexeme at name
    dsimp only at name
    split at name <;> cases name
  · rw [if_neg (by decide)] at name
    unfold symbolLexeme at name
    split at name
    · cases name
    · rw [if_neg (by decide), if_pos (by decide)] at name
      cases name

theorem wordLexeme_ender {text : List Char}
    (ender : String.ofList (text.takeWhile Text.isIdentifierChar) ∈ bracketEnders) :
    (wordLexeme text).kind = .keyword ∧ (wordLexeme text).text = text.takeWhile Text.isIdentifierChar := by
  have words : bracketEnders.all (fun word => kindOfWord word == .keyword &&
      !stringPrefixes.contains (String.ofList (lowerAscii word.toList))) = true := by
    decide
  have word := all_eq_true.mp words _ ender
  simp only [String.toList_ofList, Bool.and_eq_true, beq_iff_eq, Bool.not_eq_true'] at word
  unfold wordLexeme
  dsimp only
  split
  · rw [word.2, Bool.and_false, if_neg (by decide)]
    exact ⟨word.1, rfl⟩
  · exact ⟨word.1, rfl⟩

end Token

namespace Shelter

open Token

variable {place last : Shelter} {tokens : List Token}

theorem depth_of_owed {owed owed' : List String} (count : place.depth = owed.length)
    (run : place.through tokens = some last) (owes : owedThrough owed tokens = some owed') :
    last.depth = owed'.length := by
  induction tokens generalizing place owed with
  | nil =>
    cases run
    cases owes
    exact count
  | cons token tokens ih =>
    rw [← singleton_append, through_append, through_singleton] at run
    rw [← singleton_append, owedThrough_append, owedThrough_singleton] at owes
    obtain ⟨between, step, run⟩ := Option.bind_eq_some_iff.mp run
    obtain ⟨left, pays, owes⟩ := Option.bind_eq_some_iff.mp owes
    refine ih ?_ run owes
    unfold after at step
    split at step
    · cases step
    · split at step
      · cases step
      · cases step
        rw [count]
        exact nesting_of_owed pays

theorem dotted_of_point {point : Token} (run : place.through (tokens ++ [point]) = some last)
    (found : point.isOperator "." = true) (nested : 0 < last.depth) : last.dotted = true := by
  rw [through_append] at run
  obtain ⟨between, _, step⟩ := Option.bind_eq_some_iff.mp run
  rw [through_singleton] at step
  unfold after at step
  split at step
  · cases step
  · split at step
    · cases step
    · cases step
      rw [nesting, (kind_of_isOperator found).1] at nested
      dsimp only at nested ⊢
      rw [found, decide_eq_true nested]
      rfl

end Shelter

namespace Scanner

open Token

variable {scanner last place : Scanner} {front back : String}

/-- A place inside brackets where the text `front ++ back` is cut between two tokens, the first of which is read,
    and what is skipped from there up to the cut. -/
structure InBrackets (place : Scanner) (gap : List Char) (front back : String) : Prop where
  reached : Reached (front ++ back) 1 place
  nested : 0 < place.depth
  rest : place.rest = gap ++ back.toList
  skips : Skips gap back.toList

/-- What the line starts with that a line break and spaces make before `back`. After a backslash the new line break is
    the one that joins, and the line behind the old one is new. -/
def newLine (gap : List Char) (spaces : Nat) (back : List Char) : List Char :=
  if gap.dropWhile isIndentChar = [] then List.replicate spaces ' ' ++ back else back.drop 1

def startsAsync (scanner : Scanner) (text : List Char) : Bool :=
  leadingColumn [] 0 text ≤ scanner.indents.headD 0 &&
    String.ofList ((text.dropWhile fun c => c == ' ' || c == '\t').takeWhile Text.isIdentifierChar) == "async"

theorem startsStatement_of_startsAsync {text : List Char} (starts : scanner.startsAsync text = true) :
    scanner.startsStatement text = true := by
  unfold startsAsync at starts
  unfold startsStatement
  rw [Bool.and_eq_true, beq_iff_eq] at starts
  rw [starts.1, starts.2]
  decide

theorem Steps.idle {token : Option Token} {after : Scanner} (taken : Steps scanner token after)
    (idle : 0 < scanner.depth → scanner.pending = []) (nested : 0 < after.depth) : after.pending = [] := by
  cases taken with
  | queued waiting =>
    rw [idle nested] at waiting
    cases waiting
  | opened _ _ flat =>
    rw [openLine_depth, flat] at nested
    cases nested
  | _ => assumption

theorem Reached.idle {text : String} {line : Nat} (reached : Reached text line scanner) (nested : 0 < scanner.depth) :
    scanner.pending = [] := by
  induction reached with
  | start => rfl
  | step before ih => exact (step_steps _).idle ih nested

section Place

variable {stop : Scanner} {shelter : Shelter} {text : List Char} (blank : stop.rest.dropWhile isIndentChar = [])
  (idle : stop.pending = []) (nested : 0 < stop.depth)
include blank

theorem onto_blank (text : List Char) : (stop.onto text).rest.dropWhile isIndentChar = text.dropWhile isIndentChar :=
  dropWhile_append_of_pos (dropWhile_eq_nil_iff.mp blank)

include idle nested

theorem tokens_blank (text : List Char) :
    (stop.onto text).tokens = { stop with rest := text.dropWhile isIndentChar }.tokens := by
  have inside := inside_of_nested nested
  have idle' : (stop.onto text).pending = [] := idle
  rw [tokens_congr (step_ahead idle' inside), onto_blank blank]
  rfl

theorem shelter_ahead {c : Char} {more : List Char} (ahead : text.dropWhile isIndentChar = c :: more)
    (starts : isBlankLine (c :: more) = false) (sheltered : (shelter.through (stop.onto text).tokens).isSome = true) :
    (shelter.after ⟨(lexeme c more).kind, String.ofList (lexeme c more).text, stop.line⟩).isSome = true := by
  have inside := inside_of_nested nested
  have here := (onto_blank blank text).trans ahead
  have unit : Steps (stop.onto text) _ _ := .unit idle inside here starts
  rw [unit.tokens (by simpa using lexeme_goes_on ahead), Option.toList_some, Shelter.through_append,
    Shelter.through_singleton] at sheltered
  exact Option.isSome_of_isSome_bind sheltered

theorem startsAsync_of_startsStatement (sheltered : (shelter.through (stop.onto text).tokens).isSome = true)
    (deep : 0 < shelter.depth) (starts : stop.startsStatement text = true) : stop.startsAsync text = true := by
  unfold startsStatement at starts
  unfold startsAsync
  rw [Bool.and_eq_true] at starts
  rw [starts.1, Bool.true_and, beq_iff_eq]
  have ender := contains_iff_mem.mp starts.2
  by_contra other
  have parts := takeWhile_append_dropWhile (p := Text.isIdentifierChar)
    (l := text.dropWhile fun c => c == ' ' || c == '\t')
  generalize found : text.dropWhile (fun c => c == ' ' || c == '\t') = ahead at *
  obtain ⟨c, more, word⟩ : ∃ c more, ahead.takeWhile Text.isIdentifierChar = c :: more := by
    apply exists_cons_of_ne_nil
    intro none
    rw [none] at ender
    exact absurd ender (by decide)
  obtain ⟨indent, visible, unit⟩ := lexeme_ender ender (by rw [String.toList_ofList, word])
    (ahead.dropWhile Text.isIdentifierChar)
  rw [word, cons_append] at parts
  rw [cons_append, parts] at unit
  have here := dropWhile_indent (found.trans parts.symm) indent
  have fits := shelter_ahead blank idle nested here visible sheltered
  obtain ⟨kind, written⟩ := wordLexeme_ender ender
  rw [unit, kind, written] at fits
  unfold Shelter.after at fits
  have breaks :
      Token.breaksOut ⟨.keyword, String.ofList (ahead.takeWhile Text.isIdentifierChar), stop.line⟩ = true := by
    simp [Token.breaksOut, other, ender]
  rw [breaks] at fits
  simp [deep] at fits

theorem not_point (sheltered : (shelter.through (stop.onto text).tokens).isSome = true)
    (due : shelter.dotted = true) : text.head? ≠ some '.' := by
  intro double
  obtain ⟨more, rfl⟩ := List.head?_eq_some_iff.mp double
  have fits := shelter_ahead blank idle nested rfl rfl sheltered
  unfold Shelter.after at fits
  rw [if_pos ⟨due, lexeme_point more⟩] at fits
  cases fits

theorem tokens_joined (continues : stop.startsStatement text = false) :
    List.Forall₂ (Token.Alike SameOrNext) (stop.onto text).tokens (stop.onto ('\n' :: text)).tokens := by
  have inside := inside_of_nested nested
  have joined : Steps (stop.onto ('\n' :: text)) none { stop with rest := text, line := lineAfter stop.line 1 } :=
    .joined idle inside (onto_blank blank _) nested continues
  have ahead := @step_ahead { stop with rest := text, line := lineAfter stop.line 1 } idle inside
  rw [joined.tokens (by simp), Option.toList_none, nil_append, tokens_blank blank idle nested,
    tokens_congr ahead]
  apply tokens_alike SameOrNext.later
  refine ⟨rfl, .inr rfl, rfl, ?_, rfl, rfl, rfl⟩
  change List.Forall₂ _ stop.pending stop.pending
  rw [idle]
  exact .nil

theorem tokens_broken (full : stop.hasContent = true) (starts : stop.startsStatement text = true) :
    ∃ rest, (stop.onto ('\n' :: text)).tokens = ⟨.newline, "\n", stop.line⟩ :: rest := by
  have inside := inside_of_nested nested
  have broken : Steps (stop.onto ('\n' :: text)) _ _ :=
    .lineBreak idle inside (onto_blank blank _) (.inr starts) full
  rw [broken.tokens (by simp)]
  exact ⟨_, rfl⟩

end Place

theorem tokens_continued (joint : last.rest.dropWhile isIndentChar = ['\\']) (idle : last.pending = [])
    (nested : 0 < last.depth) (text : List Char) :
    (last.onto ('\n' :: text)).tokens = { last with rest := text, line := lineAfter last.line 1 }.tokens := by
  have inside := inside_of_nested nested
  have ahead : (last.onto ('\n' :: text)).rest.dropWhile isIndentChar = '\\' :: '\n' :: text := by
    change (last.rest ++ _).dropWhile isIndentChar = _
    rw [dropWhile_visible (by simp [joint]), joint]
    rfl
  have continued : Steps (last.onto ('\n' :: text)) none _ := .continued idle inside ahead
  rw [continued.tokens (by simp)]
  rfl

/-- The state before the line break that decides whether the brackets go on, where the line behind it starts with
    `text`. -/
structure Stop (last stop : Scanner) (spaces : Nat) (back text : List Char) : Prop where
  blank : stop.rest.dropWhile isIndentChar = []
  idle : stop.pending = []
  nested : 0 < stop.depth
  content : stop.hasContent = true
  indents : stop.indents = last.indents
  before : (last.onto back).tokens = (stop.onto text).tokens
  wide : (last.onto ('\n' :: (List.replicate spaces ' ' ++ back))).tokens = (stop.onto ('\n' :: text)).tokens

theorem exists_stop {back : List Char} (skips : Skips last.rest back) (idle : last.pending = [])
    (nested : 0 < last.depth) (content : last.hasContent = true) (spaces : Nat) :
    ∃ stop, Stop last stop spaces back (newLine last.rest spaces back) := by
  have margin : ∀ c ∈ List.replicate spaces ' ', isIndentChar c = true := by
    intro c member
    rw [eq_of_mem_replicate member]
    rfl
  unfold newLine
  rcases skips with blank | ⟨joint, lineBreak⟩
  · rw [if_pos blank]
    refine ⟨last, blank, idle, nested, content, rfl, ?_, rfl⟩
    rw [tokens_blank blank idle nested, tokens_blank blank idle nested, dropWhile_append_of_pos margin]
  -- the new line break is joined, and the spaces after it stand before the old one
  · rw [if_neg (by simp [joint])]
    obtain ⟨more, rfl⟩ := List.head?_eq_some_iff.mp lineBreak
    have blank : (List.replicate spaces ' ').dropWhile isIndentChar = [] := dropWhile_eq_nil_iff.mpr margin
    refine ⟨{ last with rest := List.replicate spaces ' ', line := lineAfter last.line 1 }, blank, idle, nested,
      content, rfl, ?_, ?_⟩
    · have direct := @tokens_blank { last with rest := [], line := lineAfter last.line 1 } rfl idle nested more
      have behind := @tokens_blank { last with rest := List.replicate spaces ' ', line := lineAfter last.line 1 }
        blank idle nested more
      exact (tokens_continued joint idle nested more).trans (direct.trans behind.symm)
    · exact tokens_continued joint idle nested _

theorem Stop.startsAsync {stop : Scanner} {spaces : Nat} {back text : List Char}
    (meets : Stop last stop spaces back text) : stop.startsAsync = last.startsAsync := by
  unfold Scanner.startsAsync
  rw [meets.indents]

theorem InBrackets.run {gap : List Char} (between : place.InBrackets gap front back) :
    ∃ last tokens, last.onto back.toList = place ∧ last.rest = gap ∧
      Run back.toList (start front.toList 1) tokens last := by
  have whole : { place with rest := gap }.onto back.toList = place := by
    unfold onto
    rw [← between.rest]
  obtain ⟨text, tokens, parts, run⟩ := between.reached.run whole
  rw [String.toList_append] at parts
  rw [← append_cancel_right parts] at run
  exact ⟨_, tokens, whole, rfl, run⟩

/-- A place inside brackets of a text that can be read: the tokens before it stay with a line break there, and those
    after it have a place in the brackets. -/
structure Entry (front back : List Char) (tokens : List Token) (last : Scanner) : Prop where
  skips : Skips last.rest back
  idle : last.pending = []
  nested : 0 < last.depth
  content : last.hasContent = true
  owes : ∃ closer owed, owedThrough [] tokens = some (closer :: owed)
  sheltered : ∃ shelter : Shelter, 0 < shelter.depth ∧ (shelter.through (last.onto back).tokens).isSome = true
  before : ((start front 1).onto back).tokens = tokens ++ (last.onto back).tokens
  wide : ∀ more, ((start front 1).onto ('\n' :: more)).tokens = tokens ++ (last.onto ('\n' :: more)).tokens

theorem InBrackets.entry {gap : List Char} (between : place.InBrackets gap front back)
    (closes : (owedThrough [] (ofText (front ++ back) 1)).isSome = true)
    (sheltered : ((Shelter.level 0).through (ofText (front ++ back) 1)).isSome = true) :
    ∃ last tokens, last.onto back.toList = place ∧ last.rest = gap ∧ Entry front.toList back.toList tokens last := by
  obtain ⟨last, tokens, rfl, rfl, run⟩ := between.run
  have nested : 0 < last.depth := between.nested
  have idle : last.pending = [] := between.reached.idle nested
  rw [ofText_cut] at closes sheltered
  have clear : (start front.toList 1).Clear back.toList [] :=
    ⟨run.live nested, start_sound _ _, start_guarded _ _, closes⟩
  obtain ⟨more, owed, owes, clear'⟩ := run.clears clear nested
  have before := run.tokens_eq more
  obtain ⟨final, through⟩ := Option.isSome_iff_exists.mp sheltered
  rw [before, Shelter.through_append] at through
  obtain ⟨shelter, led, onward⟩ := Option.bind_eq_some_iff.mp through
  have fits : (shelter.through (last.onto back.toList).tokens).isSome = true := by
    rw [onward]
    rfl
  have deep : 0 < shelter.depth := by
    rw [Shelter.depth_of_owed rfl led owes, clear'.guarded.depth]
    exact nested
  -- after a point a name is due, so that no second point follows it
  have apart : back.toList.head? = some '.' → ∀ token ∈ tokens.getLast?, token.isOperator "." = false := by
    intro double point found
    by_contra operator
    obtain ⟨others, rfl⟩ := List.getLast?_eq_some_iff.mp found
    rw [Bool.not_eq_false] at operator
    rcases between.skips with blank | ⟨_, lineBreak⟩
    · exact not_point blank idle nested fits (Shelter.dotted_of_point led operator deep) double
    · rw [double] at lineBreak
      cases lineBreak
  refine ⟨last, tokens, rfl, rfl, between.skips, idle, nested, clear'.guarded.content nested, ?_,
    ⟨shelter, deep, fits⟩, before, fun text => (run.widen clear nested between.skips apart text).tokens_eq more⟩
  rcases owed with _ | ⟨closer, owed⟩
  · have flat : 0 = last.depth := clear'.guarded.depth
    omega
  · exact ⟨closer, owed, owes⟩

namespace Entry

variable {front back : List Char} {tokens : List Token} (entry : Entry front back tokens last) (spaces : Nat)
include entry

theorem joined (plain : last.startsAsync (newLine last.rest spaces back) = false) :
    List.Forall₂ (Token.Alike SameOrNext) ((start front 1).onto back).tokens
      ((start front 1).onto ('\n' :: (List.replicate spaces ' ' ++ back))).tokens := by
  obtain ⟨stop, meets⟩ := exists_stop entry.skips entry.idle entry.nested entry.content spaces
  obtain ⟨shelter, deep, sheltered⟩ := entry.sheltered
  rw [← meets.startsAsync] at plain
  rw [meets.before] at sheltered
  have continues : stop.startsStatement (newLine last.rest spaces back) = false := by
    by_contra starts
    rw [Bool.not_eq_false] at starts
    rw [startsAsync_of_startsStatement meets.blank meets.idle meets.nested sheltered deep starts] at plain
    cases plain
  rw [entry.before, entry.wide, meets.before, meets.wide]
  refine rel_append ?_ (tokens_joined meets.blank meets.idle meets.nested continues)
  exact forall₂_same.mpr fun token _ => ⟨rfl, rfl, .inl rfl⟩

theorem broken (starts : last.startsAsync (newLine last.rest spaces back) = true) :
    owedThrough [] ((start front 1).onto ('\n' :: (List.replicate spaces ' ' ++ back))).tokens = none := by
  obtain ⟨stop, meets⟩ := exists_stop entry.skips entry.idle entry.nested entry.content spaces
  obtain ⟨closer, owed, owes⟩ := entry.owes
  rw [← meets.startsAsync] at starts
  obtain ⟨rest, ends⟩ := tokens_broken meets.blank meets.idle meets.nested meets.content
    (startsStatement_of_startsAsync starts)
  rw [entry.wide, meets.wide, ends, owedThrough_append, owes]
  rfl

end Entry

end Scanner

namespace Program

open Token Scanner

variable {file text : String}

theorem sheltered_of_clean (clean : (ofSource file text).2 = []) :
    ((Shelter.level 0).through (ofText text 1)).isSome = true := by
  obtain ⟨tokens, last, split, spells, rfl | ⟨token, rfl, kind⟩⟩ := exists_spells clean
  all_goals
    have through : (Shelter.level 0).through tokens = some (.level 0) := spells.sheltered
    rw [split, Shelter.through_append, through]
  · rfl
  · rw [Option.bind_some, Shelter.through_singleton, Shelter.after_level (.inl rfl)]
    rfl

theorem ofSource_alike {lines : Nat → Nat → Prop} {other : String}
    (later : ∀ {m n : Nat} (breaks : Nat), lines m n → lines (lineAfter m breaks) (lineAfter n breaks))
    (tokens : List.Forall₂ (Token.Alike lines) (ofText text 1) (ofText other 1)) :
    List.Forall₂ (Stmt.Alike lines) (ofSource file text).1.statements (ofSource file other).1.statements ∧
      List.Forall₂ (SyntaxError.Alike lines) (ofSource file text).2 (ofSource file other).2 := by
  have tokens : List.Forall₂ (Token.Alike lines) (Cursor.ofTokens (ofText text 1)).rest
    (Cursor.ofTokens (ofText other 1)).rest := tokens
  exact Parser.outermost_lines later nestingLimit tokens (ofText_layout text 1).laid (exists_endOfInput _) rfl rfl

/-- A text without errors is read alike with a line break between two tokens inside brackets and spaces after it,
    unless the new line starts with `async` and does not stand to the right of the indentation: then there are
    errors. -/
theorem ofSource_lineBreak (file front back : String) (spaces : Nat) {place : Scanner} {gap : List Char}
    (clean : (ofSource file (front ++ back)).2 = []) (between : place.InBrackets gap front back) :
    ((ofSource file (front ++ lineBreak spaces ++ back)).2 = [] ↔
      place.startsAsync (newLine gap spaces back.toList) = false) ∧
    (place.startsAsync (newLine gap spaces back.toList) = false →
      ∃ statements, (ofSource file (front ++ lineBreak spaces ++ back)).1 = ⟨file, statements⟩ ∧
        List.Forall₂ (Stmt.Alike SameOrNext) (ofSource file (front ++ back)).1.statements statements) := by
  obtain ⟨last, tokens, rfl, rfl, entry⟩ := between.entry (by rw [owed_of_clean clean]; rfl) (sheltered_of_clean clean)
  have alike : last.startsAsync (newLine last.rest spaces back.toList) = false →
      List.Forall₂ (Stmt.Alike SameOrNext) (ofSource file (front ++ back)).1.statements
        (ofSource file (front ++ lineBreak spaces ++ back)).1.statements ∧
      (ofSource file (front ++ lineBreak spaces ++ back)).2 = [] := by
    intro plain
    have tokens := entry.joined spaces plain
    rw [← ofText_cut, ← ofText_lineBreak] at tokens
    obtain ⟨statements, errors⟩ := @ofSource_alike file _ _ _ SameOrNext.later tokens
    rw [clean] at errors
    exact ⟨statements, forall₂_nil_left_iff.mp errors⟩
  refine ⟨⟨fun clean' => ?_, fun plain => (alike plain).2⟩, fun plain => ⟨_, rfl, (alike plain).1⟩⟩
  by_contra starts
  rw [Bool.not_eq_false] at starts
  have closes := owed_of_clean clean'
  rw [ofText_lineBreak, entry.broken spaces starts] at closes
  cases closes

def openList : String := "[x "

def asyncClause : String := "async for x in y]\n"

def beforeClause : Scanner := ⟨' ' :: asyncClause.toList, 1, [0], [], false, true, 1⟩

theorem beforeClause_inBrackets : beforeClause.InBrackets [' '] openList asyncClause := by
  have read : beforeClause = (start (openList ++ asyncClause).toList 1).step.2.step.2.step.2 := by decide
  refine ⟨?_, by decide, rfl, .inl rfl⟩
  rw [read]
  exact .step (.step (.step .start))

theorem asyncClause_clean : (ofSource "lib" (openList ++ asyncClause)).2 = [] := by decide +kernel

theorem ofSource_lineBreak_indented :
    (ofSource "lib" (openList ++ asyncClause)).2 = [] ∧ beforeClause.InBrackets [' '] openList asyncClause ∧
      (ofSource "lib" (openList ++ lineBreak 1 ++ asyncClause)).2 = [] ∧
      ∃ statements, (ofSource "lib" (openList ++ lineBreak 1 ++ asyncClause)).1 = ⟨"lib", statements⟩ ∧
        List.Forall₂ (Stmt.Alike SameOrNext) (ofSource "lib" (openList ++ asyncClause)).1.statements statements := by
  have plain : beforeClause.startsAsync (newLine [' '] 1 asyncClause.toList) = false := by decide
  have both := ofSource_lineBreak "lib" openList asyncClause 1 asyncClause_clean beforeClause_inBrackets
  exact ⟨asyncClause_clean, beforeClause_inBrackets, both.1.mpr plain, both.2 plain⟩

/-- At the margin, the clause ends the brackets. -/
theorem ofSource_lineBreak_margin :
    (ofSource "lib" (openList ++ asyncClause)).2 = [] ∧ beforeClause.InBrackets [' '] openList asyncClause ∧
      (ofSource "lib" (openList ++ lineBreak 0 ++ asyncClause)).2 ≠ [] := by
  refine ⟨asyncClause_clean, beforeClause_inBrackets, ?_⟩
  have errors : (ofSource "lib" (openList ++ lineBreak 0 ++ asyncClause)).2.length = 2 := by decide +kernel
  intro none
  rw [none] at errors
  cases errors

end Program

end SourceAudit
