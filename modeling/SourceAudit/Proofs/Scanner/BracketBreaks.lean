import SourceAudit.Proofs.Scanner.TrailingComments

open List

namespace SourceAudit

namespace Token

def openingChars : List Char := ['(', '[', '\x7b']

theorem lexeme_delimiter {c : Char} {text : List Char} (delimiter : (lexeme c text).kind = .delimiter) :
    (lexeme c text).text = [c] := by
  have form := lexeme_lexed c text
  generalize lexeme c text = unit at form delimiter
  cases form with
  | @quoted letters inner quote _ _ _ =>
    rcases quotedLexeme_kind (lowerAscii letters) quote inner with kind | kind | ⟨kind, _⟩ <;>
      rw [kind] at delimiter <;> cases delimiter
  | number => rcases numberLexeme_kind (c :: text) with kind | kind <;> rw [kind] at delimiter <;> cases delimiter
  | @word letters _ _ _ =>
    rcases kindOfWord_cases (String.ofList letters) with kind | kind | kind | kind <;>
      rw [kind] at delimiter <;> cases delimiter
  | symbol => cases delimiter
  | single => rfl

theorem opening_visible {c : Char} (opens : c ∈ openingChars) : isIndentChar c = false ∧ c ≠ '\\' := by
  have all : openingChars.all (fun c => !isIndentChar c && c != '\\') = true := by decide
  have visible := all_eq_true.mp all c opens
  rwa [Bool.and_eq_true, Bool.not_eq_true', bne_iff_ne] at visible

theorem opening_of_depthAfter {c : Char} {text : List Char} (nested : 0 < depthAfter (lexeme c text) 0) :
    c ∈ openingChars := by
  unfold depthAfter at nested
  split at nested
  · rename_i delimiter
    rw [lexeme_delimiter delimiter] at nested
    split at nested
    · rename_i opens
      simpa [openingChars] using opens
    · split at nested <;> cases nested
  · cases nested

end Token

namespace Scanner

open Token

variable {scanner middle last base next : Scanner} {token : Option Token} {tokens : List Token}
  {back : List Char}

theorem Steps.suffix (taken : Steps scanner token middle) : middle.rest <:+ scanner.rest := ⟨_, taken.passes.whole⟩

theorem onto_inj (same : base.onto back = next.onto back) : base = next := by
  have rest := append_cancel_right (congrArg Scanner.rest same)
  cases base
  cases next
  simp_all [onto]

theorem onto_other (same : base.onto back = scanner) (tail : List Char) :
    base.onto tail = { scanner with rest := base.rest ++ tail } := by
  rw [← same]
  rfl

theorem inside_of_nested (nested : 0 < scanner.depth) : ¬ (scanner.atLineStart = true ∧ scanner.depth = 0) :=
  fun fresh => absurd fresh.2 (Nat.pos_iff_ne_zero.mp nested)

/-- Reading a text that goes on with `back`, from one place before `back` to another one, with the tokens that
    are handed over on the way. -/
inductive Run (back : List Char) : Scanner → List Token → Scanner → Prop where
  | done (base : Scanner) : Run back base [] base
  | next {base next last : Scanner} {token : Option Token} {tokens : List Token}
      (taken : Steps (base.onto back) token (next.onto back)) (onward : Run back next tokens last) :
      Run back base (token.toList ++ tokens) last

theorem Run.snoc (run : Run back base tokens next) (taken : Steps (next.onto back) token (last.onto back)) :
    Run back base (tokens ++ token.toList) last := by
  induction run with
  | done =>
    have one := Run.next taken (.done last)
    rwa [append_nil] at one
  | next first onward ih =>
    rw [append_assoc]
    exact .next first (ih taken)

theorem Reached.run {text : String} {line : Nat} (reached : Reached text line scanner)
    (place : last.onto back = scanner) :
    ∃ front tokens, text.toList = front ++ back ∧ Run back (Scanner.start front line) tokens last := by
  induction reached generalizing last with
  | start =>
    have whole : last.rest ++ back = text.toList := congrArg Scanner.rest place
    refine ⟨last.rest, [], whole.symm, ?_⟩
    have same : Scanner.start last.rest line = last := by
      apply @onto_inj _ _ back
      rw [place, ← whole]
      rfl
    rw [same]
    exact .done last
  | @step scanner before ih =>
    have taken := step_steps scanner
    obtain ⟨front, whole⟩ : back <:+ scanner.rest := by
      refine List.IsSuffix.trans ⟨last.rest, ?_⟩ taken.suffix
      exact congrArg Scanner.rest place
    have middle : { scanner with rest := front }.onto back = scanner := by
      unfold onto
      rw [whole]
    obtain ⟨before, tokens, parts, run⟩ := ih middle
    rw [← place, ← middle] at taken
    exact ⟨before, _, parts, run.snoc taken⟩

theorem Run.tokens_eq (run : Run back base tokens last) (more : ∀ token ∈ tokens, token.kind ≠ .endOfInput) :
    (base.onto back).tokens = tokens ++ (last.onto back).tokens := by
  induction run with
  | done => rfl
  | next taken onward ih =>
    rw [taken.tokens fun read found => more read (mem_append_left _ (by simpa using found)),
      ih fun read member => more read (mem_append_right _ member), append_assoc]

theorem Steps.shorter (taken : Steps scanner token middle) (idle : scanner.pending = [])
    (inside : ¬ (scanner.atLineStart = true ∧ scanner.depth = 0))
    (visible : scanner.rest.dropWhile isIndentChar ≠ []) :
    middle.rest.length < (scanner.rest.dropWhile isIndentChar).length := by
  cases taken with
  | queued waiting =>
    rw [idle] at waiting
    cases waiting
  | opened _ fresh flat => exact absurd ⟨fresh, flat⟩ inside
  | lastBreak _ _ ahead | lastDedent _ _ ahead | ended _ _ ahead => exact absurd ahead visible
  | @comment text _ _ ahead =>
    have short := (dropWhile_sublist (fun c => decide (c ≠ '\n')) (l := text)).length_le
    rw [ahead, length_cons]
    exact Nat.lt_succ_of_le short
  | joined _ _ ahead | lineBreak _ _ ahead | blankBreak _ _ ahead | continued _ _ ahead =>
    rw [ahead]
    simp only [length_cons]
    omega
  | unit _ _ ahead =>
    rw [ahead]
    exact lexeme_rest_lt _ _

theorem Run.stays (run : Run back base tokens last) (idle : base.pending = []) (inside : base.atLineStart = false)
    (visible : (base.onto back).rest.dropWhile isIndentChar ≠ [])
    (long : ((base.onto back).rest.dropWhile isIndentChar).length ≤ back.length) : tokens = [] := by
  cases run with
  | done => rfl
  | next taken onward =>
    have short := taken.shorter idle (by simp [onto, inside]) visible
    simp only [onto, length_append] at short long
    omega

def Live (scanner : Scanner) : Prop := 0 < scanner.depth ∨ ∃ c ∈ scanner.rest, c ∈ openingChars

theorem openLine_depth (scanner : Scanner) : scanner.openLine.depth = scanner.depth := by
  unfold openLine
  dsimp only
  split
  · rfl
  · split <;> rfl

theorem Steps.nested (taken : Steps scanner token middle) (nested : 0 < middle.depth) (flat : scanner.depth = 0) :
    ∃ c text, scanner.rest.dropWhile isIndentChar = c :: text ∧ c ∈ openingChars ∧
      middle.rest.length < (c :: text).length := by
  cases taken with
  | unit idle inside ahead =>
    refine ⟨_, _, ahead, ?_, lexeme_rest_lt _ _⟩
    dsimp only at nested
    rw [flat] at nested
    exact opening_of_depthAfter nested
  | opened =>
    rw [openLine_depth] at nested
    omega
  | _ =>
    dsimp only at nested
    omega

theorem Steps.live (taken : Steps (base.onto back) token (next.onto back)) (live : next.Live) : base.Live := by
  by_contra dead
  unfold Live at dead
  rw [not_or] at dead
  obtain ⟨flat, bare⟩ := dead
  have flat : base.depth = 0 := by omega
  obtain ⟨front, whole⟩ := taken.suffix
  have part : front ++ next.rest = base.rest := by
    have whole : front ++ (next.rest ++ back) = base.rest ++ back := whole
    rw [← append_assoc] at whole
    exact append_cancel_right whole
  rcases live with nested | ⟨c, member, opens⟩
  · obtain ⟨c, text, ahead, opens, short⟩ := taken.nested nested flat
    have ahead : (base.rest ++ back).dropWhile isIndentChar = c :: text := ahead
    by_cases blank : base.rest.dropWhile isIndentChar = []
    · rw [dropWhile_append_of_pos (dropWhile_eq_nil_iff.mp blank)] at ahead
      have long := (dropWhile_sublist isIndentChar (l := back)).length_le
      rw [ahead] at long
      have short : (next.rest ++ back).length < (c :: text).length := short
      rw [length_append] at short
      omega
    · rw [dropWhile_visible blank] at ahead
      obtain ⟨rest, first, _⟩ := cons_of_append blank ahead
      refine bare ⟨c, (dropWhile_sublist isIndentChar).subset ?_, opens⟩
      rw [first]
      exact mem_cons_self
  · exact bare ⟨c, part ▸ mem_append_right _ member, opens⟩

theorem Run.live (run : Run back base tokens last) (nested : 0 < last.depth) : base.Live := by
  induction run with
  | done => exact .inl nested
  | next taken onward ih => exact taken.live (ih nested)

/-- A scanner on its way into brackets, in a text whose brackets are closed in their order and whose tokens
    are all legal. The text goes on with `back` after what `base` has left to read. -/
structure Clear (base : Scanner) (back : List Char) (owed : List String) : Prop where
  live : base.Live
  sound : base.Sound
  guarded : base.Guarded owed
  closes : (owedThrough owed (base.onto back).tokens).isSome = true

namespace Clear

variable {owed : List String}

theorem nested_of_blank (clear : base.Clear back owed) (blank : base.rest.dropWhile isIndentChar = []) :
    0 < base.depth := by
  rcases clear.live with nested | ⟨c, member, opens⟩
  · exact nested
  · have indent := dropWhile_eq_nil_iff.mp blank c member
    rw [(opening_visible opens).1] at indent
    cases indent

theorem goes_on (clear : base.Clear back owed) (taken : Steps (base.onto back) token middle) :
    ∀ read ∈ token, read.kind ≠ .endOfInput := by
  rintro read rfl ended
  rcases taken.final ended with ⟨more, waiting, _⟩ | ⟨ahead, blank, _⟩
  · have waiting : base.pending = read :: more := waiting
    exact clear.guarded.more read (by simp [waiting]) ended
  · have bare : base.rest.dropWhile isIndentChar = [] := by
      by_contra visible
      have ahead : (base.rest ++ back).dropWhile isIndentChar = [] := ahead
      rw [dropWhile_visible visible] at ahead
      exact visible (append_eq_nil_iff.mp ahead).1
    have blank : base.hasContent = false := blank
    rw [clear.guarded.content (clear.nested_of_blank bare)] at blank
    cases blank

theorem owes (clear : base.Clear back owed) (taken : Steps (base.onto back) token middle) :
    ∃ owed', owedThrough owed token.toList = some owed' ∧ (owedThrough owed' middle.tokens).isSome = true := by
  have closes := clear.closes
  rw [taken.tokens (clear.goes_on taken), owedThrough_append] at closes
  cases first : owedThrough owed token.toList with
  | none =>
    rw [first] at closes
    cases closes
  | some owed' =>
    rw [first] at closes
    exact ⟨owed', rfl, closes⟩

theorem step (clear : base.Clear back owed) (taken : Steps (base.onto back) token (next.onto back))
    (live : next.Live) : ∃ owed', owedThrough owed token.toList = some owed' ∧ next.Clear back owed' := by
  obtain ⟨owed', owes, closes⟩ := clear.owes taken
  have sound : (base.onto back).Sound := ⟨clear.sound.columns, clear.sound.outermost, clear.sound.fresh⟩
  have guarded : (base.onto back).Guarded owed :=
    ⟨clear.guarded.queue, clear.guarded.content, clear.guarded.depth⟩
  have sound' := taken.sound sound
  have guarded' := taken.guarded sound guarded owes
  exact ⟨owed', owes, live, ⟨sound'.columns, sound'.outermost, sound'.fresh⟩,
    ⟨guarded'.queue, guarded'.content, guarded'.depth⟩, closes⟩

theorem flat_of_newline {line : Nat} (clear : base.Clear back owed)
    (taken : Steps (base.onto back) (some ⟨.newline, "\n", line⟩) middle) : base.depth = 0 := by
  obtain ⟨owed', owes, _⟩ := clear.owes taken
  obtain ⟨rfl, _⟩ := owed_newline owes
  exact clear.guarded.depth.symm

theorem flat_of_blank (clear : base.Clear back owed) (blank : base.hasContent = false) : base.depth = 0 := by
  by_contra nested
  rw [clear.guarded.content (Nat.pos_of_ne_zero nested)] at blank
  cases blank

theorem legal {read : Token} (clear : base.Clear back owed) (taken : Steps (base.onto back) (some read) middle) :
    read.kind ≠ .illegal := by
  obtain ⟨owed', owes, _⟩ := clear.owes taken
  intro illegal
  rw [Option.toList_some, owedThrough_singleton, owedAfter, illegal] at owes
  cases owes

/-- Outside all brackets one is still to come, on this line or on a later one. -/
theorem not_joint (clear : base.Clear back owed) (ground : base.depth = 0) :
    base.rest.dropWhile isIndentChar ≠ ['\\'] := by
  intro joint
  rcases clear.live with nested | ⟨c, member, opens⟩
  · exact absurd ground (Nat.pos_iff_ne_zero.mp nested)
  · rw [← takeWhile_append_dropWhile (p := isIndentChar) (l := base.rest), joint] at member
    rcases mem_append.mp member with member | member
    · have indent := all_eq_true.mp all_takeWhile c member
      rw [(opening_visible opens).1] at indent
      cases indent
    · exact (opening_visible opens).2 (mem_singleton.mp member)

theorem visible (clear : base.Clear back owed) (taken : Steps (base.onto back) token (next.onto back))
    (idle : base.pending = []) : base.rest.dropWhile isIndentChar ≠ [] := by
  intro blank
  have nested := clear.nested_of_blank blank
  have inside : ¬ ((base.onto back).atLineStart = true ∧ (base.onto back).depth = 0) := inside_of_nested nested
  have ahead : (base.onto back).rest.dropWhile isIndentChar = back.dropWhile isIndentChar :=
    dropWhile_append_of_pos (dropWhile_eq_nil_iff.mp blank)
  by_cases bare : back.dropWhile isIndentChar = []
  · rw [bare] at ahead
    generalize next.onto back = after at taken
    have flat : ∀ {line}, token = some ⟨.newline, "\n", line⟩ → False := by
      rintro line rfl
      exact absurd (clear.flat_of_newline taken) (Nat.pos_iff_ne_zero.mp nested)
    have full : (base.onto back).hasContent = true := clear.guarded.content nested
    cases taken with
    | queued waiting =>
      have waiting : base.pending = _ := waiting
      rw [idle] at waiting
      cases waiting
    | opened _ fresh ground => exact inside ⟨fresh, ground⟩
    | lastBreak => exact flat rfl
    | lastDedent _ _ _ blank | ended _ _ _ blank =>
      rw [full] at blank
      cases blank
    | comment _ _ here | joined _ _ here | lineBreak _ _ here | blankBreak _ _ here | continued _ _ here
    | unit _ _ here =>
      rw [ahead] at here
      cases here
  · have short := taken.shorter idle inside (by rwa [ahead])
    have long := (dropWhile_sublist isIndentChar (l := back)).length_le
    rw [ahead] at short
    change (next.rest ++ back).length < _ at short
    rw [length_append] at short
    omega

end Clear

/-- What is skipped between two tokens up to a place before `back`: blanks, or blanks and the backslash that joins the
    line to the next one. -/
def Skips (gap back : List Char) : Prop :=
  gap.dropWhile isIndentChar = [] ∨ (gap.dropWhile isIndentChar = ['\\'] ∧ back.head? = some '\n')

/-- A place after which no unit is cut before `back`: neither two points nor a word that can only begin a
    statement. -/
structure Ahead (next : Scanner) (back : List Char) : Prop where
  point : next.rest = ['.'] → back.head? ≠ some '.'
  statement : ∀ more, next.startsStatement (next.rest ++ '\n' :: more) = true →
    next.startsStatement (next.rest ++ back) = true

theorem gap_lineBreak (more : List Char) : Gap ('\n' :: more) := by
  intro c found
  cases found
  decide

theorem wordLexeme_over {text : List Char} {d : Char} (all : ∀ c ∈ text, Text.isIdentifierChar c = true)
    (goes : Text.isIdentifierChar d = true) (rest : List Char) :
    (wordLexeme (text ++ d :: rest)).rest.length ≤ rest.length := by
  have short := (dropWhile_sublist Text.isIdentifierChar (l := rest)).length_le
  unfold wordLexeme
  rw [dropWhile_append_of_pos all, dropWhile_cons_of_pos goes]
  dsimp only
  split
  · rename_i q tail ahead
    rw [ahead, length_cons] at short
    split
    · have inner := quotedLexeme_rest_le
        (lowerAscii ((text ++ d :: rest).takeWhile Text.isIdentifierChar)) q tail
      omega
    · exact short
  · exact Nat.zero_le _

theorem lexeme_ender {word : String} (ender : word ∈ bracketEnders) {c : Char} {text : List Char}
    (written : word.toList = c :: text) (back : List Char) :
    isIndentChar c = false ∧ isBlankLine (c :: (text ++ back)) = false ∧
      lexeme c (text ++ back) = wordLexeme (c :: text ++ back) := by
  have letters : bracketEnders.all (fun word => word.toList.head?.all fun c =>
      Text.isAlphabetic c && !isQuote c && !c.isDigit && !isIndentChar c && c != '.' && c != '#' && c != '\n'
        && c != '\\') = true := by
    decide
  have letter := all_eq_true.mp letters word ender
  rw [written] at letter
  simp only [List.head?_cons, Option.all_some, Bool.and_eq_true, Bool.not_eq_true', bne_iff_ne, ne_eq] at letter
  obtain ⟨⟨⟨⟨⟨⟨⟨alphabetic, quote⟩, digit⟩, indent⟩, point⟩, hash⟩, lineBreak⟩, joint⟩ := letter
  refine ⟨indent, isBlankLine_eq_false hash lineBreak fun _ same => absurd same joint, ?_⟩
  unfold lexeme
  rw [if_neg (by simp [quote]), if_neg (by simp [digit, point]), if_pos (by simp [alphabetic]), cons_append]

theorem lexeme_points (more : List Char) :
    lexeme '.' ('.' :: more) = ⟨.operator, ['.'], 0, '.' :: more⟩ ∨
      (lexeme '.' ('.' :: more)).rest.length ≤ more.length := by
  have unit : lexeme '.' ('.' :: more) = symbolLexeme '.' ('.' :: more) := by
    unfold lexeme
    rw [if_neg (by decide), if_neg (by simp), if_neg (by decide)]
  rw [unit]
  unfold symbolLexeme
  cases found : longOperators.find? fun symbol => symbol.toList.isPrefixOf ('.' :: '.' :: more) with
  | none =>
    left
    dsimp only
    rw [if_neg (by decide), if_pos (by decide)]
  | some symbol =>
    right
    have wide : longOperators.all (fun symbol => 1 < symbol.toList.length) = true := by decide
    have wide := all_eq_true.mp wide symbol (mem_of_find?_eq_some found)
    rw [decide_eq_true_eq] at wide
    simp only [length_drop, length_cons]
    omega

theorem dropWhile_indent {text more : List Char} {c : Char}
    (ahead : (text.dropWhile fun c => c == ' ' || c == '\t') = c :: more) (visible : isIndentChar c = false) :
    text.dropWhile isIndentChar = c :: more := by
  have parts := takeWhile_append_dropWhile (p := fun c => c == ' ' || c == '\t') (l := text)
  rw [ahead] at parts
  rw [← parts, dropWhile_append_of_pos, dropWhile_cons_of_neg (by simp [visible])]
  intro d member
  have blank : (d == ' ' || d == '\t') = true := all_eq_true.mp all_takeWhile d member
  unfold isIndentChar
  rw [blank]
  rfl

section Ahead

variable (run : Run back next tokens last) (idle : next.pending = []) (inside : next.atLineStart = false)
  (skips : Skips last.rest back)
include run idle inside skips

theorem Run.unit_ends {c : Char} {text : List Char} (ahead : next.rest.dropWhile isIndentChar = c :: text)
    (starts : isBlankLine (c :: (text ++ back)) = false) :
    ∃ after onward, Run back after onward last ∧
      tokens = ⟨(lexeme c (text ++ back)).kind, String.ofList (lexeme c (text ++ back)).text, next.line⟩ :: onward ∧
      (lexeme c (text ++ back)).rest = after.rest ++ back ∧ after.pending = [] ∧ after.atLineStart = false := by
  have visible : next.rest.dropWhile isIndentChar ≠ [] := by simp [ahead]
  have ahead' : (next.onto back).rest.dropWhile isIndentChar = c :: (text ++ back) := by
    change (next.rest ++ back).dropWhile isIndentChar = _
    rw [dropWhile_visible visible, ahead, cons_append]
  have inside' : ¬ ((next.onto back).atLineStart = true ∧ (next.onto back).depth = 0) := by
    simp [onto, inside]
  have idle' : (next.onto back).pending = [] := idle
  have unit := Steps.unit idle' inside' ahead' starts
  cases run with
  | done =>
    rcases skips with none | ⟨joint, lineBreak⟩
    · exact absurd none visible
    · rw [ahead] at joint
      cases joint
      obtain ⟨more, rfl⟩ := List.head?_eq_some_iff.mp lineBreak
      cases starts
  | @next _ after _ token tokens taken onward =>
    obtain ⟨rfl, same⟩ := Prod.mk.inj (unit.step_eq.symm.trans taken.step_eq)
    exact ⟨after, tokens, onward, rfl, congrArg Scanner.rest same, (congrArg Scanner.pending same).symm.trans idle,
      (congrArg Scanner.atLineStart same).symm.trans inside⟩

theorem Run.statement (more : List Char)
    (starts : next.startsStatement (next.rest ++ '\n' :: more) = true) :
    next.startsStatement (next.rest ++ back) = true := by
  have nameless : bracketEnders.contains (String.ofList []) = false := by decide
  unfold startsStatement at starts ⊢
  rw [Bool.and_eq_true] at starts
  obtain ⟨column, ender⟩ := starts
  have visible : (next.rest.dropWhile fun c => c == ' ' || c == '\t') ≠ [] := by
    intro none
    have inner : Text.isIdentifierChar '\n' = false := by decide
    rw [dropWhile_append_of_pos (dropWhile_eq_nil_iff.mp none), dropWhile_cons_of_neg (by decide),
      takeWhile_cons_of_neg (by simp [inner]), nameless] at ender
    cases ender
  rw [leadingColumn_before visible] at column
  rw [dropWhile_visible visible, (gap_lineBreak more).takeWhile_append isIdentifierChar_of_gapChars] at ender
  rw [leadingColumn_before visible, dropWhile_visible visible, Bool.and_eq_true]
  refine ⟨column, ?_⟩
  suffices same : ((next.rest.dropWhile fun c => c == ' ' || c == '\t') ++ back).takeWhile Text.isIdentifierChar =
      (next.rest.dropWhile fun c => c == ' ' || c == '\t').takeWhile Text.isIdentifierChar by
    rwa [same]
  by_cases inner : (next.rest.dropWhile fun c => c == ' ' || c == '\t').dropWhile Text.isIdentifierChar ≠ []
  · exact takeWhile_visible inner back
  -- the word stands right before the place: it is read as one unit, which must not go on there
  · rw [not_not] at inner
    have all := dropWhile_eq_nil_iff.mp inner
    rw [takeWhile_append_of_pos all, takeWhile_eq_self_iff.mpr all]
    rw [takeWhile_eq_self_iff.mpr all] at ender
    obtain ⟨c, text, written⟩ := exists_cons_of_ne_nil visible
    rw [written] at ender all ⊢
    obtain ⟨indent, starts, unit⟩ :=
      lexeme_ender (contains_iff_mem.mp ender) (String.toList_ofList) back
    obtain ⟨after, _, _, _, ends, _⟩ := run.unit_ends idle inside skips (dropWhile_indent written indent) starts
    cases back with
    | nil => simp
    | cons d back =>
      by_cases goes : Text.isIdentifierChar d = true
      · have short := wordLexeme_over all goes back
        rw [← unit, ends, length_append, length_cons] at short
        omega
      · rw [takeWhile_cons_of_neg goes, append_nil]

theorem Run.point (apart : back.head? = some '.' → ∀ token ∈ tokens.getLast?, token.isOperator "." = false) :
    next.rest = ['.'] → back.head? ≠ some '.' := by
  intro single double
  obtain ⟨more, rfl⟩ := List.head?_eq_some_iff.mp double
  have ahead : next.rest.dropWhile isIndentChar = '.' :: [] := by
    rw [single]
    rfl
  obtain ⟨after, onward, rest, taken, ends, idle', inside'⟩ :=
    run.unit_ends idle inside skips ahead rfl
  rw [nil_append] at taken ends
  rcases lexeme_points more with unit | short
  · rw [unit] at taken ends
    have ahead' : (after.onto ('.' :: more)).rest.dropWhile isIndentChar = '.' :: more := by
      change (after.rest ++ _).dropWhile isIndentChar = _
      rw [← ends]
      rfl
    obtain rfl := rest.stays idle' inside' (by simp [ahead']) (by rw [ahead'])
    have plain : Token.isOperator ⟨.operator, String.ofList ['.'], next.line⟩ "." = false :=
      apart rfl _ (by rw [taken]; rfl)
    exact absurd plain (by simp [Token.isOperator])
  · rw [ends, length_append, length_cons] at short
    omega

end Ahead

theorem dropWhile_lineBreak {p : Char → Bool} (stops : p '\n' = false) (text more : List Char) :
    (text ++ '\n' :: more).dropWhile p = text.dropWhile p ++ '\n' :: more := by
  rw [List.dropWhile_append, dropWhile_cons_of_neg (by simp [stops])]
  split
  · rename_i none
    rw [List.isEmpty_iff.mp none, nil_append]
  · rfl

theorem startsStatement_congr (same : base.indents = next.indents) (text : List Char) :
    base.startsStatement text = next.startsStatement text := by
  unfold startsStatement
  rw [same]

namespace Ahead

variable (place : next.Ahead back)
include place

theorem continues (more : List Char) (still : next.startsStatement (next.rest ++ back) = false) :
    next.startsStatement (next.rest ++ '\n' :: more) = false := by
  by_contra starts
  rw [place.statement more (Bool.not_eq_false _ ▸ starts)] at still
  cases still

theorem lexeme_gap {c : Char} {text : List Char} (legal : (lexeme c (text ++ back)).kind ≠ .illegal)
    (ends : (lexeme c (text ++ back)).rest = next.rest ++ back) {more : List Char} (gap : Gap more) :
    lexeme c (text ++ more) = { lexeme c (text ++ back) with rest := next.rest ++ more } :=
  lexeme_divided (.inr gap) ends (fun unclosed => absurd (kind_of_unclosed unclosed) legal) fun _ => place.point

theorem isBlankLine_lineBreak {c : Char} {text : List Char} (legal : (lexeme c (text ++ back)).kind ≠ .illegal)
    (ends : (lexeme c (text ++ back)).rest = next.rest ++ back) (starts : isBlankLine (c :: (text ++ back)) = false)
    (more : List Char) : isBlankLine (c :: (text ++ '\n' :: more)) = false := by
  have apart : c :: text ≠ ['\\'] := by
    rintro ⟨⟩
    exact legal ((congrArg Lexeme.kind (place.lexeme_gap legal ends Gap.nil)).symm.trans (by decide))
  rw [← cons_append, isBlankLine_before (by simp) fun joint => absurd joint apart,
    ← isBlankLine_before (by simp) fun joint => absurd joint apart]
  exact starts

end Ahead

theorem Steps.widen {owed : List String} (taken : Steps (base.onto back) token (next.onto back))
    (clear : base.Clear back owed)
    (parts : next.pending = [] → next.atLineStart = false → next.Ahead back) (more : List Char) :
    Steps (base.onto ('\n' :: more)) token (next.onto ('\n' :: more)) := by
  have visible := clear.visible taken
  have calm : ¬ (base.atLineStart = true ∧ base.depth = 0) → base.atLineStart = false := clear.sound.not_fresh
  have flat : ∀ {line}, token = some ⟨.newline, "\n", line⟩ → base.depth = 0 := by
    rintro line rfl
    exact clear.flat_of_newline taken
  have legal : ∀ read ∈ token, read.kind ≠ .illegal := by
    rintro read rfl
    exact clear.legal taken
  generalize same : next.onto back = after at taken
  have rest : next.rest ++ back = after.rest := congrArg Scanner.rest same
  rw [onto_other same]
  cases taken with
  | queued waiting =>
    rw [append_cancel_right rest]
    exact .queued waiting
  | opened idle fresh ground =>
    have opened : ∀ tail, (base.onto tail).openLine = base.openLine.onto tail :=
      fun tail => openLine_before (visible idle) fun joint => absurd joint (clear.not_joint ground)
    rw [← onto_other same, onto_inj (same.trans (opened back)), ← opened]
    exact .opened idle fresh ground
  | lastBreak idle inside bare | lastDedent idle inside bare | ended idle inside bare =>
    have ahead : (base.onto back).rest.dropWhile isIndentChar = _ ++ back := dropWhile_visible (visible idle) back
    rw [ahead] at bare
    exact absurd (append_eq_nil_iff.mp bare).1 (visible idle)
  | comment idle inside here =>
    -- if no line break stands before the place, the comment ends there, and with the new line break too
    obtain ⟨text, _, rfl, here'⟩ := exists_ahead (visible idle) here
    have steps : Steps (base.onto ('\n' :: more)) none _ := .comment idle inside (here' _)
    rw [dropWhile_lineBreak (by decide), (takeWhile_cut rest.symm).2] at steps
    exact steps
  | joined idle inside here nested continues =>
    obtain ⟨text, _, rfl, here'⟩ := exists_ahead (visible idle) here
    have place := parts ((congrArg Scanner.pending same).trans idle)
      ((congrArg Scanner.atLineStart same).trans (calm inside))
    have columns : next.indents = base.indents := by
      change (next.onto back).indents = (base.onto back).indents
      rw [same]
    have whole : next.rest = text := append_cancel_right rest
    have still : next.startsStatement (next.rest ++ back) = false := by
      rw [whole, startsStatement_congr columns]
      exact continues
    have continues' := place.continues more still
    rw [whole, startsStatement_congr columns] at continues'
    rw [whole]
    exact .joined idle inside (here' _) nested continues'
  | lineBreak idle inside here starts full =>
    obtain ⟨text, _, rfl, here'⟩ := exists_ahead (visible idle) here
    rw [append_cancel_right rest]
    exact .lineBreak idle inside (here' _) (.inl (flat rfl)) full
  | blankBreak idle inside here starts blank =>
    obtain ⟨text, _, rfl, here'⟩ := exists_ahead (visible idle) here
    rw [append_cancel_right rest]
    exact .blankBreak idle inside (here' _) (.inl (clear.flat_of_blank blank)) blank
  | continued idle inside here =>
    obtain ⟨text, _, behind, here'⟩ := exists_ahead (visible idle) here
    cases text with
    | nil =>
      -- the line break after the backslash would stand behind the place
      have short := congrArg List.length rest
      have long := congrArg List.length behind
      simp only [length_append, length_cons, nil_append] at short long
      omega
    | cons d text =>
      cases behind
      rw [append_cancel_right rest]
      exact .continued idle inside (here' _)
  | @unit c text idle inside here starts =>
    obtain ⟨text, _, rfl, here'⟩ := exists_ahead (visible idle) here
    have place := parts ((congrArg Scanner.pending same).trans idle)
      ((congrArg Scanner.atLineStart same).trans (calm inside))
    have legal : (lexeme c (text ++ back)).kind ≠ .illegal := legal _ rfl
    have steps : Steps (base.onto ('\n' :: more)) _ _ :=
      .unit idle inside (here' _) (place.isBlankLine_lineBreak legal rest.symm starts more)
    rw [place.lexeme_gap legal rest.symm (gap_lineBreak more)] at steps
    exact steps

section Widen

variable {owed : List String} (run : Run back base tokens last) (clear : base.Clear back owed) (nested : 0 < last.depth)
include run clear nested

theorem Run.clears : (∀ token ∈ tokens, token.kind ≠ .endOfInput) ∧
    ∃ owed', owedThrough owed tokens = some owed' ∧ last.Clear back owed' := by
  induction run generalizing owed with
  | done => exact ⟨by simp, owed, rfl, clear⟩
  | next taken onward ih =>
    obtain ⟨between, owes, clear'⟩ := clear.step taken (onward.live nested)
    obtain ⟨later, owed', owes', clear''⟩ := ih clear' nested
    refine ⟨?_, owed', ?_, clear''⟩
    · intro token member
      rcases mem_append.mp member with member | member
      · exact clear.goes_on taken token (by simpa using member)
      · exact later token member
    · rw [owedThrough_append, owes]
      exact owes'

theorem Run.widen (skips : Skips last.rest back)
    (apart : back.head? = some '.' → ∀ token ∈ tokens.getLast?, token.isOperator "." = false) (more : List Char) :
    Run ('\n' :: more) base tokens last := by
  induction run generalizing owed with
  | done base => exact .done base
  | @next base next last token tokens taken onward ih =>
    obtain ⟨_, _, clear'⟩ := clear.step taken (onward.live nested)
    have apart' : back.head? = some '.' → ∀ token ∈ tokens.getLast?, token.isOperator "." = false := by
      intro double token found
      refine apart double token ?_
      rw [List.getLast?_append, found]
      rfl
    refine .next (taken.widen clear (fun idle inside => ?_) more) (ih clear' nested skips apart')
    exact ⟨onward.point idle inside skips apart', onward.statement idle inside skips⟩

end Widen

end Scanner
end SourceAudit
