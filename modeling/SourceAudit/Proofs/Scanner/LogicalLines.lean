import SourceAudit.Proofs.Scanner.Steps

open List

namespace SourceAudit

namespace Token

def indents (tokens : List Token) : Nat := tokens.countP (·.kind = .indent)

def dedents (tokens : List Token) : Nat := tokens.countP (·.kind = .dedent)

/-- The number of open blocks after some tokens, when there are `level` before them. There is none
    if a dedent closes a block that is not open. -/
def levelAfter : Nat → List Token → Option Nat
  | level, [] => some level
  | level, token :: rest =>
    match token.kind with
    | .indent => levelAfter (level + 1) rest
    | .dedent => if level = 0 then none else levelAfter (level - 1) rest
    | _ => levelAfter level rest

theorem levelAfter_append (level : Nat) (first second : List Token) :
    levelAfter level (first ++ second) = (levelAfter level first).bind (levelAfter · second) := by
  induction first generalizing level with
  | nil => rfl
  | cons token rest ih =>
    simp only [cons_append, levelAfter]
    split
    · exact ih _
    · split
      · rfl
      · exact ih _
    · exact ih _

theorem levelAfter_flat {tokens : List Token} (level : Nat)
    (flat : ∀ token ∈ tokens, token.kind ≠ .indent ∧ token.kind ≠ .dedent) :
    levelAfter level tokens = some level := by
  induction tokens with
  | nil => rfl
  | cons token rest ih =>
    obtain ⟨opens, closes⟩ := flat token (by simp)
    have others := ih fun other member => flat other (mem_cons_of_mem _ member)
    simp only [levelAfter]
    exact others

theorem levelAfter_dedents {tokens : List Token} (level : Nat)
    (closing : ∀ token ∈ tokens, token.kind = .dedent) :
    levelAfter (level + tokens.length) tokens = some level := by
  induction tokens with
  | nil => rfl
  | cons token rest ih =>
    have others := ih fun other member => closing other (mem_cons_of_mem _ member)
    simp only [levelAfter, closing token (by simp), length_cons]
    rw [if_neg (by omega)]
    exact others

theorem levelAfter_count {level last : Nat} {tokens : List Token}
    (counted : levelAfter level tokens = some last) :
    level + indents tokens = last + dedents tokens := by
  induction tokens generalizing level with
  | nil =>
    cases counted
    rfl
  | cons token rest ih =>
    simp only [levelAfter] at counted
    simp only [indents, dedents, countP_cons] at ih ⊢
    split at counted
    · rename_i kind
      have := ih counted
      simp only [kind, decide_true, ↓reduceIte, reduceCtorEq, decide_false, Bool.false_eq_true]
      omega
    · rename_i kind
      split at counted
      · cases counted
      · have := ih counted
        simp only [kind, decide_true, ↓reduceIte, reduceCtorEq, decide_false, Bool.false_eq_true]
        omega
    · rename_i opens closes
      have := ih counted
      have opens : token.kind ≠ .indent := opens
      have closes : token.kind ≠ .dedent := closes
      simp only [opens, closes, decide_false, Bool.false_eq_true, ↓reduceIte]
      omega

theorem levelAfter_front {level last : Nat} {front tokens : List Token}
    (counted : levelAfter level tokens = some last) (part : front <+: tokens) :
    dedents front ≤ level + indents front := by
  obtain ⟨rest, rfl⟩ := part
  rw [levelAfter_append] at counted
  obtain ⟨middle, reached, _⟩ := Option.bind_eq_some_iff.mp counted
  have := levelAfter_count reached
  omega

def IsMisaligned (token : Token) : Prop :=
  token.kind = .illegal ∧ token.text.toList ≠ [] ∧ ∀ c ∈ token.text.toList, isIndentChar c = true

def IsContent (token : Token) : Prop := token.kind.isLayout = false ∧ ¬ token.IsMisaligned

theorem IsContent.flat {token : Token} (content : token.IsContent) :
    token.kind ≠ .indent ∧ token.kind ≠ .dedent := by
  constructor <;> intro kind <;> simp [IsContent, kind, Kind.isLayout] at content

end Token

namespace Layout

open Token

/-- The tokens that open a logical line, with the number of open blocks before and after them. -/
inductive Opening : Nat → Nat → List Token → Prop where
  | deeper {level : Nat} {token : Token} (indent : token.kind = .indent) :
      Opening level (level + 1) [token]
  | shallower {level : Nat} {closed : List Token}
      (dedents : ∀ token ∈ closed, token.kind = .dedent) :
      Opening (level + closed.length) level closed
  | misaligned {level : Nat} {closed : List Token} {fault : Token}
      (dedents : ∀ token ∈ closed, token.kind = .dedent) (misplaced : fault.IsMisaligned) :
      Opening (level + closed.length) level (closed ++ [fault])

/-- Logical lines up to the end of input, where `level` blocks are open at first. -/
inductive Lines : Nat → List Token → Prop where
  | done {level : Nat} {closing : List Token} {last : Token}
      (dedents : ∀ token ∈ closing, token.kind = .dedent) (all : closing.length = level)
      (final : last.kind = .endOfInput) : Lines level (closing ++ [last])
  | line {before level : Nat} {opening content rest : List Token} {first last : Token}
      (opens : Opening before level opening) (starts : first.IsContent)
      (written : ∀ token ∈ content, token.IsContent) (final : last.kind = .newline)
      (more : Lines level rest) : Lines before (opening ++ first :: content ++ last :: rest)

inductive Body (level : Nat) : List Token → Prop where
  | final {last : Token} {rest : List Token} (final : last.kind = .newline)
      (more : Lines level rest) : Body level (last :: rest)
  | content {token : Token} {rest : List Token} (written : token.IsContent)
      (more : Body level rest) : Body level (token :: rest)

theorem Body.split {level : Nat} {tokens : List Token} (body : Body level tokens) :
    ∃ content last rest, tokens = content ++ last :: rest ∧
      (∀ token ∈ content, token.IsContent) ∧ last.kind = .newline ∧ Lines level rest := by
  induction body with
  | @final last rest final more => exact ⟨[], last, rest, rfl, by simp, final, more⟩
  | @content token rest written _ ih =>
    obtain ⟨content, last, rest, rfl, all, final, more⟩ := ih
    refine ⟨token :: content, last, rest, rfl, ?_, final, more⟩
    intro other member
    rcases mem_cons.mp member with rfl | member
    · exact written
    · exact all other member

theorem Body.opened {before level : Nat} {opening tokens : List Token} {first : Token}
    (opens : Opening before level opening) (starts : first.IsContent) (body : Body level tokens) :
    Lines before (opening ++ first :: tokens) := by
  obtain ⟨content, last, rest, rfl, written, final, more⟩ := body.split
  simpa using Lines.line opens starts written final more

theorem Opening.flat (level : Nat) : Opening level level [] :=
  .shallower (by simp : ∀ token ∈ ([] : List Token), token.kind = .dedent)

theorem Opening.kinds {before level : Nat} {opening : List Token} (opens : Opening before level opening) :
    ∀ token ∈ opening, token.kind = .indent ∨ token.kind = .dedent ∨ token.kind = .illegal := by
  intro token member
  cases opens with
  | deeper indent =>
    rw [mem_singleton.mp member]
    exact .inl indent
  | shallower dedents => exact .inr (.inl (dedents token member))
  | misaligned dedents misplaced =>
    rcases mem_append.mp member with member | member
    · exact .inr (.inl (dedents token member))
    · rw [mem_singleton.mp member]
      exact .inr (.inr misplaced.1)

theorem Opening.more {before level : Nat} {opening : List Token}
    (opens : Opening before level opening) : ∀ token ∈ opening, token.kind ≠ .endOfInput := by
  intro token member
  rcases opens.kinds token member with kind | kind | kind <;> rw [kind] <;> decide

theorem Opening.levelAfter {before level : Nat} {tokens : List Token}
    (opens : Opening before level tokens) : levelAfter before tokens = some level := by
  cases opens with
  | deeper indent => simp [Token.levelAfter, indent]
  | shallower dedents => exact levelAfter_dedents level dedents
  | misaligned dedents misplaced =>
    rw [levelAfter_append, levelAfter_dedents level dedents]
    simp [Token.levelAfter, misplaced.1]

theorem Lines.levelAfter {level : Nat} {tokens : List Token} (lines : Lines level tokens) :
    levelAfter level tokens = some 0 := by
  induction lines with
  | @done level closing last dedents all final =>
    have closed := levelAfter_dedents 0 dedents
    rw [Nat.zero_add, all] at closed
    rw [levelAfter_append, closed]
    simp [Token.levelAfter, final]
  | @line before level opening content rest first last opens starts written final more ih =>
    have flat : Token.levelAfter level (first :: content) = some level := by
      refine levelAfter_flat level fun token member => ?_
      rcases mem_cons.mp member with rfl | member
      · exact starts.flat
      · exact (written token member).flat
    rw [append_assoc, levelAfter_append, opens.levelAfter, Option.bind_some, levelAfter_append,
      flat]
    simpa [Token.levelAfter, final] using ih

def IsOpening (opening : List Token) : Prop :=
  opening = [] ∨ (∃ token, opening = [token] ∧ token.kind = .indent) ∨
    ∃ closed fault, opening = closed ++ fault ∧ (∀ token ∈ closed, token.kind = .dedent) ∧
      (fault = [] ∨ ∃ token, fault = [token] ∧ token.IsMisaligned)

def IsLine (line : List Token) : Prop :=
  ∃ opening content last, line = opening ++ content ++ [last] ∧ IsOpening opening ∧
    content ≠ [] ∧ (∀ token ∈ content, token.IsContent) ∧ last.kind = .newline

theorem Opening.isOpening {before level : Nat} {opening : List Token}
    (opens : Opening before level opening) : IsOpening opening := by
  cases opens with
  | deeper indent => exact .inr (.inl ⟨_, rfl, indent⟩)
  | shallower dedents => exact .inr (.inr ⟨_, [], by simp, dedents, .inl rfl⟩)
  | misaligned dedents misplaced =>
    exact .inr (.inr ⟨_, _, rfl, dedents, .inr ⟨_, rfl, misplaced⟩⟩)

theorem Lines.split {level : Nat} {tokens : List Token} (lines : Lines level tokens) :
    ∃ (lines : List (List Token)) (closing : List Token) (last : Token),
      tokens = lines.flatten ++ closing ++ [last] ∧
      (∀ line ∈ lines, IsLine line) ∧ (∀ token ∈ closing, token.kind = .dedent) ∧
      last.kind = .endOfInput := by
  induction lines with
  | @done level closing last dedents all final =>
    exact ⟨[], closing, last, by simp, by simp, dedents, final⟩
  | @line before level opening content rest first last opens starts written final more ih =>
    obtain ⟨lines, closing, ending, rfl, shaped, dedents, ended⟩ := ih
    refine ⟨(opening ++ first :: content ++ [last]) :: lines, closing, ending, by simp, ?_, dedents,
      ended⟩
    intro line member
    rcases mem_cons.mp member with rfl | member
    · refine ⟨opening, first :: content, last, rfl, opens.isOpening, by simp, ?_, final⟩
      intro token inside
      rcases mem_cons.mp inside with rfl | inside
      · exact starts
      · exact written token inside
    · exact shaped line member

end Layout

namespace Token

theorem kindOfWord_cases (word : String) :
    kindOfWord word = .boolean ∨ kindOfWord word = .none ∨ kindOfWord word = .keyword ∨
      kindOfWord word = .identifier := by
  unfold kindOfWord
  split
  · exact .inl rfl
  · split
    · exact .inr (.inl rfl)
    · split
      · exact .inr (.inr (.inl rfl))
      · exact .inr (.inr (.inr rfl))

/-- What a lexical unit can be: a literal with the letters before it, a number, a word, an operator of
    several characters, or a character that is none of them. -/
inductive Lexed (c : Char) (text : List Char) : Lexeme → Prop where
  | quoted {letters inner : List Char} {quote : Char} (whole : letters ++ quote :: inner = c :: text)
      (word : ∀ d ∈ letters, Text.isIdentifierChar d = true) (opens : isQuote quote = true) :
      Lexed c text (quotedLexeme (lowerAscii letters) quote inner)
  | number : Lexed c text (numberLexeme (c :: text))
  | word {letters rest : List Char} (whole : letters ++ rest = c :: text)
      (word : ∀ d ∈ letters, Text.isIdentifierChar d = true) :
      Lexed c text ⟨kindOfWord (String.ofList letters), letters, 0, rest⟩
  | symbol {symbol : String} {rest : List Char} (whole : symbol.toList ++ rest = c :: text)
      (found : longOperators.find? (fun symbol => symbol.toList.isPrefixOf (c :: text)) = some symbol) :
      Lexed c text ⟨.operator, symbol.toList, 0, rest⟩
  | single {kind : Kind} (plain : isQuote c = false)
      (alone : longOperators.find? (fun symbol => symbol.toList.isPrefixOf (c :: text)) = none)
      (one : kind = .delimiter ∨ (kind = .operator ∧ c ∈ operatorChars) ∨ kind = .illegal) :
      Lexed c text ⟨kind, [c], 0, text⟩

theorem lexeme_lexed (c : Char) (text : List Char) : Lexed c text (lexeme c text) := by
  unfold lexeme
  split
  · rename_i quoted
    exact @Lexed.quoted c text [] text c rfl (by simp) quoted
  rename_i plain
  split
  · exact .number
  split
  · have whole := @takeWhile_append_dropWhile _ Text.isIdentifierChar (c :: text)
    have letters : ∀ d ∈ (c :: text).takeWhile Text.isIdentifierChar, Text.isIdentifierChar d = true :=
      fun d member => all_eq_true.mp all_takeWhile d member
    unfold wordLexeme
    dsimp only
    split
    · rename_i q rest ahead
      rw [ahead] at whole
      split
      · rename_i opens
        exact .quoted whole letters (Bool.and_eq_true_iff.mp opens).1
      · exact .word whole letters
    · rename_i ahead
      rw [ahead] at whole
      exact .word whole letters
  · have plain : isQuote c = false := by simpa using plain
    unfold symbolLexeme
    split
    · rename_i symbol found
      have starts := List.find?_some found
      obtain ⟨rest, whole⟩ := isPrefixOf_iff_prefix.mp starts
      have behind : (c :: text).drop symbol.toList.length = rest := by rw [← whole, drop_left]
      rw [behind]
      exact .symbol whole found
    · rename_i alone
      split
      · exact .single plain alone (.inl rfl)
      · split
        · rename_i operator
          exact .single plain alone (.inr (.inl ⟨rfl, by simpa using operator⟩))
        · exact .single plain alone (.inr (.inr rfl))

def Lexeme.Written (unit : Lexeme) : Prop :=
  unit.kind.isLayout = false ∧
    (unit.kind = .illegal → ∃ c text, unit.text = c :: text ∧ isIndentChar c = false)

theorem kindOfWord_written (word : String) :
    (kindOfWord word).isLayout = false ∧ kindOfWord word ≠ .illegal := by
  rcases kindOfWord_cases word with kind | kind | kind | kind <;> simp [kind, Kind.isLayout]

theorem isQuote_not_blank {c : Char} (quote : isQuote c = true) : isIndentChar c = false := by
  simp only [isQuote, Bool.or_eq_true, beq_iff_eq] at quote
  rcases quote with rfl | rfl <;> decide

theorem QuoteStyle.opening_cons (style : QuoteStyle) :
    ∃ more, style.opening = style.quote :: more := by
  unfold opening
  split <;> exact ⟨_, rfl⟩

theorem openQuote_quote (verbatim : Bool) (quote : Char) (text : List Char) :
    (openQuote verbatim quote text).1.quote = quote := by
  unfold openQuote
  split <;> rfl

theorem quotedLexeme_kind (marks : List Char) (quote : Char) (text : List Char) :
    (quotedLexeme marks quote text).kind = .string ∨ (quotedLexeme marks quote text).kind = .formattedString ∨
      (quotedLexeme marks quote text).kind = .illegal ∧ (quotedLexeme marks quote text).text.head? = some quote := by
  have style := openQuote_quote (marks.contains 'f' || marks.contains 'r') quote text
  unfold quotedLexeme
  dsimp only
  generalize openQuote (marks.contains 'f' || marks.contains 'r') quote text = found at style ⊢
  obtain ⟨more, opening⟩ := found.1.opening_cons
  split
  · cases marks.contains 'f'
    · exact .inl rfl
    · exact .inr (.inl rfl)
  · rw [opening, style]
    exact .inr (.inr ⟨rfl, rfl⟩)

theorem numberLexeme_kind (text : List Char) :
    (numberLexeme text).kind = .float ∨ (numberLexeme text).kind = .integer := by
  unfold numberLexeme
  dsimp only
  split
  · exact .inl rfl
  · exact .inr rfl

theorem lexeme_written {c : Char} (rest : List Char) (visible : isIndentChar c = false) :
    (lexeme c rest).Written := by
  have form := lexeme_lexed c rest
  generalize lexeme c rest = unit at form
  unfold Lexeme.Written
  cases form with
  | @quoted letters inner quote _ _ opens =>
    rcases quotedLexeme_kind (lowerAscii letters) quote inner with kind | kind | ⟨kind, head⟩
    · simp [kind, Kind.isLayout]
    · simp [kind, Kind.isLayout]
    · obtain ⟨more, text⟩ := List.head?_eq_some_iff.mp head
      exact ⟨by rw [kind]; rfl, fun _ => ⟨quote, more, text, isQuote_not_blank opens⟩⟩
  | number => rcases numberLexeme_kind (c :: rest) with kind | kind <;> simp [kind, Kind.isLayout]
  | word => exact ⟨(kindOfWord_written _).1, fun illegal => absurd illegal (kindOfWord_written _).2⟩
  | symbol => simp [Kind.isLayout]
  | single _ _ one => rcases one with rfl | ⟨rfl, _⟩ | rfl <;> simp [Kind.isLayout, visible]

theorem Lexeme.Written.isContent {unit : Lexeme} (written : unit.Written) (line : Nat) :
    IsContent ⟨unit.kind, String.ofList unit.text, line⟩ := by
  refine ⟨written.1, fun misaligned => ?_⟩
  obtain ⟨c, text, same, visible⟩ := written.2 misaligned.1
  have blank := misaligned.2.2 c (by simp [same])
  rw [visible] at blank
  cases blank

end Token

namespace Scanner

open Token Layout

/-- The open columns grow inwards from zero, and a line that is about to be opened has nothing on it
    yet. -/
structure Sound (scanner : Scanner) : Prop where
  columns : scanner.indents.Pairwise (· > ·)
  outermost : scanner.indents.getLast? = some 0
  fresh : scanner.atLineStart = true →
    scanner.depth = 0 ∧ scanner.hasContent = false ∧ scanner.pending = []

theorem start_sound (text : List Char) (line : Nat) : (start text line).Sound where
  columns := by simp [start]
  outermost := rfl
  fresh _ := ⟨rfl, rfl, rfl⟩

theorem Sound.indents_ne_nil {scanner : Scanner} (sound : scanner.Sound) : scanner.indents ≠ [] := by
  intro none
  have outermost := sound.outermost
  simp [none] at outermost

theorem dropWhile_columns {columns : List Nat} (column : Nat) (sorted : columns.Pairwise (· > ·))
    (outermost : columns.getLast? = some 0) :
    (columns.dropWhile (column < ·)).Pairwise (· > ·) ∧
      (columns.dropWhile (column < ·)).getLast? = some 0 ∧
      (columns.dropWhile (column < ·)).headD 0 ≤ column := by
  induction columns with
  | nil => cases outermost
  | cons first rest ih =>
    simp only [dropWhile_cons]
    split
    · rename_i deeper
      cases rest with
      | nil =>
        simp only [List.getLast?_singleton, Option.some.injEq] at outermost
        simp [outermost] at deeper
      | cons second more => exact ih (pairwise_cons.mp sorted).2 (by simpa using outermost)
    · rename_i deeper
      refine ⟨sorted, outermost, ?_⟩
      simpa using deeper

theorem misaligned_token {scanner : Scanner} {kept : List Nat}
    (above : kept.headD 0 ≤ leadingColumn ['\x0c', '\r'] 0 (scanner.rest.takeWhile isIndentChar))
    (differs : kept.headD 0 ≠ leadingColumn ['\x0c', '\r'] 0 (scanner.rest.takeWhile isIndentChar)) :
    IsMisaligned ⟨.illegal, String.ofList (scanner.rest.takeWhile isIndentChar), scanner.line⟩ := by
  refine ⟨rfl, ?_, ?_⟩
  · intro none
    rw [String.toList_ofList] at none
    simp only [none, leadingColumn] at above differs
    omega
  · intro c member
    rw [String.toList_ofList] at member
    exact all_eq_true.mp all_takeWhile c member

theorem openLine_cases {scanner : Scanner} (sound : scanner.Sound) :
    (isBlankLine (scanner.rest.dropWhile isIndentChar) = true ∧
      scanner.openLine =
        { scanner with rest := scanner.rest.dropWhile isIndentChar, atLineStart := false }) ∨
    (isBlankLine (scanner.rest.dropWhile isIndentChar) = false ∧ ∃ columns opening,
      scanner.openLine =
        { scanner with
          rest := scanner.rest.dropWhile isIndentChar
          atLineStart := false
          indents := columns
          pending := opening } ∧
      Opening (scanner.indents.length - 1) (columns.length - 1) opening ∧
      columns.Pairwise (· > ·) ∧ columns.getLast? = some 0) := by
  unfold openLine
  dsimp only
  split
  · rename_i blank
    exact .inl ⟨blank, rfl⟩
  · rename_i visible
    refine .inr ⟨by simpa using visible, ?_⟩
    have present : 0 < scanner.indents.length := length_pos_iff.mpr sound.indents_ne_nil
    split
    · rename_i deeper
      refine ⟨_, _, rfl, ?_, ?_, ?_⟩
      · have same : (leadingColumn ['\x0c', '\r'] 0 (scanner.rest.takeWhile isIndentChar) ::
            scanner.indents).length - 1 = scanner.indents.length - 1 + 1 := by
          simp only [length_cons]
          omega
        rw [same]
        exact .deeper rfl
      · refine pairwise_cons.mpr ⟨?_, sound.columns⟩
        intro column member
        rcases columns : scanner.indents with _ | ⟨first, rest⟩
        · simp [columns] at member
        · have sorted := sound.columns
          rw [columns] at member deeper sorted
          have first_le : column ≤ first := by
            rcases mem_cons.mp member with rfl | member
            · exact Nat.le_refl _
            · exact Nat.le_of_lt ((pairwise_cons.mp sorted).1 _ member)
          simp only [headD_cons] at deeper
          omega
      · rw [List.getLast?_cons, sound.outermost]
        rfl
    · rename_i shallower
      generalize measured :
        leadingColumn ['\x0c', '\r'] 0 (scanner.rest.takeWhile isIndentChar) = column
      obtain ⟨sorted, outermost, above⟩ := dropWhile_columns column sound.columns sound.outermost
      have kept : 0 < (scanner.indents.dropWhile (column < ·)).length := by
        refine length_pos_iff.mpr fun none => ?_
        simp [none] at outermost
      have parts := congrArg List.length
        (takeWhile_append_dropWhile (p := (column < ·)) (l := scanner.indents))
      rw [length_append] at parts
      have before : scanner.indents.length - 1 =
          (scanner.indents.dropWhile (column < ·)).length - 1 +
            ((scanner.indents.takeWhile (column < ·)).map
              fun _ => (⟨.dedent, "", scanner.line⟩ : Token)).length := by
        rw [length_map]
        omega
      have dedents : ∀ token ∈ (scanner.indents.takeWhile (column < ·)).map
          fun _ => (⟨.dedent, "", scanner.line⟩ : Token), token.kind = .dedent := by
        intro token member
        obtain ⟨_, _, rfl⟩ := mem_map.mp member
        rfl
      refine ⟨_, _, rfl, ?_, sorted, outermost⟩
      rw [before]
      split
      · rw [append_nil]
        exact .shallower dedents
      · rename_i differs
        subst measured
        exact .misaligned dedents (misaligned_token above differs)

theorem Sound.not_fresh {scanner : Scanner} (sound : scanner.Sound)
    (inside : ¬ (scanner.atLineStart = true ∧ scanner.depth = 0)) : scanner.atLineStart = false := by
  cases fresh : scanner.atLineStart
  · rfl
  · exact absurd ⟨fresh, (sound.fresh fresh).1⟩ inside

theorem Steps.sound {scanner after : Scanner} {token : Option Token}
    (taken : Steps scanner token after) (sound : scanner.Sound) : after.Sound := by
  cases taken with
  | queued waiting =>
    refine ⟨sound.columns, sound.outermost, fun fresh => ?_⟩
    have idle := (sound.fresh fresh).2.2
    rw [waiting] at idle
    cases idle
  | opened idle fresh flat =>
    rcases openLine_cases sound with ⟨_, same⟩ | ⟨_, columns, opening, same, _, sorted, outermost⟩
    · rw [same]
      exact ⟨sound.columns, sound.outermost, by simp⟩
    · rw [same]
      exact ⟨sorted, outermost, by simp⟩
  | lastDedent idle inside ahead blank nested =>
    have sorted := sound.columns
    have outermost := sound.outermost
    rw [nested] at sorted outermost
    refine ⟨(pairwise_cons.mp sorted).2, by simpa using outermost, ?_⟩
    simp [sound.not_fresh inside]
  | lineBreak idle | blankBreak idle =>
    exact ⟨sound.columns, sound.outermost, fun _ => ⟨rfl, rfl, idle⟩⟩
  | lastBreak idle inside | ended idle inside | comment idle inside | joined idle inside
  | continued idle inside | unit idle inside =>
    exact ⟨sound.columns, sound.outermost, by simp [sound.not_fresh inside]⟩

inductive Reached (text : String) (line : Nat) : Scanner → Prop where
  | start : Reached text line (start text.toList line)
  | step {scanner : Scanner} (before : Reached text line scanner) : Reached text line scanner.step.2

theorem Reached.sound {text : String} {line : Nat} {scanner : Scanner}
    (reached : Reached text line scanner) : scanner.Sound := by
  induction reached with
  | start => exact start_sound _ _
  | step _ ih => exact (step_steps _).sound ih

theorem tokens_pending {scanner : Scanner}
    (more : ∀ token ∈ scanner.pending, token.kind ≠ .endOfInput) :
    scanner.tokens = scanner.pending ++ { scanner with pending := [] }.tokens := by
  rcases scanner with ⟨rest, line, indents, pending, atLineStart, hasContent, depth⟩
  induction pending with
  | nil => rfl
  | cons token others ih =>
    have taken : step ⟨rest, line, indents, token :: others, atLineStart, hasContent, depth⟩ =
        (some token, ⟨rest, line, indents, others, atLineStart, hasContent, depth⟩) := rfl
    rw [tokens_of_some taken (more token (by simp)),
      ih fun other member => more other (mem_cons_of_mem _ member)]
    rfl

theorem tokens_at_end {scanner : Scanner} (sound : scanner.Sound) (idle : scanner.pending = [])
    (inside : ¬ (scanner.atLineStart = true ∧ scanner.depth = 0))
    (ahead : scanner.rest.dropWhile isIndentChar = []) (blank : scanner.hasContent = false) :
    scanner.tokens = List.replicate (scanner.indents.length - 1) ⟨.dedent, "", scanner.line⟩ ++
      [⟨.endOfInput, "", scanner.line⟩] := by
  rcases scanner with ⟨rest, line, indents, pending, atLineStart, hasContent, depth⟩
  dsimp only at idle inside ahead blank ⊢
  subst idle blank
  have fresh : ¬ (atLineStart = true ∧ depth = 0) := inside
  have step_eq : ∀ columns text, text.dropWhile isIndentChar = [] →
      step ⟨text, line, columns, [], atLineStart, false, depth⟩ =
        (some (finish ⟨[], line, columns, [], atLineStart, false, depth⟩).1,
          (finish ⟨[], line, columns, [], atLineStart, false, depth⟩).2) := by
    intro columns text none
    simp only [step]
    rw [if_neg fresh]
    simp only [none]
  have present : indents ≠ [] := sound.indents_ne_nil
  clear sound
  induction indents generalizing rest with
  | nil => exact absurd rfl present
  | cons column outer ih =>
    cases outer with
    | nil => exact tokens_of_end (step_eq _ _ ahead) rfl
    | cons next more =>
      rw [tokens_of_some (step_eq _ _ ahead) (by simp [finish])]
      have rest_tokens := ih [] rfl (by simp)
      simp only [finish, Bool.false_eq_true, ↓reduceIte, rest_tokens, length_cons,
        Nat.add_sub_cancel, replicate_succ, cons_append]

theorem visible_ahead {rest text : List Char} {c : Char}
    (ahead : rest.dropWhile isIndentChar = c :: text) : isIndentChar c = false := by
  have head := List.head?_dropWhile_not isIndentChar rest
  simpa [ahead] using head

theorem lexeme_goes_on {c : Char} {text more : List Char} (ahead : text.dropWhile isIndentChar = c :: more) :
    (lexeme c more).kind ≠ .endOfInput := by
  intro ended
  have written := (lexeme_written more (visible_ahead ahead)).1
  rw [ended] at written
  cases written

theorem Steps.final {scanner after : Scanner} {read : Token} (taken : Steps scanner (some read) after)
    (final : read.kind = .endOfInput) :
    (∃ more, scanner.pending = read :: more ∧ after = { scanner with pending := more }) ∨
      scanner.rest.dropWhile isIndentChar = [] ∧ scanner.hasContent = false ∧ after.rest = [] := by
  cases taken with
  | queued waiting => exact .inl ⟨_, waiting, rfl⟩
  | ended _ _ ahead blank => exact .inr ⟨ahead, blank, rfl⟩
  | lastBreak | lastDedent | lineBreak => cases final
  | unit _ _ ahead => exact absurd final (lexeme_goes_on ahead)

theorem step_visible {scanner : Scanner} (idle : scanner.pending = [])
    (inside : ¬ (scanner.atLineStart = true ∧ scanner.depth = 0)) {c : Char} {text : List Char}
    (ahead : scanner.rest.dropWhile isIndentChar = c :: text)
    (starts : isBlankLine (c :: text) = false) :
    ∃ token after, scanner.step = (some token, after) ∧ token.IsContent ∧ after.pending = [] ∧
      after.hasContent = true ∧ after.indents = scanner.indents := by
  have content := (lexeme_written text (visible_ahead ahead)).isContent scanner.line
  exact ⟨_, _, (Steps.unit idle inside ahead starts).step_eq, content, idle, rfl, rfl⟩

def Shaped (scanner : Scanner) : Prop :=
  (scanner.hasContent = true → Body (scanner.indents.length - 1) scanner.tokens) ∧
    (scanner.hasContent = false → Lines (scanner.indents.length - 1) scanner.tokens)

theorem tokens_visible {scanner : Scanner} (sound : scanner.Sound) (idle : scanner.pending = [])
    (inside : ¬ (scanner.atLineStart = true ∧ scanner.depth = 0)) {c : Char} {text : List Char}
    (ahead : scanner.rest.dropWhile isIndentChar = c :: text)
    (starts : isBlankLine (c :: text) = false)
    (shaped : ∀ after : Scanner, after.work < scanner.work → after.Sound → after.pending = [] →
      after.Shaped) :
    ∃ token tokens, token.IsContent ∧ Body (scanner.indents.length - 1) tokens ∧
      scanner.tokens = token :: tokens := by
  obtain ⟨token, after, taken, content, idle', content', columns⟩ :=
    step_visible idle inside ahead starts
  have more : token.kind ≠ .endOfInput := by
    intro final
    simp [IsContent, final, Kind.isLayout] at content
  have smaller := step_some_work taken more
  have later : after.Sound := by
    have := (step_steps scanner).sound sound
    rwa [taken] at this
  have body := (shaped after smaller later idle').1 content'
  rw [columns] at body
  exact ⟨token, after.tokens, content, body, tokens_of_some taken more⟩

theorem tokens_shaped {scanner : Scanner} (sound : scanner.Sound) (idle : scanner.pending = []) :
    scanner.Shaped := by
  induction size : scanner.work using Nat.strongRecOn generalizing scanner with
  | ind size ih =>
    subst size
    have smaller := step_work scanner
    have taken := step_steps scanner
    generalize result : scanner.step = pair at taken smaller
    obtain ⟨token, after⟩ := pair
    dsimp only at taken smaller
    have later := taken.sound sound
    cases taken with
    | queued waiting => simp [idle] at waiting
    | opened _ fresh flat =>
      have blank := (sound.fresh fresh).2.1
      have less : scanner.openLine.work < scanner.work := by simpa using smaller
      refine ⟨by simp [blank], fun _ => ?_⟩
      rw [tokens_of_none result]
      rcases openLine_cases sound with ⟨_, same⟩ | ⟨visible, columns, opening, same, opens, _, _⟩
      · rw [same] at later less ⊢
        exact (ih _ less later idle rfl).2 blank
      · rw [same] at later less ⊢
        rw [tokens_pending opens.more]
        rcases ahead : scanner.rest.dropWhile isIndentChar with _ | ⟨c, text⟩
        · simp [ahead, isBlankLine] at visible
        · rw [ahead] at visible later less
          let opened : Scanner := { scanner with
            rest := c :: text, atLineStart := false, indents := columns, pending := [] }
          have openedSound : opened.Sound := ⟨later.columns, later.outermost, by simp [opened]⟩
          have openedAhead : opened.rest.dropWhile isIndentChar = c :: text :=
            dropWhile_cons_of_neg (by simp [visible_ahead ahead])
          have openedWork : opened.work < scanner.work := by
            refine Nat.lt_of_le_of_lt ?_ less
            simp only [opened, work, length_nil]
            omega
          obtain ⟨first, tokens, content, body, all⟩ :=
            tokens_visible openedSound rfl (by simp [opened]) openedAhead visible
              fun _ shorter sound' idle' => ih _ (Nat.lt_trans shorter openedWork) sound' idle' rfl
          change Lines _ (opening ++ opened.tokens)
          rw [all]
          exact body.opened opens content
    | lastBreak _ inside ahead content | lineBreak _ inside ahead ends content =>
      have less := smaller.resolve_right (by simp)
      refine ⟨fun _ => ?_, by simp [content]⟩
      rw [tokens_of_some result (by simp)]
      exact .final rfl ((ih _ less later idle rfl).2 rfl)
    | lastDedent _ inside ahead blank | ended _ inside ahead blank =>
      refine ⟨by simp [blank], fun _ => ?_⟩
      rw [tokens_at_end sound idle inside ahead blank]
      exact .done (by simp) (by simp) rfl
    | comment _ inside ahead | joined _ inside ahead | continued _ inside ahead =>
      have less := smaller.resolve_right (by simp)
      rw [Shaped, tokens_of_none result]
      exact ih _ less later idle rfl
    | blankBreak _ inside ahead ends blank =>
      have less := smaller.resolve_right (by simp)
      refine ⟨by simp [blank], fun _ => ?_⟩
      rw [tokens_of_none result]
      exact (ih _ less later idle rfl).2 rfl
    | unit _ inside ahead starts =>
      obtain ⟨first, tokens, content, body, all⟩ := tokens_visible sound idle inside ahead starts
        fun _ shorter sound' idle' => ih _ shorter sound' idle' rfl
      rw [Shaped, all]
      exact ⟨fun _ => .content content body, fun _ => body.opened (.flat _) content⟩

end Scanner

namespace Token

open Layout

theorem ofText_layout (text : String) (line : Nat) : Lines 0 (ofText text line) :=
  (Scanner.tokens_shaped (Scanner.start_sound text.toList line) rfl).2 rfl

/-- The tokens of a text are logical lines, the dedents of the blocks still open and one end of
    input. Every dedent closes an indent before it, every indent is closed, and at each step of
    reading the open columns grow from zero. -/
theorem ofText_logical_lines (text : String) (line : Nat) :
    (∃ (lines : List (List Token)) (closing : List Token) (last : Token),
      ofText text line = lines.flatten ++ closing ++ [last] ∧
      (∀ line ∈ lines, IsLine line) ∧ (∀ token ∈ closing, token.kind = .dedent) ∧
      last.kind = .endOfInput) ∧
    (∀ front, front <+: ofText text line → dedents front ≤ indents front) ∧
    dedents (ofText text line) = indents (ofText text line) ∧
    ∀ scanner, Scanner.Reached text line scanner →
      scanner.indents.reverse.Pairwise (· < ·) ∧ scanner.indents.reverse.head? = some 0 := by
  have lines := ofText_layout text line
  have level := lines.levelAfter
  refine ⟨lines.split, ?_, ?_, ?_⟩
  · intro front part
    have := levelAfter_front level part
    omega
  · have := levelAfter_count level
    omega
  · intro scanner reached
    exact ⟨pairwise_reverse.mpr reached.sound.columns,
      List.head?_reverse.trans reached.sound.outermost⟩

end Token
end SourceAudit
