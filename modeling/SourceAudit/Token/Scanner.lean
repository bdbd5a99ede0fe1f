import SourceAudit.Text.Class
import SourceAudit.Token.Number
import SourceAudit.Token.Quoted

namespace SourceAudit.Token

def longOperators : List String :=
  ["**=", "//=", ">>=", "<<=", "...",
   "**", "//", "<<", ">>", "<=", ">=", "==", "!=", "->", "+=", "-=", "*=", "/=", "%=", "&=", "|=",
   "^=", ":=", "@="]

def operatorChars : List Char :=
  ['+', '-', '*', '/', '%', '<', '>', '=', '!', '&', '|', '^', '~', '@', '.']

def delimiterChars : List Char := ['(', ')', '[', ']', '\x7b', '\x7d', ',', ':', ';']

/-- Words that cannot continue an expression. One of these at the start of a line, at or left of
    the current indentation, ends every open bracket. -/
def bracketEnders : List String :=
  ["def", "class", "return", "import", "while", "with", "try", "raise", "pass", "break",
   "continue", "del", "global", "nonlocal", "assert", "async"]

def stringPrefixes : List String := ["r", "b", "u", "f", "rb", "br", "fr", "rf"]

def lowerAscii (word : List Char) : List Char := word.map Char.toLower

/-- The column after the leading blanks: a tab goes to the next multiple of eight. Characters of
    `skipped` move no column. -/
def leadingColumn (skipped : List Char) (column : Nat) : List Char → Nat
  | ' ' :: cs => leadingColumn skipped (column + 1) cs
  | '\t' :: cs => leadingColumn skipped ((column / 8 + 1) * 8) cs
  | c :: cs => if skipped.contains c then leadingColumn skipped column cs else column
  | [] => column

def isIndentChar (c : Char) : Bool := c == ' ' || c == '\t' || c == '\x0c' || c == '\r'

/-- One lexical unit read from the text: its kind and text, the line breaks inside it, and the
    characters after it. -/
structure Lexeme where
  kind : Kind
  text : List Char
  lines : Nat
  rest : List Char
deriving DecidableEq, Repr

def quotedLexeme (marks : List Char) (quote : Char) (text : List Char) : Lexeme :=
  let formatted := marks.contains 'f'
  let opened := openQuote (formatted || marks.contains 'r') quote text
  let body := opened.1.read opened.2
  if body.closed then ⟨if formatted then .formattedString else .string, body.value, body.lines, body.rest⟩
  else ⟨.illegal, opened.1.opening ++ body.value, body.lines, body.rest⟩

def wordLexeme (text : List Char) : Lexeme :=
  let word := text.takeWhile Text.isIdentifierChar
  match text.dropWhile Text.isIdentifierChar with
  | q :: rest =>
    if isQuote q && stringPrefixes.contains (String.ofList (lowerAscii word)) then
      quotedLexeme (lowerAscii word) q rest
    else ⟨kindOfWord (String.ofList word), word, 0, q :: rest⟩
  | [] => ⟨kindOfWord (String.ofList word), word, 0, []⟩

def numberLexeme (text : List Char) : Lexeme :=
  let number := numberText text
  ⟨if number.isFloat then .float else .integer, number.text, 0, number.rest⟩

def symbolLexeme (c : Char) (rest : List Char) : Lexeme :=
  match longOperators.find? fun symbol => symbol.toList.isPrefixOf (c :: rest) with
  | some symbol => ⟨.operator, symbol.toList, 0, (c :: rest).drop symbol.toList.length⟩
  | none =>
    if delimiterChars.contains c then ⟨.delimiter, [c], 0, rest⟩
    else if operatorChars.contains c then ⟨.operator, [c], 0, rest⟩
    else ⟨.illegal, [c], 0, rest⟩

/-- The lexical unit that starts with `c`, which is no blank, comment or line break. -/
def lexeme (c : Char) (rest : List Char) : Lexeme :=
  if isQuote c then quotedLexeme [] c rest
  else if c.isDigit || (c == '.' && rest.head?.any Char.isDigit) then numberLexeme (c :: rest)
  else if Text.isAlphabetic c || c == '_' then wordLexeme (c :: rest)
  else symbolLexeme c rest

def depthAfter (lexeme : Lexeme) (depth : Nat) : Nat :=
  if lexeme.kind = .delimiter then
    if lexeme.text = ['('] ∨ lexeme.text = ['['] ∨ lexeme.text = ['\x7b'] then depth + 1
    else if lexeme.text = [')'] ∨ lexeme.text = [']'] ∨ lexeme.text = ['\x7d'] then depth - 1
    else depth
  else depth

end Token

/-- The state of reading a text into tokens. `indents` holds the open indentation columns, the
    innermost first; `pending` the layout tokens of the line that has just been opened. -/
structure Scanner where
  rest : List Char
  line : Nat
  indents : List Nat
  pending : List Token
  atLineStart : Bool
  hasContent : Bool
  depth : Nat
deriving DecidableEq, Repr

namespace Scanner
open Token

def start (text : List Char) (line : Nat) : Scanner :=
  ⟨text, line, [0], [], true, false, 0⟩

/-- Whether the line at the start of the text can only begin a statement. -/
def startsStatement (scanner : Scanner) (text : List Char) : Bool :=
  leadingColumn [] 0 text ≤ scanner.indents.headD 0 &&
    bracketEnders.contains
      (String.ofList ((text.dropWhile fun c => c == ' ' || c == '\t').takeWhile Text.isIdentifierChar))

/-- Whether a line that continues with `text` after its indentation opens no logical line. -/
def isBlankLine : List Char → Bool
  | [] => true
  | '\n' :: _ => true
  | '#' :: _ => true
  | '\\' :: '\n' :: _ => true
  | _ => false

/-- Compares the indentation of a new line with the open columns and queues its layout tokens. -/
def openLine (scanner : Scanner) : Scanner :=
  let indentation := scanner.rest.takeWhile isIndentChar
  let column := leadingColumn ['\x0c', '\r'] 0 indentation
  let next := { scanner with rest := scanner.rest.dropWhile isIndentChar, atLineStart := false }
  let here (kind : Kind) (text : String) : Token := ⟨kind, text, scanner.line⟩
  if isBlankLine next.rest then next
  else if scanner.indents.headD 0 < column then
    { next with indents := column :: scanner.indents, pending := [here .indent ""] }
  else
    let closed := scanner.indents.takeWhile (column < ·)
    let kept := scanner.indents.dropWhile (column < ·)
    let fault := if kept.headD 0 = column then [] else [here .illegal (String.ofList indentation)]
    { next with indents := kept, pending := closed.map (fun _ => here .dedent "") ++ fault }

/-- The tokens that end the text, one at each call: the last line break, the open indentations,
    then the end of input for ever. -/
def finish (scanner : Scanner) : Token × Scanner :=
  if scanner.hasContent then
    (⟨.newline, "\n", scanner.line⟩, { scanner with hasContent := false })
  else
    match scanner.indents with
    | _ :: outer :: more => (⟨.dedent, "", scanner.line⟩, { scanner with indents := outer :: more })
    | _ => (⟨.endOfInput, "", scanner.line⟩, scanner)

/-- One step of reading: either a token, or only a change of state. -/
def step (scanner : Scanner) : Option Token × Scanner :=
  match scanner.pending with
  | token :: more => (some token, { scanner with pending := more })
  | [] =>
    if scanner.atLineStart ∧ scanner.depth = 0 then (none, scanner.openLine)
    else
      match scanner.rest.dropWhile isIndentChar with
      | [] =>
        let last := { scanner with rest := [] }.finish
        (some last.1, last.2)
      | '#' :: cs => (none, { scanner with rest := cs.dropWhile (· ≠ '\n') })
      | '\n' :: cs =>
        let next := { scanner with rest := cs, line := lineAfter scanner.line 1 }
        if scanner.depth > 0 && !scanner.startsStatement cs then (none, next)
        else
          let opened := { next with depth := 0, atLineStart := true, hasContent := false }
          if scanner.hasContent then (some ⟨.newline, "\n", scanner.line⟩, opened) else (none, opened)
      | '\\' :: '\n' :: cs => (none, { scanner with rest := cs, line := lineAfter scanner.line 1 })
      | c :: cs =>
        let unit := lexeme c cs
        (some ⟨unit.kind, String.ofList unit.text, scanner.line⟩,
          { scanner with
            rest := unit.rest
            line := lineAfter scanner.line unit.lines
            hasContent := true
            depth := depthAfter unit scanner.depth })

/-- What is left to read: every step that does not end the input makes it smaller. -/
def work (scanner : Scanner) : Nat :=
  5 * scanner.rest.length + (if scanner.atLineStart then 3 else 0) + (if scanner.hasContent then 1 else 0)
    + scanner.indents.length + scanner.pending.length

theorem length_dropWhile_le {α : Type} (p : α → Bool) (l : List α) :
    (l.dropWhile p).length ≤ l.length :=
  (List.dropWhile_sublist p).length_le

theorem quotedLexeme_rest_le (marks : List Char) (quote : Char) (text : List Char) :
    (quotedLexeme marks quote text).rest.length ≤ text.length := by
  have opened := openQuote_length_le (marks.contains 'f' || marks.contains 'r') quote text
  have body := QuoteStyle.read_rest_le
    (openQuote (marks.contains 'f' || marks.contains 'r') quote text).1
    (openQuote (marks.contains 'f' || marks.contains 'r') quote text).2
  unfold quotedLexeme
  dsimp only
  split <;> exact Nat.le_trans body opened

theorem wordLexeme_rest_lt (c : Char) (rest : List Char) (start : Text.isIdentifierChar c = true) :
    (wordLexeme (c :: rest)).rest.length < (c :: rest).length := by
  have short := length_dropWhile_le Text.isIdentifierChar rest
  unfold wordLexeme
  simp only [List.dropWhile_cons_of_pos start, List.length_cons]
  split
  · rename_i q after same
    rw [same, List.length_cons] at short
    split
    · have := quotedLexeme_rest_le
        (lowerAscii ((c :: rest).takeWhile Text.isIdentifierChar)) q after
      omega
    · simp only [List.length_cons]
      omega
  · simp

theorem symbolLexeme_rest_lt (c : Char) (rest : List Char) :
    (symbolLexeme c rest).rest.length < (c :: rest).length := by
  unfold symbolLexeme
  split
  · rename_i symbol found
    have member := List.mem_of_find?_eq_some found
    have positive : 0 < symbol.toList.length := by
      have all : ∀ symbol ∈ longOperators, 0 < symbol.toList.length := by decide
      exact all symbol member
    simp only [List.length_drop, List.length_cons]
    omega
  · split
    · simp
    · split <;> simp

theorem lexeme_rest_lt (c : Char) (rest : List Char) :
    (lexeme c rest).rest.length < (c :: rest).length := by
  unfold lexeme
  split
  · have := quotedLexeme_rest_le [] c rest
    simp only [List.length_cons]
    omega
  · split
    · rename_i number
      apply numberText_rest_lt
      simpa using number
    · split
      · rename_i word
        apply wordLexeme_rest_lt
        simp only [Text.isIdentifierChar, Text.isAlphanumeric, Bool.or_eq_true] at word ⊢
        rcases word with word | word
        · exact Or.inl (Or.inl word)
        · exact Or.inr word
      · exact symbolLexeme_rest_lt c rest

theorem openLine_work (scanner : Scanner) (open_ : scanner.atLineStart = true)
    (idle : scanner.pending = []) : scanner.openLine.work < scanner.work := by
  have short := length_dropWhile_le isIndentChar scanner.rest
  unfold openLine
  dsimp only
  split
  · simp only [work, open_, idle, List.length_nil, Bool.false_eq_true, ↓reduceIte]
    omega
  · split
    · simp only [work, open_, idle, List.length_nil, List.length_cons, Bool.false_eq_true, ↓reduceIte]
      omega
    · have parts := congrArg List.length
        (List.takeWhile_append_dropWhile
          (p := (leadingColumn ['\x0c', '\r'] 0 (scanner.rest.takeWhile isIndentChar) < ·))
          (l := scanner.indents))
      simp only [List.length_append] at parts
      simp only [work, open_, idle, List.length_nil, List.length_append, List.length_map,
        Bool.false_eq_true, ↓reduceIte]
      split <;> split <;> simp only [List.length_nil, List.length_cons] <;> omega

theorem finish_work (scanner : Scanner) :
    scanner.finish.2.work < scanner.work ∨ scanner.finish.1.kind = .endOfInput := by
  unfold finish
  split
  · rename_i content
    left
    simp only [work, content, Bool.false_eq_true, ↓reduceIte]
    omega
  · split
    · rename_i same
      left
      simp only [work, same, List.length_cons]
      omega
    · exact Or.inr rfl

/-- Every step makes the work smaller, except the one that reports the end of input. -/
theorem step_work (scanner : Scanner) :
    scanner.step.2.work < scanner.work ∨
      ∃ token, scanner.step.1 = some token ∧ token.kind = .endOfInput := by
  have short := length_dropWhile_le isIndentChar scanner.rest
  unfold step
  split
  · rename_i token more same
    left
    simp only [work, same, List.length_cons]
    omega
  · rename_i idle
    split
    · rename_i fresh
      exact Or.inl (openLine_work scanner fresh.1 idle)
    · split
      · rename_i blank
        rcases finish_work { scanner with rest := [] } with smaller | done
        · left
          refine Nat.lt_of_lt_of_le smaller ?_
          simp only [work, List.length_nil]
          omega
        · exact Or.inr ⟨_, rfl, done⟩
      · rename_i cs same
        left
        have := length_dropWhile_le (fun c => decide (c ≠ '\n')) cs
        rw [same, List.length_cons] at short
        simp only [work]
        omega
      · rename_i cs same
        left
        rw [same, List.length_cons] at short
        dsimp only
        split
        · simp only [work]
          omega
        · split <;> simp only [work, Bool.false_eq_true, ↓reduceIte] <;> split <;> omega
      · rename_i cs same
        left
        rw [same, List.length_cons, List.length_cons] at short
        simp only [work]
        omega
      · rename_i c cs _ _ _ same
        left
        have := lexeme_rest_lt c cs
        rw [same] at short
        simp only [work, ↓reduceIte]
        omega

theorem step_none_work {scanner next : Scanner} (skip : scanner.step = (none, next)) :
    next.work < scanner.work := by
  rcases step_work scanner with smaller | ⟨token, some_, _⟩
  · rwa [skip] at smaller
  · rw [skip] at some_
    cases some_

/-- The next token. Once the input has ended, this is the end of input for ever. -/
def next (scanner : Scanner) : Token × Scanner :=
  match _taken : scanner.step with
  | (some token, after) => (token, after)
  | (none, after) => after.next
termination_by scanner.work
decreasing_by exact step_none_work _taken

theorem next_work (scanner : Scanner) :
    scanner.next.2.work < scanner.work ∨ scanner.next.1.kind = .endOfInput := by
  fun_induction next scanner with
  | case1 scanner token after taken =>
    rcases step_work scanner with smaller | ⟨_, same, done⟩
    · left
      rwa [taken] at smaller
    · rw [taken] at same
      injection same with same
      subst same
      exact Or.inr done
  | case2 scanner after taken ih =>
    rcases ih with smaller | done
    · exact Or.inl (Nat.lt_trans smaller (step_none_work taken))
    · exact Or.inr done

def tokens (scanner : Scanner) : List Token :=
  if scanner.next.1.kind = .endOfInput then [scanner.next.1]
  else scanner.next.1 :: scanner.next.2.tokens
termination_by scanner.work
decreasing_by
  rcases next_work scanner with smaller | done
  · exact smaller
  · contradiction

def take (scanner : Scanner) : Nat → List Token
  | 0 => []
  | n + 1 => scanner.next.1 :: scanner.next.2.take n

end Scanner

namespace Token

def ofText (text : String) (line : Nat) : List Token := (Scanner.start text.toList line).tokens

end Token
end SourceAudit
