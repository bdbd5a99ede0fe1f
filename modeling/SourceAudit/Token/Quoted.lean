import SourceAudit.Token.Basic

namespace SourceAudit.Token

/-- What follows an opening quote: the value, the line breaks passed, whether the closing quote was
    found, and the characters after it. An unclosed line ends before its line break. -/
structure QuotedText where
  value : List Char
  lines : Nat
  closed : Bool
  rest : List Char
deriving DecidableEq, Repr

/-- The form of a string literal: its quote, three quotes or one, and whether backslashes stay. -/
structure QuoteStyle where
  quote : Char
  triple : Bool
  verbatim : Bool
deriving DecidableEq, Repr

def QuotedText.push (chars : List Char) (text : QuotedText) : QuotedText :=
  { text with value := chars ++ text.value }

def QuotedText.nextLine (text : QuotedText) : QuotedText :=
  { text with lines := text.lines + 1 }

def escaped (c : Char) : List Char :=
  match c with
  | 'n' => ['\n']
  | 't' => ['\t']
  | 'r' => ['\r']
  | '0' => ['\x00']
  | '\\' => ['\\']
  | '\x27' => ['\x27']
  | '\x22' => ['\x22']
  | other => ['\\', other]

namespace QuoteStyle

def opening (style : QuoteStyle) : List Char :=
  if style.triple then [style.quote, style.quote, style.quote] else [style.quote]

def close? (style : QuoteStyle) (text : List Char) : Option (List Char) :=
  if style.opening.isPrefixOf text then some (text.drop style.opening.length) else none

def read (style : QuoteStyle) : List Char → QuotedText
  | [] => ⟨[], 0, false, []⟩
  | c :: cs =>
    match style.close? (c :: cs) with
    | some rest => ⟨[], 0, true, rest⟩
    | none =>
      if c = '\n' then
        if style.triple then ((style.read cs).push [c]).nextLine else ⟨[], 0, false, c :: cs⟩
      else if c = '\\' then
        match cs with
        | [] => ⟨[], 0, false, []⟩
        | d :: ds =>
          if d = '\n' then
            ((style.read ds).push (if style.verbatim then ['\\', '\n'] else [])).nextLine
          else (style.read ds).push (if style.verbatim then ['\\', d] else escaped d)
      else (style.read cs).push [c]

section Branches

variable {style : QuoteStyle} {c d : Char} {cs ds rest : List Char}

theorem read_closing (closes : style.close? (c :: cs) = some rest) : style.read (c :: cs) = ⟨[], 0, true, rest⟩ := by
  rw [read.eq_def]
  simp only [closes]

theorem read_lineBreak (opened : style.close? ('\n' :: cs) = none) (triple : style.triple = true) :
    style.read ('\n' :: cs) = ((style.read cs).push ['\n']).nextLine := by
  rw [read.eq_def]
  simp [opened, triple]

theorem read_lineEnd (opened : style.close? ('\n' :: cs) = none) (single : ¬ style.triple = true) :
    style.read ('\n' :: cs) = ⟨[], 0, false, '\n' :: cs⟩ := by
  rw [read.eq_def]
  simp [opened, single]

theorem read_backslash (opened : style.close? ['\\'] = none) : style.read ['\\'] = ⟨[], 0, false, []⟩ := by
  rw [read.eq_def]
  simp [opened]

theorem read_joint (opened : style.close? ('\\' :: '\n' :: ds) = none) :
    style.read ('\\' :: '\n' :: ds) =
      ((style.read ds).push (if style.verbatim then ['\\', '\n'] else [])).nextLine := by
  rw [read.eq_def]
  simp [opened]

theorem read_escape (opened : style.close? ('\\' :: d :: ds) = none) (inner : d ≠ '\n') :
    style.read ('\\' :: d :: ds) = (style.read ds).push (if style.verbatim then ['\\', d] else escaped d) := by
  rw [read.eq_def]
  simp [opened, inner]

theorem read_plain (opened : style.close? (c :: cs) = none) (inner : c ≠ '\n') (plain : c ≠ '\\') :
    style.read (c :: cs) = (style.read cs).push [c] := by
  rw [read.eq_def]
  simp [opened, inner, plain]

end Branches

theorem close?_length_le {style : QuoteStyle} {text rest : List Char}
    (closed : style.close? text = some rest) : rest.length ≤ text.length := by
  unfold close? at closed
  split at closed
  · injection closed with same
    subst same
    simp
  · cases closed

theorem read_rest_le (style : QuoteStyle) (text : List Char) :
    (style.read text).rest.length ≤ text.length := by
  fun_induction read style text with
  | case2 c cs rest closed => exact close?_length_le closed
  | _ => grind [QuotedText.push, QuotedText.nextLine]

end QuoteStyle

/-- The style of the literal whose quote is the first character of the text, and what follows the
    opening quotes. -/
def openQuote (verbatim : Bool) (quote : Char) (text : List Char) : QuoteStyle × List Char :=
  if [quote, quote].isPrefixOf text then (⟨quote, true, verbatim⟩, text.drop 2)
  else (⟨quote, false, verbatim⟩, text)

theorem openQuote_length_le (verbatim : Bool) (quote : Char) (text : List Char) :
    (openQuote verbatim quote text).2.length ≤ text.length := by
  unfold openQuote
  split <;> simp

end SourceAudit.Token
