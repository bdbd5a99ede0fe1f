import SourceAudit.Proofs.Scanner.Layout

namespace SourceAudit

namespace Token

inductive Maker where
  | indentation
  | literal
  | symbol
deriving DecidableEq

def Maker.ofChar (c : Char) : Maker :=
  if isQuote c then .literal else if isIndentChar c then .indentation else .symbol

def StartsSymbol (c : Char) (text : List Char) : Prop :=
  isQuote c = false ∧ (c.isDigit || (c == '.' && text.head?.any Char.isDigit)) = false ∧
    (Text.isAlphabetic c || c == '_') = false

/-- The letters before the quote of a literal: none, or one of the usual prefixes in any letter case. -/
def IsMark (letters : List Char) : Prop :=
  letters = [] ∨ stringPrefixes.contains (String.ofList (lowerAscii letters)) = true

def Lexeme.token (unit : Lexeme) (line : Nat) : Token := ⟨unit.kind, String.ofList unit.text, line⟩

theorem lexeme_illegal {c : Char} {text : List Char} (illegal : (lexeme c text).kind = .illegal) :
    (∃ letters quote inner, c :: text = letters ++ quote :: inner ∧ IsMark letters ∧ isQuote quote = true ∧
      lexeme c text = quotedLexeme (lowerAscii letters) quote inner) ∨
    StartsSymbol c text ∧ lexeme c text = symbolLexeme c text := by
  unfold lexeme at illegal ⊢
  split at illegal
  · rename_i quoted
    rw [if_pos quoted]
    exact .inl ⟨[], c, text, rfl, .inl rfl, quoted, rfl⟩
  rename_i plain
  rw [if_neg plain]
  split at illegal
  · rcases numberLexeme_kind (c :: text) with kind | kind <;> rw [kind] at illegal <;> cases illegal
  rename_i number
  rw [if_neg number]
  split at illegal
  · rename_i word
    rw [if_pos word]
    have whole := @List.takeWhile_append_dropWhile _ Text.isIdentifierChar (c :: text)
    unfold wordLexeme at illegal ⊢
    dsimp only at illegal ⊢
    split at illegal
    · rename_i q rest ahead
      rw [ahead] at whole
      split at illegal
      · rename_i opens
        obtain ⟨quoted, mark⟩ := Bool.and_eq_true_iff.mp opens
        rw [if_pos opens]
        exact .inl ⟨_, q, rest, whole.symm, .inr mark, quoted, rfl⟩
      · exact absurd illegal (kindOfWord_written _).2
    · exact absurd illegal (kindOfWord_written _).2
  · rename_i word
    rw [if_neg word]
    exact .inr ⟨⟨by simpa using plain, by simpa using number, by simpa using word⟩, rfl⟩

theorem symbolLexeme_illegal {c : Char} {text : List Char} (illegal : (symbolLexeme c text).kind = .illegal) :
    (symbolLexeme c text).text = [c] := by
  unfold symbolLexeme at illegal ⊢
  split at illegal
  · cases illegal
  · split at illegal
    · cases illegal
    · split at illegal
      · cases illegal
      · rename_i delimiter operator
        rw [if_neg delimiter, if_neg operator]

end Token

namespace Scanner

open Token

/-- What each part of the scanner makes in a state: the tokens that it queues for the line it opens, the literal ahead,
    or the symbol ahead. -/
inductive Makes (scanner : Scanner) : Maker → Token → Prop where
  | indentation {token : Token} (idle : scanner.pending = []) (fresh : scanner.atLineStart = true)
      (flat : scanner.depth = 0) (queued : token ∈ scanner.openLine.pending) : Makes scanner .indentation token
  | literal {letters inner : List Char} {quote : Char} (idle : scanner.pending = [])
      (inside : ¬ (scanner.atLineStart = true ∧ scanner.depth = 0))
      (ahead : scanner.rest.dropWhile isIndentChar = letters ++ quote :: inner) (mark : IsMark letters)
      (opens : isQuote quote = true) :
      Makes scanner .literal ((quotedLexeme (lowerAscii letters) quote inner).token scanner.line)
  | symbol {c : Char} {text : List Char} (idle : scanner.pending = [])
      (inside : ¬ (scanner.atLineStart = true ∧ scanner.depth = 0))
      (ahead : scanner.rest.dropWhile isIndentChar = c :: text) (starts : isBlankLine (c :: text) = false)
      (other : StartsSymbol c text) : Makes scanner .symbol ((symbolLexeme c text).token scanner.line)

variable {scanner : Scanner} {maker : Maker} {token : Token}

theorem Makes.ofChar (makes : scanner.Makes maker token) (sound : scanner.Sound) (illegal : token.kind = .illegal) :
    ∃ c more, token.text.toList = c :: more ∧ maker = .ofChar c := by
  cases makes with
  | indentation idle fresh flat queued =>
    obtain ⟨-, -, kind | kind | ⟨⟨-, some, blank⟩, -⟩⟩ := openLine_pending sound idle token queued
    · cases kind.symm.trans illegal
    · cases kind.symm.trans illegal
    · obtain ⟨c, more, text⟩ := List.exists_cons_of_ne_nil some
      have blank := blank c (by simp [text])
      have plain : isQuote c = false := by
        cases quote : isQuote c with
        | false => rfl
        | true => exact absurd (isQuote_not_blank quote) (by simp [blank])
      exact ⟨c, more, text, by simp [Maker.ofChar, plain, blank]⟩
  | @literal letters inner quote idle inside ahead mark opens =>
    rcases quotedLexeme_kind (lowerAscii letters) quote inner with kind | kind | ⟨_, head⟩
    · cases kind.symm.trans illegal
    · cases kind.symm.trans illegal
    · obtain ⟨more, text⟩ := List.head?_eq_some_iff.mp head
      exact ⟨quote, more, by simp [Lexeme.token, text], by simp [Maker.ofChar, opens]⟩
  | @symbol c text idle inside ahead starts other =>
    refine ⟨c, [], by simp [Lexeme.token, symbolLexeme_illegal illegal], ?_⟩
    simp [Maker.ofChar, other.1, visible_ahead ahead]

def Made (text : String) (line : Nat) (maker : Maker) (token : Token) : Prop :=
  ∃ scanner, Reached text line scanner ∧ scanner.Makes maker token

variable {text : String} {line : Nat}

theorem Reached.queued (reached : Reached text line scanner) :
    ∀ token ∈ scanner.pending, Made text line .indentation token := by
  induction reached with
  | start => simp [Scanner.start]
  | @step scanner before ih =>
    have taken := step_steps scanner
    generalize scanner.step.1 = read, scanner.step.2 = after at taken
    cases taken with
    | queued waiting =>
      rw [waiting] at ih
      exact fun token member => ih token (List.mem_cons_of_mem _ member)
    | opened idle fresh flat => exact fun token member => ⟨scanner, before, .indentation idle fresh flat member⟩
    | _ => exact ih

theorem Steps.made {after : Scanner} (taken : Steps scanner (some token) after) (reached : Reached text line scanner)
    (illegal : token.kind = .illegal) : ∃ maker, Made text line maker token := by
  cases taken with
  | queued waiting => exact ⟨_, reached.queued token (by simp [waiting])⟩
  | lastBreak | lastDedent | ended | lineBreak => cases illegal
  | @unit c text idle inside ahead starts =>
    rcases lexeme_illegal illegal with ⟨letters, quote, inner, whole, mark, opens, same⟩ | ⟨other, same⟩
    · rw [same]
      exact ⟨_, scanner, reached, .literal idle inside (ahead.trans whole) mark opens⟩
    · rw [same]
      exact ⟨_, scanner, reached, .symbol idle inside ahead starts other⟩

theorem Reached.made (reached : Reached text line scanner) (member : token ∈ scanner.tokens)
    (illegal : token.kind = .illegal) : ∃ maker, Made text line maker token := by
  induction scanner using run_induction with
  | step scanner read after taken ih =>
    have onward : Reached text line after := by
      have next := reached.step
      rwa [taken.step_eq] at next
    cases read with
    | none =>
      rw [tokens_of_none taken.step_eq] at member
      exact ih (by simp) onward member
    | some read =>
      by_cases final : read.kind = .endOfInput
      · rw [tokens_of_end taken.step_eq final, List.mem_singleton] at member
        rw [member] at illegal
        cases illegal.symm.trans final
      · rw [tokens_of_some taken.step_eq final] at member
        rcases List.mem_cons.mp member with rfl | later
        · exact taken.made reached illegal
        · exact ih (by simpa using final) onward later

theorem made_iff (member : token ∈ ofText text line) (illegal : token.kind = .illegal) :
    ∃ c more, token.text.toList = c :: more ∧ ∀ maker, Made text line maker token ↔ maker = .ofChar c := by
  obtain ⟨maker, scanner, reached, makes⟩ := Reached.start.made member illegal
  obtain ⟨c, more, text, rfl⟩ := makes.ofChar reached.sound illegal
  refine ⟨c, more, text, fun other => ⟨fun ⟨place, found, made⟩ => ?_, ?_⟩⟩
  · obtain ⟨d, rest, same, rfl⟩ := made.ofChar found.sound illegal
    rw [text] at same
    cases same
    rfl
  · rintro rfl
    exact ⟨scanner, reached, makes⟩

end Scanner

namespace Token

open Scanner (Made made_iff)

def StartsBlank (token : Token) : Prop := token.text.toList.head? = some ' ' ∨ token.text.toList.head? = some '\t'

/-- Every illegal token has one maker. It counts as an unterminated string exactly if it is a literal, as an
    inconsistent dedent exactly if it is an indentation that starts with a blank or a tab, and as an illegal character
    if it is a symbol or any other indentation. -/
theorem fault?_causes {text : String} {line : Nat} {token : Token} (member : token ∈ ofText text line)
    (illegal : token.kind = .illegal) :
    (∃! maker, Made text line maker token) ∧
      (token.fault? = some .unterminatedString ↔ Made text line .literal token) ∧
      (token.fault? = some .inconsistentDedent ↔ Made text line .indentation token ∧ token.StartsBlank) ∧
      (token.fault? = some (.illegalCharacter token.text) ↔
        Made text line .symbol token ∨ Made text line .indentation token ∧ ¬ token.StartsBlank) := by
  obtain ⟨c, more, starts, made⟩ := made_iff member illegal
  refine ⟨⟨.ofChar c, (made _).mpr rfl, fun maker other => (made maker).mp other⟩, ?_⟩
  simp only [made, fault?, illegal, starts, StartsBlank, ↓reduceIte, List.head?_cons, Option.some.injEq]
  by_cases quote : isQuote c = true
  · simp [quote, Maker.ofChar]
  · by_cases blank : c = ' ' ∨ c = '\t'
    · have indents : isIndentChar c = true := by rcases blank with rfl | rfl <;> rfl
      simp [quote, blank, indents, Maker.ofChar]
    · cases indents : isIndentChar c <;> simp [quote, blank, indents, Maker.ofChar]

def feedDedent : String := "if x:\n    y\n\x0c  z\n"

theorem fault?_causes_literal :
    ⟨.illegal, "'a", 1⟩ ∈ ofText "'a" 1 ∧
      Made "'a" 1 .literal ⟨.illegal, "'a", 1⟩ ∧ fault? ⟨.illegal, "'a", 1⟩ = some .unterminatedString := by
  have member : ⟨.illegal, "'a", 1⟩ ∈ ofText "'a" 1 := by decide +kernel
  exact ⟨member, (fault?_causes member rfl).2.1.mp (by decide), by decide⟩

/-- The indentation of this line is no illegal character, but counts as one. -/
theorem feedDedent_fault :
    ⟨.illegal, "\x0c  ", 3⟩ ∈ ofText feedDedent 1 ∧ Made feedDedent 1 .indentation ⟨.illegal, "\x0c  ", 3⟩ ∧
      fault? ⟨.illegal, "\x0c  ", 3⟩ = some (.illegalCharacter "\x0c  ") := by
  have member : ⟨.illegal, "\x0c  ", 3⟩ ∈ ofText feedDedent 1 := by decide +kernel
  obtain ⟨c, more, starts, made⟩ := made_iff member rfl
  refine ⟨member, (made _).mpr ?_, by decide⟩
  cases starts
  rfl

end Token
end SourceAudit
