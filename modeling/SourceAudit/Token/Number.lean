import SourceAudit.Token.Basic

namespace SourceAudit.Token

/-- The spelling of a number without digit separators, whether it is a fraction or has an exponent,
    and the characters after it. -/
structure NumberText where
  text : List Char
  isFloat : Bool
  rest : List Char
deriving DecidableEq, Repr

def NumberText.push (c : Char) (number : NumberText) : NumberText :=
  { number with text := c :: number.text }

def isHexDigit (c : Char) : Bool :=
  c.isDigit || ('a' ≤ c && c ≤ 'f') || ('A' ≤ c && c ≤ 'F')

def isSign (c : Char) : Bool := c == '+' || c == '-'

/-- Digits, one point, exponents and an imaginary mark, as far as they go. -/
def decimalText (isFloat : Bool) : List Char → NumberText
  | [] => ⟨[], isFloat, []⟩
  | c :: cs =>
    if c.isDigit then (decimalText isFloat cs).push c
    else if c = '_' then decimalText isFloat cs
    else if c = '.' ∧ isFloat = false ∧ cs.head? ≠ some '.' then (decimalText true cs).push c
    else if c = 'e' ∨ c = 'E' then
      match cs with
      | d :: ds =>
        if isSign d then ((decimalText true ds).push d).push c
        else if d.isDigit then (decimalText true (d :: ds)).push c
        else ⟨[], isFloat, c :: d :: ds⟩
      | [] => ⟨[], isFloat, [c]⟩
    else if c = 'j' ∨ c = 'J' then ⟨[], true, cs⟩
    else ⟨[], isFloat, c :: cs⟩

def isRadixMark (c : Char) : Bool := ['x', 'X', 'o', 'O', 'b', 'B'].contains c

/-- A number at the start of the text. After a radix mark every hexadecimal digit is taken. -/
def numberText (text : List Char) : NumberText :=
  match text with
  | '0' :: mark :: cs =>
    if isRadixMark mark then
      let digits := cs.takeWhile fun c => isHexDigit c || c == '_'
      ⟨'0' :: mark.toLower :: digits.filter (· ≠ '_'), false,
        cs.dropWhile fun c => isHexDigit c || c == '_'⟩
    else decimalText false text
  | _ => decimalText false text

theorem decimalText_rest_le (isFloat : Bool) (text : List Char) :
    (decimalText isFloat text).rest.length ≤ text.length := by
  fun_induction decimalText isFloat text <;> grind [NumberText.push]

section Branches

variable (isFloat : Bool) {c d : Char} {cs ds : List Char}

theorem decimalText_digit (digit : c.isDigit = true) :
    decimalText isFloat (c :: cs) = (decimalText isFloat cs).push c := by
  rw [decimalText.eq_def]
  simp only [digit, ↓reduceIte]

theorem decimalText_separator : decimalText isFloat ('_' :: cs) = decimalText isFloat cs := by
  rw [decimalText.eq_def]
  rfl

theorem decimalText_point (apart : cs.head? ≠ some '.') :
    decimalText false ('.' :: cs) = (decimalText true cs).push '.' := by
  have point : ('.' : Char).isDigit = false := by decide
  rw [decimalText.eq_def]
  simp [point, apart]

theorem decimalText_mark (exponent : c = 'e' ∨ c = 'E') :
    decimalText isFloat (c :: d :: ds) =
      if isSign d then ((decimalText true ds).push d).push c
      else if d.isDigit then (decimalText true (d :: ds)).push c
      else ⟨[], isFloat, c :: d :: ds⟩ := by
  rw [decimalText.eq_def]
  rcases exponent with rfl | rfl <;> rfl

theorem decimalText_signed (exponent : c = 'e' ∨ c = 'E') (sign : isSign d = true) :
    decimalText isFloat (c :: d :: ds) = ((decimalText true ds).push d).push c := by
  rw [decimalText_mark _ exponent, if_pos sign]

theorem decimalText_exponent (exponent : c = 'e' ∨ c = 'E') (digit : d.isDigit = true) :
    decimalText isFloat (c :: d :: ds) = (decimalText true (d :: ds)).push c := by
  have unsigned : ¬ isSign d = true := by
    intro sign
    simp only [isSign, Bool.or_eq_true, beq_iff_eq] at sign
    rcases sign with rfl | rfl <;> cases digit
  rw [decimalText_mark _ exponent, if_neg unsigned, if_pos digit]

theorem decimalText_bare (exponent : c = 'e' ∨ c = 'E')
    (bare : cs.head?.any (fun d => isSign d || d.isDigit) = false) :
    decimalText isFloat (c :: cs) = ⟨[], isFloat, c :: cs⟩ := by
  cases cs with
  | nil =>
    rw [decimalText.eq_def]
    rcases exponent with rfl | rfl <;> rfl
  | cons d ds =>
    obtain ⟨unsigned, other⟩ := Bool.or_eq_false_iff.mp bare
    rw [decimalText_mark _ exponent, if_neg (by simp [unsigned]), if_neg (by simp [other])]

theorem decimalText_imaginary (imaginary : c = 'j' ∨ c = 'J') :
    decimalText isFloat (c :: cs) = ⟨[], true, cs⟩ := by
  rw [decimalText.eq_def]
  rcases imaginary with rfl | rfl <;> rfl

theorem decimalText_stop (digit : ¬ c.isDigit = true) (joint : c ≠ '_')
    (point : ¬ (c = '.' ∧ isFloat = false ∧ cs.head? ≠ some '.')) (exponent : ¬ (c = 'e' ∨ c = 'E'))
    (imaginary : ¬ (c = 'j' ∨ c = 'J')) : decimalText isFloat (c :: cs) = ⟨[], isFloat, c :: cs⟩ := by
  rw [decimalText.eq_def]
  dsimp only
  rw [if_neg digit, if_neg joint, if_neg point, if_neg exponent, if_neg imaginary]

end Branches

/-- A number that starts with a digit, or with a point and a digit, takes at least one character. -/
theorem numberText_rest_lt (c : Char) (cs : List Char)
    (start : c.isDigit = true ∨ (c = '.' ∧ cs.head?.any Char.isDigit = true)) :
    (numberText (c :: cs)).rest.length < (c :: cs).length := by
  have decimal : (decimalText false (c :: cs)).rest.length < (c :: cs).length := by
    rcases start with digit | ⟨rfl, digit⟩
    · rw [decimalText_digit _ digit]
      have := decimalText_rest_le false cs
      simp only [NumberText.push, List.length_cons]
      omega
    · cases cs with
      | nil => simp at digit
      | cons d ds =>
        have apart : (d :: ds).head? ≠ some '.' := by
          rintro ⟨⟩
          cases digit
        rw [decimalText_point apart]
        have := decimalText_rest_le true (d :: ds)
        simp only [NumberText.push, List.length_cons] at this ⊢
        omega
  rw [numberText.eq_def]
  split
  · rename_i mark ds same
    split
    · injection same with _ same
      subst same
      have := (List.dropWhile_sublist (fun c => isHexDigit c || c == '_') (l := ds)).length_le
      simp only [List.length_cons]
      omega
    · exact decimal
  · exact decimal

end SourceAudit.Token
