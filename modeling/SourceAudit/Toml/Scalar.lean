import SourceAudit.Number.Reading
import SourceAudit.Toml.Value

namespace SourceAudit.Toml

namespace Scalar

def ungrouped? (isDigit : Char → Bool) : List Char → Option (List Char)
  | [] => none
  | [c] => if isDigit c then some [c] else none
  | c :: '_' :: rest => if isDigit c then (ungrouped? isDigit rest).map (c :: ·) else none
  | c :: rest => if isDigit c then (ungrouped? isDigit rest).map (c :: ·) else none

def whole? (text : List Char) : Option (List Char) :=
  match text with
  | '0' :: _ :: _ => none
  | _ => ungrouped? Char.isDigit text

def isHexDigit (c : Char) : Bool :=
  c.isDigit || ('a' ≤ c && c ≤ 'f') || ('A' ≤ c && c ≤ 'F')

def isOctalDigit (c : Char) : Bool := '0' ≤ c && c ≤ '7'

def isBinaryDigit (c : Char) : Bool := c == '0' || c == '1'

def signText (text : List Char) : List Char := if (Number.splitSign text).1 then ['-'] else []

def integer? (text : List Char) : Option Int :=
  match text with
  | '0' :: 'x' :: digits => (ungrouped? isHexDigit digits).bind (Number.int64? 16)
  | '0' :: 'o' :: digits => (ungrouped? isOctalDigit digits).bind (Number.int64? 8)
  | '0' :: 'b' :: digits => (ungrouped? isBinaryDigit digits).bind (Number.int64? 2)
  | _ => (whole? (Number.splitSign text).2).bind fun digits =>
    Number.int64? 10 (signText text ++ digits)

def exponent? (text : List Char) : Option (List Char) :=
  match text with
  | [] => some []
  | _ :: power =>
    (ungrouped? Char.isDigit (Number.splitSign power).2).map fun digits =>
      'e' :: signText power ++ digits

def isExponentMark (c : Char) : Bool := c == 'e' || c == 'E'

def fraction? (text : List Char) : Option (List Char) :=
  match text with
  | [] => some []
  | _ :: digits => (ungrouped? Char.isDigit digits).map ('.' :: ·)

/-- A decimal with a fraction or an exponent. One that is too large is refused, unless it is
    negative. -/
def decimal? (text : List Char) : Option Binary64 := do
  let (negative, body) := Number.splitSign text
  let mantissa := body.takeWhile (!isExponentMark ·)
  let power := body.dropWhile (!isExponentMark ·)
  let places := mantissa.dropWhile (· ≠ '.')
  if places = [] ∧ power = [] then none
  let whole ← whole? (mantissa.takeWhile (· ≠ '.'))
  let fraction ← fraction? places
  let exponent ← exponent? power
  let value ← Number.decimal? negative (whole ++ fraction ++ exponent)
  if value = .infinity false then none else some value

def float? (text : List Char) : Option Binary64 :=
  let (negative, body) := Number.splitSign text
  match body with
  | ['i', 'n', 'f'] => some (.infinity negative)
  | ['n', 'a', 'n'] => some (.quietNaN negative)
  | _ => decimal? text

def pair? (first second : Char) : Option Nat :=
  if first.isDigit && second.isDigit then
    some ((first.toNat - '0'.toNat) * 10 + (second.toNat - '0'.toNat))
  else none

def isLeapYear (year : Nat) : Bool :=
  year % 4 == 0 && (year % 100 != 0 || year % 400 == 0)

def daysIn (year month : Nat) : Nat :=
  if month = 2 then if isLeapYear year then 29 else 28
  else if month ∈ [4, 6, 9, 11] then 30
  else 31

def date? : List Char → Option (List Char × List Char)
  | y1 :: y2 :: y3 :: y4 :: '-' :: m1 :: m2 :: '-' :: d1 :: d2 :: rest => do
    let century ← pair? y1 y2
    let year ← pair? y3 y4
    let month ← pair? m1 m2
    let day ← pair? d1 d2
    if 1 ≤ month ∧ month ≤ 12 ∧ 1 ≤ day ∧ day ≤ daysIn (century * 100 + year) month then
      some ([y1, y2, y3, y4, '-', m1, m2, '-', d1, d2], rest)
    else none
  | _ => none

/-- The fraction of a second: nine digits at most, without zeros at the end. -/
def secondFraction (digits : List Char) : List Char :=
  match ((digits.take 9).reverse.dropWhile (· == '0')).reverse with
  | [] => []
  | kept => '.' :: kept

/-- Where a date or a time is written: as a value of its own, or as the text of a string, which may
    also name the hour after the last one. -/
inductive Setting where
  | bare
  | quoted
deriving DecidableEq, Repr

def Setting.isHour (setting : Setting) (hour : Nat) : Bool :=
  hour ≤ (if setting = .quoted then 24 else 23)

def Setting.isOffset (setting : Setting) (hour minute : Nat) : Bool :=
  if setting = .quoted then hour * 60 + minute ≤ 24 * 60 else hour ≤ 23 && minute ≤ 59

def time? (setting : Setting) : List Char → Option (List Char × List Char)
  | h1 :: h2 :: ':' :: m1 :: m2 :: ':' :: s1 :: s2 :: rest => do
    let hour ← pair? h1 h2
    let minute ← pair? m1 m2
    let second ← pair? s1 s2
    if setting.isHour hour ∧ minute ≤ 59 ∧ second ≤ 60 then
      let clock := [h1, h2, ':', m1, m2, ':', s1, s2]
      match rest with
      | '.' :: digits =>
        let fraction := digits.takeWhile Char.isDigit
        if fraction = [] then none
        else some (clock ++ secondFraction fraction, digits.dropWhile Char.isDigit)
      | _ => some (clock, rest)
    else none
  | _ => none

def twoDigits (number : Nat) : List Char :=
  [Char.ofNat ('0'.toNat + number / 10), Char.ofNat ('0'.toNat + number % 10)]

def offset? (setting : Setting) (text : List Char) : Option (List Char) :=
  match text with
  | [] => some []
  | ['Z'] | ['z'] => some ['Z']
  | [sign, h1, h2, ':', m1, m2] => do
    let hour ← pair? h1 h2
    let minute ← pair? m1 m2
    if (sign = '+' ∨ sign = '-') ∧ setting.isOffset hour minute then
      let minutes := hour * 60 + minute
      let shown := if minutes = 0 then '+' else sign
      some (shown :: twoDigits (minutes / 60) ++ ':' :: twoDigits (minutes % 60))
    else none
  | _ => none

/-- A date, a time, or both with an optional offset, in normal form. -/
def datetime? (setting : Setting) (text : List Char) : Option String :=
  match date? text with
  | some (date, []) => some (String.ofList date)
  | some (date, mark :: rest) => do
    let (clock, tail) ← time? setting rest
    let offset ← offset? setting tail
    if mark = 'T' ∨ mark = 't' ∨ mark = ' ' then some (String.ofList (date ++ 'T' :: clock ++ offset))
    else none
  | none =>
    match time? setting text with
    | some (clock, []) => some (String.ofList clock)
    | _ => none

def ofWord? (word : List Char) : Option Value :=
  if word = "true".toList then some (.boolean true)
  else if word = "false".toList then some (.boolean false)
  else
    ((datetime? .bare word).map Value.datetime).or
      (((float? word).map Value.float).or ((integer? word).map Value.integer))

def isWordChar (c : Char) : Bool :=
  c.isAlphanum || c == '+' || c == '-' || c == '.' || c == '_' || c == ':'

/-- A word from the start of a text. A date may have its time after one space. -/
def read? (text : List Char) : Option (Value × List Char) := do
  let word := text.takeWhile isWordChar
  let rest := text.dropWhile isWordChar
  match rest with
  | ' ' :: digit :: more =>
    if (date? word).any (·.2 = []) && digit.isDigit then
      let clock := (digit :: more).takeWhile isWordChar
      let text ← datetime? .bare (word ++ ' ' :: clock)
      return (.datetime text, (digit :: more).dropWhile isWordChar)
    return (← ofWord? word, rest)
  | _ => return (← ofWord? word, rest)

end Scalar
end SourceAudit.Toml
