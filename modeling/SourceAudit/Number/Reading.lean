import SourceAudit.Number.Binary64

namespace SourceAudit.Number

def splitSign : List Char → Bool × List Char
  | '-' :: cs => (true, cs)
  | '+' :: cs => (false, cs)
  | cs => (false, cs)

def digitValue? (c : Char) : Option Nat :=
  if '0' ≤ c && c ≤ '9' then some (c.toNat - '0'.toNat)
  else if 'a' ≤ c && c ≤ 'z' then some (c.toNat - 'a'.toNat + 10)
  else if 'A' ≤ c && c ≤ 'Z' then some (c.toNat - 'A'.toNat + 10)
  else none

/-- Reads digits of the given base, most significant first; at least one is needed. -/
def natural? (base : Nat) (digits : List Char) : Option Nat :=
  if digits.isEmpty then none
  else digits.foldlM (fun value c => do
    let digit ← digitValue? c
    if digit < base then some (value * base + digit) else none) 0

def int64? (base : Nat) (text : List Char) : Option Int := do
  let magnitude ← natural? base (splitSign text).2
  let value : Int := if (splitSign text).1 then -(magnitude : Int) else magnitude
  if -0x8000000000000000 ≤ value ∧ value < 0x8000000000000000 then some value else none

/-- Reads `digits`, `digits.digits`, `digits.` or `.digits` and the exponent after it, if any. -/
def decimal? (negative : Bool) (text : List Char) : Option Binary64 := do
  let whole := text.takeWhile Char.isDigit
  let (fraction, tail) :=
    match text.dropWhile Char.isDigit with
    | '.' :: cs => (cs.takeWhile Char.isDigit, cs.dropWhile Char.isDigit)
    | cs => ([], cs)
  let digits ← natural? 10 (whole ++ fraction)
  let scale : Int := -fraction.length
  match tail with
  | [] => some (.ofDecimal negative digits scale)
  | c :: cs =>
    if c = 'e' ∨ c = 'E' then
      let power ← natural? 10 (splitSign cs).2
      let shift : Int := if (splitSign cs).1 then -(power : Int) else power
      some (.ofDecimal negative digits (scale + shift))
    else none

/-- Reads a signed decimal, an infinity or a not-a-number, in any letter case. -/
def float? (text : List Char) : Option Binary64 :=
  let (negative, body) := splitSign text
  let word := String.ofList (body.map Char.toLower)
  if word = "inf" ∨ word = "infinity" then some (.infinity negative)
  else if word = "nan" then some (.quietNaN negative)
  else decimal? negative body

end SourceAudit.Number
