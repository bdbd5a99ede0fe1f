namespace SourceAudit

/-- A binary floating-point number of 64 bits, by its interchange format. -/
structure Binary64 where
  bits : UInt64
deriving DecidableEq, Repr, Inhabited

namespace Binary64

def signMask : Nat := 1 <<< 63

def infinityBits : Nat := 0x7ff <<< 52

def ofMagnitude (negative : Bool) (magnitude : Nat) : Binary64 :=
  ⟨UInt64.ofNat (if negative then signMask + magnitude else magnitude)⟩

def infinity (negative : Bool) : Binary64 := ofMagnitude negative infinityBits

def quietNaN (negative : Bool) : Binary64 := ofMagnitude negative (infinityBits + 1 <<< 51)

/-- The integer nearest to `numerator / denominator`; a half goes to the even neighbour. -/
def roundDiv (numerator denominator : Nat) : Nat :=
  let quotient := numerator / denominator
  let twice := 2 * (numerator % denominator)
  if twice < denominator then quotient
  else if twice = denominator then quotient + quotient % 2
  else quotient + 1

/-- The largest `e` with `2 ^ e ≤ numerator / denominator`, for positive arguments. -/
def floorLog2 (numerator denominator : Nat) : Int :=
  let guess : Int := (numerator.log2 : Int) - denominator.log2
  let fits :=
    if 0 ≤ guess then denominator <<< guess.toNat ≤ numerator
    else denominator ≤ numerator <<< (-guess).toNat
  if fits then guess else guess - 1

/-- The number nearest to `numerator / denominator`; a half goes to the even neighbour, and what is
    too large becomes infinite. -/
def ofRatio (negative : Bool) (numerator denominator : Nat) : Binary64 :=
  if numerator = 0 then ofMagnitude negative 0
  else
    let exponent := max (floorLog2 numerator denominator - 52) (-1074)
    let mantissa :=
      if 0 ≤ exponent then roundDiv numerator (denominator <<< exponent.toNat)
      else roundDiv (numerator <<< (-exponent).toNat) denominator
    let magnitude := mantissa + (exponent + 1074).toNat <<< 52
    ofMagnitude negative (min magnitude infinityBits)

def ofInt (value : Int) : Binary64 := ofRatio (value < 0) value.natAbs 1

/-- The number nearest to `digits * 10 ^ exponent`. Outside of four hundred decimal places the
    result is zero or infinite whatever the digits are. -/
def ofDecimal (negative : Bool) (digits : Nat) (exponent : Int) : Binary64 :=
  let places : Int := (Nat.toDigits 10 digits).length
  if digits = 0 ∨ exponent + places < -400 then ofMagnitude negative 0
  else if 400 < exponent + places then infinity negative
  else if 0 ≤ exponent then ofRatio negative (digits * Nat.pow 10 exponent.toNat) 1
  else ofRatio negative digits (Nat.pow 10 (-exponent).toNat)

def ofFloat (number : Float) : Binary64 := ⟨number.toBits⟩

def isNegative (number : Binary64) : Bool := signMask ≤ number.bits.toNat

def magnitude (number : Binary64) : Nat := number.bits.toNat % signMask

def isNaN (number : Binary64) : Bool := infinityBits < number.magnitude

/-- An integer that orders numbers by their value; both zeros have the same. -/
def orderKey (number : Binary64) : Int :=
  if number.isNegative then -(number.magnitude : Int) else number.magnitude

/-- The order of the values; a not-a-number stands in no relation. -/
def le (first second : Binary64) : Bool :=
  !first.isNaN && !second.isNaN && decide (first.orderKey ≤ second.orderKey)

theorem le_trans {first second third : Binary64} (lower : le first second) (upper : le second third) :
    le first third := by
  simp only [le, Bool.and_eq_true, decide_eq_true_eq] at lower upper ⊢
  exact ⟨⟨lower.1.1, upper.1.2⟩, Int.le_trans lower.2 upper.2⟩

def scaled (scale : Nat) (number : Binary64) : Nat :=
  let exponent := number.magnitude >>> 52
  let fraction := number.magnitude % 1 <<< 52
  let mantissa := if exponent = 0 then fraction else 1 <<< 52 + fraction
  let shift := max exponent 1
  if 1075 ≤ shift then mantissa <<< (shift - 1075) * scale
  else roundDiv (mantissa * scale) (1 <<< (1075 - shift))

def hex (number : Binary64) : String :=
  let digits := Nat.toDigits 16 number.bits.toNat
  String.ofList (List.replicate (16 - digits.length) '0' ++ digits)

end Binary64
end SourceAudit
