namespace SourceAudit.Url.Punycode

/-- The least digit that does not end a number, at a place of it. -/
def threshold (bias place : Nat) : Nat := min 26 (max 1 (place - bias))

def settle (delta : Nat) : Nat :=
  if 455 < delta then 36 + settle (delta / 35) else 36 * delta / (delta + 38)

def adapt (delta count : Nat) (first : Bool) : Nat :=
  let damped := if first then delta / 700 else delta / 2
  settle (damped + damped / count)

def digitChar (digit : Nat) : Char :=
  Char.ofNat (if digit < 26 then 'a'.toNat + digit else '0'.toNat + (digit - 26))

def digitValue? (c : Char) : Option Nat :=
  if c.isDigit then some (c.toNat - '0'.toNat + 26)
  else if c.isAlpha then some (c.toLower.toNat - 'a'.toNat)
  else none

def isBasic (c : Char) : Bool := c.toNat < 0x80

/-- What has been read: the text so far, where and what was inserted last, and the number that is
    being read. -/
structure Decoder where
  text : List Char
  code : Nat := 0x80
  index : Nat := 0
  bias : Nat := 72
  delta : Nat := 0
  weight : Nat := 1
  place : Nat := 36

def Decoder.insert (state : Decoder) (delta : Nat) : Option Decoder :=
  let count := state.text.length + 1
  let index := state.index + delta
  let code := state.code + index / count
  if code.isValidChar then
    some {
      text := state.text.insertIdx (index % count) (Char.ofNat code)
      code
      index := index % count + 1
      bias := adapt delta count (state.index == 0) }
  else none

def fits (number : Nat) : Bool := number < 0x100000000

def Decoder.step (state : Decoder) (c : Char) : Option Decoder := do
  let digit ← digitValue? c
  let delta := state.delta + digit * state.weight
  let limit := threshold state.bias state.place
  let weight := state.weight * (36 - limit)
  if !fits (state.index + delta) then none
  else if digit < limit then state.insert delta
  else if fits weight then return { state with delta, weight, place := state.place + 36 }
  else none

/-- Parts before and after the last hyphen. All is after it if there is none, or none but the one in
    front. -/
def splitBasic (label : List Char) : List Char × List Char :=
  match (label.reverse.dropWhile (· ≠ '-')).drop 1 with
  | [] => ([], label)
  | basic => (basic.reverse, (label.reverse.takeWhile (· ≠ '-')).reverse)

def decode? (label : List Char) : Option (List Char) := do
  let (basic, extra) := splitBasic label
  let state ← extra.foldlM Decoder.step { text := basic }
  if basic.all isBasic ∧ state.place = 36 then some state.text else none

theorem threshold_bounds (bias place : Nat) :
    1 ≤ threshold bias place ∧ threshold bias place ≤ 26 := by
  unfold threshold
  omega

def digits (bias place number : Nat) : List Char :=
  let limit := threshold bias place
  if number < limit then [digitChar number]
  else
    digitChar (limit + (number - limit) % (36 - limit)) ::
      digits bias (place + 36) ((number - limit) / (36 - limit))
termination_by number
decreasing_by
  have bounds := threshold_bounds bias place
  have shrinks := Nat.div_le_self (number - threshold bias place) (36 - threshold bias place)
  omega

structure Encoder where
  written : List Char := []
  delta : Nat := 0
  bias : Nat := 72
  handled : Nat

/-- Passes one character of the label while the characters with a given code are written. -/
def Encoder.pass (basic code : Nat) (state : Encoder) (c : Char) : Encoder :=
  if c.toNat < code then { state with delta := state.delta + 1 }
  else if c.toNat = code then
    { written := state.written ++ digits state.bias 36 state.delta
      delta := 0
      bias := adapt state.delta (state.handled + 1) (state.handled == basic)
      handled := state.handled + 1 }
  else state

/-- Writes all characters of the label with a code, given how far the earlier codes reached. -/
def Encoder.write (label : List Char) (basic : Nat) (reached : Encoder × Nat) (code : Nat) :
    Encoder × Nat :=
  let (state, next) := reached
  let ahead := { state with delta := state.delta + (code - next) * (state.handled + 1) }
  let passed := label.foldl (Encoder.pass basic code) ahead
  ({ passed with delta := passed.delta + 1 }, code + 1)

def encode (label : List Char) : List Char :=
  let basic := label.filter isBasic
  let codes := ((label.filter (!isBasic ·)).map Char.toNat).eraseDups.mergeSort
  let (state, _) := codes.foldl (Encoder.write label basic.length)
    ({ handled := basic.length }, 0x80)
  basic ++ (if basic = [] then [] else ['-']) ++ state.written

end SourceAudit.Url.Punycode
