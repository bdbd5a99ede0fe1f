import SourceAudit.Text.Composite
import SourceAudit.Text.MarkClass

namespace SourceAudit.Text

/-- The class that orders a mark among the marks of a letter. All else has the class zero. -/
def markClass (c : Char) : Nat :=
  if c.toNat < 0x300 then 0
  else
    match markClasses.find? fun (first, last, _) => first ≤ c.toNat && c.toNat ≤ last with
    | some (_, _, order) => order
    | none => 0

def pairs : List Char → List (Char × Char)
  | first :: second :: rest => (first, second) :: pairs rest
  | _ => []

def compositeParts : List (Char × Char × Char) :=
  composites.flatMap fun line =>
    match line.toList with
    | second :: letters => (pairs letters).map fun (whole, first) => (whole, first, second)
    | [] => []

-- Syllables of the Korean script follow each other in the order of their letters: nineteen that begin a
-- syllable, twenty-one in its middle, and twenty-seven or none at its end.
def syllableBase : Nat := 0xac00
def leadBase : Nat := 0x1100
def vowelBase : Nat := 0x1161
def tailBase : Nat := 0x11a7

def splitSyllable? (c : Char) : Option (Char × Char) :=
  let index := c.toNat - syllableBase
  if c.toNat < syllableBase ∨ 19 * 21 * 28 ≤ index then none
  else if index % 28 = 0 then
    some (Char.ofNat (leadBase + index / 28 / 21), Char.ofNat (vowelBase + index / 28 % 21))
  else some (Char.ofNat (c.toNat - index % 28), Char.ofNat (tailBase + index % 28))

def isOpenSyllable (c : Char) : Bool :=
  let index := c.toNat - syllableBase
  syllableBase ≤ c.toNat && index < 19 * 21 * 28 && index % 28 == 0

def joinSyllable? (first second : Char) : Option Char :=
  let lead := first.toNat - leadBase
  let vowel := second.toNat - vowelBase
  let tail := second.toNat - tailBase
  if leadBase ≤ first.toNat ∧ lead < 19 ∧ vowelBase ≤ second.toNat ∧ vowel < 21 then
    some (Char.ofNat (syllableBase + (lead * 21 + vowel) * 28))
  else if isOpenSyllable first ∧ tailBase < second.toNat ∧ tail < 28 then
    some (Char.ofNat (first.toNat + tail))
  else none

def splitPair? (c : Char) : Option (Char × Char) :=
  if c.toNat < 0x80 then none
  else (splitSyllable? c).or ((compositeParts.find? (·.1 == c)).map (·.2))

def joinPair? (first second : Char) : Option Char :=
  if second.toNat < 0x80 then none
  else (joinSyllable? first second).or
    ((compositeParts.find? (·.2 == (first, second))).map (·.1))

def expand : Nat → Char → List Char
  | 0, c => [c]
  | depth + 1, c =>
    match splitPair? c with
    | some (first, second) => expand depth first ++ [second]
    | none => [c]

/-- The characters of a text, each with its class and with the number of letters up to it. -/
def orderKeys (text : List Char) : List (Nat × Nat × Char) :=
  let (_, keys) := text.foldl (fun (letters, keys) c =>
    let letters := if markClass c = 0 then letters + 1 else letters
    (letters, (letters, markClass c, c) :: keys)) (0, [])
  keys.reverse

/-- A text in which the marks of each letter are in the order of their classes. -/
def orderMarks (text : List Char) : List Char :=
  let sorted := (orderKeys text).mergeSort fun first second =>
    first.1 < second.1 || (first.1 == second.1 && first.2.1 ≤ second.2.1)
  sorted.map (·.2.2)

/-- Joins the characters that follow a letter to it, as far as no mark stands between that keeps
    them apart. The marks that were not joined, and before them all that is finished, are given with
    the last one first. -/
def joinFrom (finished : List Char) (letter : Char) (marks : List Char) : List Char → List Char
  | [] => (marks ++ letter :: finished).reverse
  | c :: rest =>
    let isNear := marks.head?.all (markClass · < markClass c)
    match if isNear then joinPair? letter c else none with
    | some joined => joinFrom finished joined marks rest
    | none =>
      if markClass c = 0 then joinFrom (marks ++ letter :: finished) c [] rest
      else joinFrom finished letter (c :: marks) rest

def joinAll (finished : List Char) : List Char → List Char
  | [] => finished.reverse
  | c :: rest => if markClass c = 0 then joinFrom finished c [] rest else joinAll (c :: finished) rest

/-- The form of a text in which letters and their marks are joined as far as there are characters for
    them. No character is made of more than four. -/
def normalForm (text : List Char) : List Char := joinAll [] (orderMarks (text.flatMap (expand 3)))

end SourceAudit.Text
