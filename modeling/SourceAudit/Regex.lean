import SourceAudit.Text.Class

namespace SourceAudit

inductive Regex where
  | empty
  | one (test : Char → Bool)
  | run (test : Char → Bool)
  | seq (first second : Regex)
  | either (first second : Regex)
  | star (body : Regex)
  | atStart
  | atEnd
  | wordEdge

namespace Regex

structure Place where
  before : Option Char
  rest : List Char
  position : Nat

namespace Place

def step? (test : Char → Bool) (place : Place) : Option Place :=
  match place.rest with
  | [] => none
  | c :: rest => if test c then some ⟨some c, rest, place.position + 1⟩ else none

def isWordEdge (place : Place) : Bool :=
  place.before.any Text.isWordChar != place.rest.head?.any Text.isWordChar

/-- All places of a text from one on, behind those in `passed`, of which the last comes first. -/
def allFrom (passed : List Place) (before : Option Char) (position : Nat) : List Char → List Place
  | [] => (⟨before, [], position⟩ :: passed).reverse
  | c :: rest => allFrom (⟨before, c :: rest, position⟩ :: passed) (some c) (position + 1) rest

def all (text : List Char) : List Place := allFrom [] none 0 text

/-- Adds the places to which a run of characters leads to those in `passed`, of which the last comes
    first. The run ends before the position `stop`. -/
def along (test : Char → Bool) (stop : Option Nat) (passed : List Place) (before : Option Char)
    (position : Nat) : List Char → List Place
  | [] => if stop = some position then passed else ⟨before, [], position⟩ :: passed
  | c :: rest =>
    if stop = some position then passed
    else
      let passed := ⟨before, c :: rest, position⟩ :: passed
      if test c then along test stop passed (some c) (position + 1) rest else passed

end Place

/-- The places to which runs lead that start at the given ones, by position and each of them once. A run
    that meets the start of another one leaves the rest to it. -/
def runsFrom (test : Char → Bool) (passed : List Place) : List Place → List Place
  | [] => passed.reverse
  | place :: others =>
    let stop := others.head?.map (·.position)
    runsFrom test (Place.along test stop passed place.before place.position place.rest) others

def comesFirst (place other : Place) : Bool := place.position ≤ other.position

def distinct (places : List Place) : List Place :=
  places.foldr (fun place rest =>
    if rest.head?.any (·.position == place.position) then rest else place :: rest) []

def union (first second : List Place) : List Place := distinct (first.merge second comesFirst)

/-- The places that at most so many steps reach, together with those in `reached`. -/
def closure (step : List Place → List Place) (reached places : List Place) : Nat → List Place
  | 0 => distinct ((places ++ reached).mergeSort comesFirst)
  | count + 1 =>
    if places.isEmpty then distinct (reached.mergeSort comesFirst)
    else closure step (places ++ reached) (step places) count

/-- The places where a match can end that starts at one of the given places. A repetition that takes
    no character adds nothing, so there are no more of them than characters. -/
def ends : Regex → List Place → List Place
  | empty, places => places
  | one test, places => places.filterMap (·.step? test)
  | run test, places => runsFrom test [] places
  | seq first second, places => second.ends (first.ends places)
  | either first second, places => union (first.ends places) (second.ends places)
  | star body, places => closure body.ends [] places ((places.head?.map (·.rest.length)).getD 0)
  | atStart, places => places.filter (·.before.isNone)
  | atEnd, places => places.filter (·.rest.isEmpty)
  | wordEdge, places => places.filter (·.isWordEdge)

def isMatch (regex : Regex) (text : String) : Bool :=
  !(regex.ends (Place.all text.toList)).isEmpty

/-- The first part of a text that matches, the shortest one at its place, and what follows it. -/
def find? (regex : Regex) (text : List Char) : Option (List Char × List Char) :=
  (Place.all text).findSome? fun place =>
    (regex.ends [place]).head?.map fun finish =>
      (place.rest.take (finish.position - place.position), finish.rest)

def all : List Regex → Regex
  | [] => empty
  | [regex] => regex
  | regex :: rest => seq regex (all rest)

def oneOf : List Regex → Regex
  | [] => one fun _ => false
  | [regex] => regex
  | regex :: rest => either regex (oneOf rest)

def char (c : Char) : Regex := one (· == c)

/-- Whether a character is a letter written in lower case, up to its case. Two letters outside of
    the first 128 characters have such a lower case. -/
def folds (lower c : Char) : Bool :=
  c.toLower == lower || (lower == 's' && c == '\u017f') || (lower == 'k' && c == '\u212a')

def text (value : String) : Regex := all (value.toList.map char)

def anyCase (value : String) : Regex := all (value.toList.map fun c => one (folds c))

def many : Regex → Regex
  | one test => run test
  | body => star body

def many1 (regex : Regex) : Regex := seq regex (many regex)

def optional (regex : Regex) : Regex := either regex empty

def times (count : Nat) (regex : Regex) : Regex := all (List.replicate count regex)

def atLeast (count : Nat) (regex : Regex) : Regex := all (List.replicate count regex ++ [many regex])

def blank : Regex := one Text.isBlank

def noneOf (excluded : List Char) : Regex := one (!excluded.contains ·)

def isLetter (c : Char) : Bool := c.isAlpha || c == '\u017f' || c == '\u212a'

end Regex
end SourceAudit
