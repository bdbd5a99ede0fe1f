import SourceAudit.Text.Class

namespace SourceAudit

namespace Text

def splitOnce (needle : List Char) : List Char → Option (List Char × List Char)
  | [] => if needle = [] then some ([], []) else none
  | c :: rest =>
    if needle.isPrefixOf (c :: rest) then some ([], (c :: rest).drop needle.length)
    else (splitOnce needle rest).map fun parts => (c :: parts.1, parts.2)

def contains (text needle : String) : Bool := (splitOnce needle.toList text.toList).isSome

def dropPrefix? (start : String) (text : List Char) : Option (List Char) :=
  if start.toList.isPrefixOf text then some (text.drop start.length) else none

def startsWith (text start : String) : Bool := start.toList.isPrefixOf text.toList

def endsWith (text ending : String) : Bool := ending.toList.isSuffixOf text.toList

def split (test : Char → Bool) : List Char → List (List Char)
  | [] => [[]]
  | c :: rest =>
    if test c then [] :: split test rest
    else
      match split test rest with
      | [] => [[c]]
      | first :: others => (c :: first) :: others

def dropReturn (line : List Char) : List Char :=
  if line.getLast? = some '\r' then line.dropLast else line

/-- The lines of a text without their ends. A carriage return before the line feed belongs to the
    end, and a line feed at the very end opens no further line. -/
def lines (text : List Char) : List (List Char) :=
  let parts := split (· == '\n') text
  parts.dropLast.map dropReturn ++ parts.getLast?.toList.filter (· ≠ [])

def lowerAscii (text : String) : String := String.ofList (text.toList.map Char.toLower)

def sameIgnoringCase (first second : String) : Bool := lowerAscii first == lowerAscii second

def truncate (limit : Nat) (text : String) : String :=
  if text.toList.length ≤ limit then text
  else String.ofList (text.toList.take limit) ++ "..."

def extendUnique (values extra : List String) : List String :=
  extra.foldl (fun all value => if all.contains value then all else all ++ [value]) values

end Text

namespace Dotted

def isWithin (name base : String) : Bool :=
  name == base || (base.toList ++ ['.']).isPrefixOf name.toList

def endsWith (name ending : String) : Bool :=
  name == ending || ('.' :: ending.toList).isSuffixOf name.toList

end Dotted
end SourceAudit
