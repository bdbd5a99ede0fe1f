import SourceAudit.Text.Search

namespace SourceAudit.Path

inductive Component where
  | root
  | current
  | parent
  | name (text : String)
deriving DecidableEq, Repr

namespace Component

def rank : Component → Nat
  | root => 0
  | current => 1
  | parent => 2
  | name _ => 3

def text : Component → String
  | root => "/"
  | current => "."
  | parent => ".."
  | name text => text

instance : Ord Component where
  compare first second :=
    (compare first.rank second.rank).then (compare first.text second.text)

def ofText : List Char → Component
  | ['.'] => current
  | ['.', '.'] => parent
  | text => name (String.ofList text)

end Component

def isRooted (path : String) : Bool := path.toList.head? == some '/'

def parts (text : List Char) : List Component :=
  ((Text.split (· == '/') text).filter (· != [])).map .ofText

/-- The names between slashes. A dot between them does not count. -/
def names (text : List Char) : List Component := (parts text).filter (· != .current)

/-- The parts of a path. A dot counts only in front. -/
def components (path : String) : List Component :=
  let text := path.toList
  let parts := names text
  if isRooted path then .root :: parts
  else if text = ['.'] ∨ ['.', '/'].isPrefixOf text then .current :: parts
  else parts

def isIdle (part : List Char) : Bool := part == [] || part == ['.']

/-- The text in front of the names, a slash or a dot, and the text with the names. -/
def splitFront (path : List Char) : List Char × List Char :=
  match path with
  | '/' :: rest => (['/'], rest)
  | ['.'] => (['.'], [])
  | '.' :: '/' :: rest => (['.'], '/' :: rest)
  | _ => ([], path)

/-- A text without the idle parts at its end. -/
def trimEnd (text : List Char) : List Char :=
  ['/'].intercalate ((Text.split (· == '/') text).reverse.dropWhile isIdle).reverse

def dropName (text : List Char) : List Char :=
  trimEnd (['/'].intercalate (Text.split (· == '/') (trimEnd text)).dropLast)

/-- The directory of a path. What stands before the last name is kept as it is written. -/
def parent? (path : String) : Option String :=
  let (front, body) := splitFront path.toList
  if trimEnd body ≠ [] then some (String.ofList (front ++ dropName body))
  else if front = ['.'] then some ""
  else none

def ancestorsFrom : Nat → String → List String
  | 0, path => [path]
  | depth + 1, path =>
    match parent? path with
    | some parent => path :: ancestorsFrom depth parent
    | none => [path]

def ancestors (path : String) : List String := ancestorsFrom (components path).length path

/-- The text after some names, which starts with a name again. -/
def afterNames : Nat → List (List Char) → List (List Char)
  | _, [] => []
  | count, part :: rest =>
    if isIdle part then afterNames count rest
    else
      match count with
      | 0 => part :: rest
      | count + 1 => afterNames count rest

def relative? (directory path : String) : Option String :=
  let known := components directory
  if !known.isPrefixOf (components path) then none
  else if known = [] then some path
  else
    let (front, body) := splitFront path.toList
    let names := if front = [] then known.length else known.length - 1
    some (String.ofList (['/'].intercalate (afterNames names (Text.split (· == '/') body))))

def join (directory name : String) : String :=
  if directory = "" ∨ Text.endsWith directory "/" then directory ++ name
  else directory ++ "/" ++ name

def same (first second : String) : Bool := components first == components second

end SourceAudit.Path
