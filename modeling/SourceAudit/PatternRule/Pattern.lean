import SourceAudit.Glob
import SourceAudit.Text.Search

namespace SourceAudit

inductive PatternFault where
  | emptyName
  | invalidName (name : String)
  | emptyGlob
  | invalidGlob (pattern : String) (fault : Glob.Fault)
  | emptyCall
  | invalidCall (pattern : String)
  | noSinks
  | duplicateName (name : String)
deriving DecidableEq, Repr

def PatternFault.message : PatternFault → String
  | emptyName => "rule name must not be empty"
  | invalidName name => "invalid rule name `" ++ name ++ "`: must be [a-z0-9-]"
  | emptyGlob => "glob pattern must not be empty"
  | invalidGlob pattern fault => "invalid glob pattern `" ++ pattern ++ "`: " ++ fault.message
  | emptyCall => "call pattern must not be empty"
  | invalidCall pattern =>
    "invalid call pattern `" ++ pattern ++ "`: expected a dotted name like `pickle.loads`"
  | noSinks => "at least one sink is required"
  | duplicateName name => "duplicate pattern rule `" ++ name ++ "`"

/-- The name of a pattern rule: small letters, digits and hyphens. -/
structure PatternName where
  text : String
deriving DecidableEq, Repr

namespace PatternName

def isNameChar (c : Char) : Bool := c.isLower || c.isDigit || c == '-'

def parse (text : String) : Except PatternFault PatternName :=
  if text = "" then .error .emptyName
  else if text.toList.all isNameChar then .ok ⟨text⟩
  else .error (.invalidName text)

end PatternName

structure FilePattern where
  text : String
  glob : Glob
deriving DecidableEq, Repr

namespace FilePattern

def parse (text : String) : Except PatternFault FilePattern :=
  if text = "" then .error .emptyGlob
  else
    match Glob.parse text with
    | .ok glob => .ok ⟨text, glob⟩
    | .error fault => .error (.invalidGlob text fault)

/-- The directory whose whole content a pattern `directory/**` covers. -/
def directory? (text : List Char) : Option (List Char) :=
  if "/**".toList.isSuffixOf text then
    some (((text.take (text.length - 3)).reverse.dropWhile (· == '/')).reverse)
  else none

def isBelow (directory path : List Char) : Bool :=
  directory.isPrefixOf path && path[directory.length]? == some '/'

def isMatch (pattern : FilePattern) (path : String) : Bool :=
  let path := (Text.dropPrefix? "./" path.toList).getD path.toList
  pattern.glob.isMatch (String.ofList path) ||
    (directory? pattern.text.toList).any (isBelow · path)

end FilePattern

structure CallPattern where
  text : String
deriving DecidableEq, Repr

namespace CallPattern

def isSegment (segment : List Char) : Bool :=
  segment != [] && segment.all fun c => Text.isAlphanumeric c || c == '_' || c == '*'

def parse (text : String) : Except PatternFault CallPattern :=
  if text = "" then .error .emptyCall
  else if (Text.split (· == '.') text.toList).all isSegment then .ok ⟨text⟩
  else .error (.invalidCall text)

/-- A name with a dot also stands for longer names that end in it, and a star in front of the dot
    stands for any object. -/
def isMatch (pattern : CallPattern) (callee : String) : Bool :=
  match Text.dropPrefix? "*." pattern.text.toList with
  | some method => Dotted.endsWith callee (String.ofList method)
  | none =>
    callee == pattern.text ||
      (pattern.text.toList.contains '.' && Dotted.endsWith callee pattern.text)

end CallPattern
end SourceAudit
