import SourceAudit.Toml.Quoted
import SourceAudit.Toml.Scalar
import SourceAudit.Toml.Tree

namespace SourceAudit.Toml

abbrev Reader (α : Type) := StateT (List Char) Option α

namespace Reader

variable {α : Type}

/-- How many arrays and inline tables may be open at once, and how many names a key may have. -/
def depthLimit : Nat := 79

def skipSpace : Reader Unit := modify (·.dropWhile Quoted.isSpace)

def accept (c : Char) : Reader Bool := do
  match ← get with
  | first :: rest =>
    if first = c then
      set rest
      return true
    return false
  | [] => return false

def expect (c : Char) : Reader Unit := do
  unless ← accept c do failure

def many (step : Reader (Option α)) : Reader (List α) := fun text =>
  match step text with
  | none => none
  | some (none, rest) => some ([], rest)
  | some (some value, rest) =>
    if rest.length < text.length then
      match many step rest with
      | none => none
      | some (values, last) => some (value :: values, last)
    else none
termination_by text => text.length

def skipComment : Reader Unit := do
  if ← accept '#' then modify (·.dropWhile Quoted.isPlain)

def lineEnd : Reader Unit := do
  let text ← get
  match Quoted.newline? text with
  | some rest => set rest
  | none => unless text.isEmpty do failure

def lineTail : Reader Unit := do
  skipSpace
  skipComment
  lineEnd

def skipFiller : Reader Unit := do
  let step : Reader (Option Unit) := do
    skipSpace
    let text ← get
    match text with
    | '#' :: _ =>
      skipComment
      match Quoted.newline? (← get) with
      | some rest =>
        set rest
        return some ()
      | none => failure
    | _ =>
      match Quoted.newline? text with
      | some rest =>
        set rest
        return some ()
      | none => return none
  let _ ← many step

def isKeyChar (c : Char) : Bool := c.isAlphanum || c == '_' || c == '-'

def simpleKey : Reader String := do
  let text ← get
  let (key, rest) ← (match text with
    | '\x22' :: rest => (Quoted.basic? rest : Option (List Char × List Char))
    | '\x27' :: rest => Quoted.literal? rest
    | _ => some (text.takeWhile isKeyChar, text.dropWhile isKeyChar))
  if rest.length = text.length then failure
  set rest
  return String.ofList key

def paddedKey : Reader String := do
  skipSpace
  let key ← simpleKey
  skipSpace
  return key

def key : Reader (List String × String) := do
  let first ← paddedKey
  let others ← many do
    if ← accept '.' then return some (← paddedKey)
    return none
  let all := first :: others
  if depthLimit < all.length then failure
  return (all.dropLast, all.getLastD first)

def assignment (value : Reader Value) : Reader Assignment := do
  let (path, name) ← key
  expect '='
  skipSpace
  return ⟨path, name, ← value⟩

def arrayItems (value : Reader Value) : Reader (List Value) := do
  let item : Reader (Option Value) := do
    skipFiller
    match ← get with
    | ']' :: _ => return none
    | _ =>
      let member ← value
      skipFiller
      unless ← accept ',' do
        match ← get with
        | ']' :: _ => return some member
        | _ => failure
      return some member
  let items ← many item
  skipFiller
  expect ']'
  return items

def inlineEntries (value : Reader Value) : Reader (List Assignment) := do
  let entry : Reader Assignment := do
    let found ← assignment value
    skipSpace
    return found
  skipSpace
  if ← accept '\x7d' then return []
  let first ← entry
  let others ← many do
    if ← accept ',' then return some (← entry)
    return none
  expect '\x7d'
  return first :: others

def quoted : Reader Value := do
  let (text, rest) ← (Quoted.string? (← get) : Option (String × List Char))
  set rest
  return .string text

def scalar : Reader Value := do
  let (value, rest) ← (Scalar.read? (← get) : Option (Value × List Char))
  set rest
  return value

def plain : Reader Value := do
  match ← get with
  | '\x22' :: _ | '\x27' :: _ => quoted
  | _ => scalar

def value : Nat → Reader Value
  | 0 => plain
  | depth + 1 => do
    match ← get with
    | '[' :: rest =>
      set rest
      return .array (← arrayItems (value depth))
    | '\x7b' :: rest =>
      set rest
      let entries ← inlineEntries (value depth)
      let tree ← (Tree.insertAll [] entries : Option Tree)
      return .table (Tree.toEntries tree)
    | _ => plain

def header : Reader (Bool × List String × String) := do
  expect '['
  let isArray ← accept '['
  let name ← key
  expect ']'
  if isArray then expect ']'
  lineTail
  return (isArray, name)

def assignments : Reader (List Assignment) := do
  let step : Reader (Option (Option Assignment)) := do
    skipSpace
    match ← get with
    | [] | '[' :: _ => return none
    | '#' :: _ | '\n' :: _ | '\r' :: _ =>
      lineTail
      return some none
    | _ =>
      let found ← assignment (value depthLimit)
      lineTail
      return some (some found)
  return (← many step).filterMap id

def tableSection : Reader (Option Section) := do
  if (← get).isEmpty then return none
  let (isArray, path, name) ← header
  return some ⟨path, name, isArray, ← assignments⟩

def document : Reader Document := do
  let _ ← accept '\ufeff'
  let first ← assignments
  return ⟨first, ← many tableSection⟩

end Reader

def parse? (text : String) : Option Entries :=
  match Reader.document text.toList with
  | some (document, []) => document.entries?
  | _ => none

end SourceAudit.Toml
