import SourceAudit.Grammar.Error

namespace SourceAudit

/-- The tokens still to read with their number, and the errors reported so far. After the last token
    stands the end of input, at line `final`. -/
structure Cursor where
  rest : List Token
  final : Nat
  errors : List SyntaxError
  size : Nat := rest.length
  size_eq : size = rest.length := by rfl

namespace Cursor

theorem eq_of_parts {left right : Cursor} (rest : left.rest = right.rest)
    (final : left.final = right.final) (errors : left.errors = right.errors) : left = right := by
  cases left
  cases right
  simp_all

def ofTokens (tokens : List Token) : Cursor where
  rest := tokens
  final := if tokens.length < 2 then 1 else (tokens.getLast?.map (·.line)).getD 1
  errors := []

def endToken (cursor : Cursor) : Token := ⟨.endOfInput, "", cursor.final⟩

def current (cursor : Cursor) : Token := cursor.rest.head?.getD cursor.endToken

def peek (cursor : Cursor) : Token := cursor.rest[1]?.getD cursor.endToken

def drop (count : Nat) (cursor : Cursor) : Cursor :=
  { cursor with
    rest := cursor.rest.drop count
    size := cursor.size - count
    size_eq := by simp [cursor.size_eq] }

def advance (cursor : Cursor) : Cursor := cursor.drop 1

def report (cursor : Cursor) (error : SyntaxError) : Cursor :=
  { cursor with errors := cursor.errors ++ [error] }

/-- Skips the indented lines that start with the given tokens, of which `depth` levels are open. -/
def skipIndented : Nat → List Token → List Token
  | _, [] => []
  | depth, token :: rest =>
    match token.kind with
    | .indent => skipIndented (depth + 1) rest
    | .dedent => if depth ≤ 1 then rest else skipIndented (depth - 1) rest
    | .endOfInput => token :: rest
    | _ => skipIndented depth rest

/-- Skips to a place where a statement may start: past the current line with the block under it, or
    to a dedent, the end of input or a keyword that starts a statement. -/
def nextStatement : List Token → List Token
  | [] => []
  | token :: rest =>
    match token.kind with
    | .endOfInput | .dedent => token :: rest
    | .newline =>
      match rest with
      | [] => []
      | next :: _ => if next.kind = .indent then skipIndented 0 rest else rest
    | _ => if token.isStatementStarter then token :: rest else nextStatement rest

def synchronize (cursor : Cursor) : Cursor :=
  let rest := nextStatement cursor.rest
  { cursor with rest, size := rest.length, size_eq := rfl }

end Cursor

abbrev Parser := EStateM SyntaxError Cursor

namespace Parser

variable {α : Type}

def current : Parser Token := return (← get).current

def peek : Parser Token := return (← get).peek

def line : Parser Nat := return (← current).line

def advance : Parser Token := fun cursor => .ok cursor.current cursor.advance

def fail (cause : SyntaxError.Cause) : Parser α := do
  throw (.atToken (← current) cause)

def unexpected (what : Expected) : Parser α := do
  fail (.expected what (← current))

def atKeyword (word : String) : Parser Bool := return (← current).isKeyword word

def atOperator (symbol : String) : Parser Bool := return (← current).isOperator symbol

def atDelimiter (symbol : String) : Parser Bool := return (← current).isDelimiter symbol

def accept (test : Token → Bool) : Parser Bool := do
  if test (← current) then
    let _ ← advance
    return true
  return false

def acceptKeyword (word : String) : Parser Bool := accept (·.isKeyword word)

def acceptOperator (symbol : String) : Parser Bool := accept (·.isOperator symbol)

def acceptDelimiter (symbol : String) : Parser Bool := accept (·.isDelimiter symbol)

def expectKeyword (word : String) : Parser Unit := do
  unless ← acceptKeyword word do unexpected (.symbol word)

def expectDelimiter (symbol : String) : Parser Unit := do
  unless ← acceptDelimiter symbol do unexpected (.symbol symbol)

def expectIdentifier (what : Expected) : Parser String := do
  if (← current).kind = .identifier then return (← advance).text
  unexpected what

/-- The end of a line; the end of input also ends a line and stays. -/
def expectNewline : Parser Unit := do
  match (← current).kind with
  | .newline =>
    let _ ← advance
    return ()
  | .endOfInput => return ()
  | _ => unexpected .endOfLine

/-- Collects what `step` reads until it reads nothing more or takes no token. -/
def many (step : Parser (Option α)) : Parser (List α) := fun cursor =>
  match step cursor with
  | .error error after => .error error after
  | .ok none after => .ok [] after
  | .ok (some value) after =>
    if after.size < cursor.size then
      match many step after with
      | .error error last => .error error last
      | .ok values last => .ok (value :: values) last
    else .ok [value] after
termination_by cursor => cursor.size

/-- The items after a first one: each follows a comma, and a comma before `stop` ends the list. -/
def moreItems (stop : Token → Bool) (item : Parser α) : Parser (List α) :=
  many do
    unless ← acceptDelimiter "," do return none
    if stop (← current) then return none
    some <$> item

/-- Items between commas, up to a token that passes `stop` or an item without a comma after it. -/
def items (stop : Token → Bool) (item : Parser α) : Parser (List α) := do
  if stop (← current) then return []
  return (← item) :: (← moreItems stop item)

def whenever (test : Parser Bool) (parser : Parser α) : Parser (Option α) := do
  if ← test then return some (← parser)
  return none

/-- Reads at another cursor and stays where it is. -/
def apart (parser : Parser α) (cursor : Cursor) : Parser α :=
  match parser cursor with
  | .ok value _ => return value
  | .error error _ => throw error

end Parser
end SourceAudit
