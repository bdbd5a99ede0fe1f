import SourceAudit.Grammar.Cursor
import SourceAudit.Grammar.Precedence
import SourceAudit.Grammar.Replacement
import SourceAudit.Number.Reading
import SourceAudit.Token.Scanner

namespace SourceAudit

inductive Tail where
  | call (args : List (Argument Expr))
  | subscript (index : Expr)
  | attribute (name : String)
  | conditional (test orelse : Expr)
  | operator (op : BinaryOp) (right : Expr)

def Expr.extend (left : Expr) : Tail → Expr
  | .call args => ⟨left.line, .call left args⟩
  | .subscript index => ⟨left.line, .subscript left index⟩
  | .attribute name => ⟨left.line, .attribute left name⟩
  | .conditional test orelse => ⟨left.line, .conditional test left orelse⟩
  | .operator op right => ⟨left.line, .binary op left right⟩

/-- Adds a part in front of others and joins literals that meet. -/
def FormattedPart.join : FormattedPart Expr → List (FormattedPart Expr) → List (FormattedPart Expr)
  | .literal text, .literal next :: rest => .literal (text ++ next) :: rest
  | part, rest => part :: rest

inductive StringPiece where
  | plain (text : String)
  | formatted (parts : List (FormattedPart Expr))

namespace StringPiece

def isFormatted : StringPiece → Bool
  | plain _ => false
  | formatted _ => true

def parts : StringPiece → List (FormattedPart Expr)
  | plain text => [.literal text]
  | formatted parts => parts

def text : StringPiece → String
  | plain text => text
  | formatted _ => ""

/-- Adjacent strings are one string, a formatted one if any of them is. -/
def joined (pieces : List StringPiece) : Expr.Shape Expr :=
  if pieces.any isFormatted then .formatted ((pieces.flatMap parts).foldr FormattedPart.join [])
  else .string (String.join (pieces.map text))

end StringPiece

namespace Token

def startsExpression (token : Token) : Bool :=
  match token.kind with
  | .identifier | .integer | .float | .string | .formattedString | .boolean | .none => true
  | .delimiter => ["(", "[", "\x7b"].contains token.text
  | .operator => ["-", "+", "~", "!", "*", "..."].contains token.text
  | .keyword => ["not", "lambda", "await", "yield"].contains token.text
  | _ => false

def startsGenerator (token : Token) : Bool := token.isKeyword "for" || token.isKeyword "async"

def isString (token : Token) : Bool := token.kind == .string || token.kind == .formattedString

/-- The value of an integer literal, if it fits in 64 bits. -/
def integer? (text : String) : Option Int :=
  match text.toList with
  | '0' :: 'x' :: digits => Number.int64? 16 digits
  | '0' :: 'o' :: digits => Number.int64? 8 digits
  | '0' :: 'b' :: digits => Number.int64? 2 digits
  | digits => Number.int64? 10 digits

def unaryOperator? : String → Option UnaryOp
  | "-" => some .negate
  | "+" => some .plus
  | "~" => some .invert
  | "!" => some .not
  | _ => none

end Token

namespace Parser

-- `expr` reads the expressions one level deeper; it takes the precedence their operators must exceed
variable (expr : Precedence → Parser Expr)

/-- Expressions between commas; more than one, or a comma, makes a tuple. -/
def expressionList : Parser Expr := do
  let first ← expr .lowest
  unless ← atDelimiter "," do return first
  let others ← moreItems (!·.startsExpression) (expr .lowest)
  return ⟨first.line, .tuple (first :: others)⟩

def targetList : Parser Expr := do
  let first ← expr .relational
  unless ← atDelimiter "," do return first
  let others ← moreItems (·.isKeyword "in") (expr .relational)
  return ⟨first.line, .tuple (first :: others)⟩

def param (kind : ParamKind) (hints fallback : Bool) : Parser (Param Expr) := do
  let name ← expectIdentifier .parameterName
  let hint ← whenever (if hints then acceptDelimiter ":" else return false) (expr .lowest)
  let fallback ← whenever (if fallback then acceptOperator "=" else return false) (expr .lowest)
  return ⟨name, kind, hint, fallback⟩

/-- One entry of a parameter list; the markers `/` and `*` name no parameter. -/
def paramEntry (terminator : String) (hints : Bool) : Parser (Option (Param Expr)) := do
  if ← acceptOperator "/" then return none
  if ← acceptOperator "*" then
    if (← atDelimiter ",") || (← atDelimiter terminator) then return none
    return some (← param expr .variadic hints false)
  if ← acceptOperator "**" then return some (← param expr .keywords hints false)
  return some (← param expr .normal hints true)

def params (terminator : String) (hints : Bool) : Parser (List (Param Expr)) := do
  let entries ← items (·.isDelimiter terminator) (paramEntry expr terminator hints)
  return entries.filterMap id

def generator : Parser (Option (Generator Expr)) := do
  let isAsync ← acceptKeyword "async"
  if ← acceptKeyword "for" then
    let target ← targetList expr
    expectKeyword "in"
    let iterated ← expr .conditional
    let conditions ← many (whenever (acceptKeyword "if") (expr .conditional))
    return some ⟨target, iterated, conditions, isAsync⟩
  if isAsync then unexpected (.symbol "for")
  return none

def generators : Parser (List (Generator Expr)) := many (generator expr)

def argument : Parser (Argument Expr) := do
  if ← acceptOperator "*" then return ⟨.star, ← expr .lowest⟩
  if ← acceptOperator "**" then return ⟨.doubleStar, ← expr .lowest⟩
  if (← current).kind = .identifier ∧ (← peek).isOperator "=" then
    let name := (← advance).text
    let _ ← advance
    return ⟨.keyword name, ← expr .lowest⟩
  let value ← expr .lowest
  unless (← current).startsGenerator do return ⟨.positional, value⟩
  return ⟨.positional, ⟨value.line, .generatorExp value (← generators expr)⟩⟩

def arguments : Parser (List (Argument Expr)) := do
  let args ← items (·.isDelimiter ")") (argument expr)
  expectDelimiter ")"
  return args

def sliceBound : Parser (Option Expr) := do
  if (← atDelimiter ":") || (← atDelimiter "]") || (← atDelimiter ",") then return none
  return some (← expr .lowest)

def sliceItem : Parser Expr := do
  let line ← line
  let lower ← sliceBound expr
  if ← acceptDelimiter ":" then
    let upper ← sliceBound expr
    let step ← if ← acceptDelimiter ":" then sliceBound expr else pure none
    return ⟨line, .slice lower upper step⟩
  match lower with
  | some index => return index
  | none => unexpected .subscript

def subscriptIndex : Parser Expr := do
  let first ← sliceItem expr
  unless ← atDelimiter "," do return first
  let others ← moreItems (·.isDelimiter "]") (sliceItem expr)
  return ⟨first.line, .tuple (first :: others)⟩

def tail : Continuation → Parser Tail
  | .call => do
    let _ ← advance
    return .call (← arguments expr)
  | .subscript => do
    let _ ← advance
    let index ← subscriptIndex expr
    expectDelimiter "]"
    return .subscript index
  | .attribute => do
    let _ ← advance
    return .attribute (← expectIdentifier .attributeName)
  | .conditional => do
    let _ ← advance
    let test ← expr .conditional
    expectKeyword "else"
    return .conditional test (← expr .lowest)
  | .operator op => do
    modify (Cursor.drop (Continuation.operator op).width)
    return .operator op (← expr op.rightPrecedence)

def tail? (precedence : Precedence) : Parser (Option Tail) := do
  match Continuation.ofTokens (← current) (← peek) with
  | some continuation =>
    if precedence < continuation.precedence then return some (← tail expr continuation)
    return none
  | none => return none

def yieldValue : Parser (Expr.Shape Expr) := do
  let _ ← advance
  if ← acceptKeyword "from" then return .yield (some (← expr .lowest)) true
  if (← current).startsExpression then return .yield (some (← expressionList expr)) false
  return .yield none false

def parenthesized (line : Nat) : Parser Expr := do
  if ← acceptDelimiter ")" then return ⟨line, .tuple []⟩
  if ← atKeyword "yield" then
    let yieldLine ← Parser.line
    let shape ← yieldValue expr
    expectDelimiter ")"
    return ⟨yieldLine, shape⟩
  let first ← expr .lowest
  if (← current).startsGenerator then
    let loops ← generators expr
    expectDelimiter ")"
    return ⟨line, .generatorExp first loops⟩
  unless ← atDelimiter "," do
    expectDelimiter ")"
    return first
  let others ← moreItems (·.isDelimiter ")") (expr .lowest)
  expectDelimiter ")"
  return ⟨line, .tuple (first :: others)⟩

def listDisplay : Parser (Expr.Shape Expr) := do
  if ← acceptDelimiter "]" then return .list []
  let first ← expr .lowest
  if (← current).startsGenerator then
    let loops ← generators expr
    expectDelimiter "]"
    return .listComp first loops
  let others ← moreItems (·.isDelimiter "]") (expr .lowest)
  expectDelimiter "]"
  return .list (first :: others)

def dictEntry : Parser (DictEntry Expr) := do
  if ← acceptOperator "**" then return ⟨none, ← expr .bitwise⟩
  let key ← expr .lowest
  expectDelimiter ":"
  return ⟨some key, ← expr .lowest⟩

def dictEntries : Parser (List (DictEntry Expr)) := do
  let entries ← items (·.isDelimiter "\x7d") (dictEntry expr)
  expectDelimiter "\x7d"
  return entries

def dictAfterKey (key : Expr) : Parser (Expr.Shape Expr) := do
  let value ← expr .lowest
  if (← current).startsGenerator then
    let loops ← generators expr
    expectDelimiter "\x7d"
    return .dictComp key value loops
  if ← acceptDelimiter "," then return .dict (⟨some key, value⟩ :: (← dictEntries expr))
  expectDelimiter "\x7d"
  return .dict [⟨some key, value⟩]

def braceDisplay : Parser (Expr.Shape Expr) := do
  if ← acceptDelimiter "\x7d" then return .dict []
  if ← atOperator "**" then return .dict (← dictEntries expr)
  let first ← expr .lowest
  if ← acceptDelimiter ":" then return ← dictAfterKey expr first
  if (← current).startsGenerator then
    let loops ← generators expr
    expectDelimiter "\x7d"
    return .setComp first loops
  let others ← moreItems (·.isDelimiter "\x7d") (expr .lowest)
  expectDelimiter "\x7d"
  return .set (first :: others)

def wholeText : Parser Expr := do
  let value ← expressionList expr
  match (← current).kind with
  | .newline | .endOfInput => return value
  | _ => unexpected .endOfReplacement

def replacement (text : String) (line : Nat) : Parser Expr :=
  apart (wholeText expr) (Cursor.ofTokens (Token.ofText text line))

def formattedPart : Piece → Parser (FormattedPart Expr)
  | .literal text => return .literal (String.ofList text)
  | .replacement text line => return .value (← replacement expr (String.ofList text) line)
  | .broken error => throw error

def stringPiece : Parser (Option StringPiece) := do
  unless (← current).isString do return none
  let token ← advance
  if token.kind = .string then return some (.plain token.text)
  let parts ← (Piece.ofBody token.line token.text.toList).mapM (formattedPart expr)
  return some (.formatted parts)

def strings : Parser (Expr.Shape Expr) := return StringPiece.joined (← many (stringPiece expr))

def signed (symbol : String) : Parser (Expr.Shape Expr) := do
  match Token.unaryOperator? symbol with
  | some op =>
    let _ ← advance
    return .unary op (← expr .unary)
  | none =>
    match symbol with
    | "*" =>
      let _ ← advance
      return .starred (← expr .bitwise)
    | "..." =>
      let _ ← advance
      return .identifier "Ellipsis"
    | _ => unexpected .expression

def worded (word : String) : Parser (Expr.Shape Expr) := do
  match word with
  | "not" =>
    let _ ← advance
    return .unary .not (← expr .unary)
  | "lambda" =>
    let _ ← advance
    let params ← params expr ":" false
    expectDelimiter ":"
    return .lambda params (← expr .lowest)
  | "await" =>
    let _ ← advance
    return .await (← expr .unary)
  | "yield" => yieldValue expr
  | _ => unexpected .expression

def atom (shape : Expr.Shape Expr) : Parser (Expr.Shape Expr) := do
  let _ ← advance
  return shape

def operand : Parser Expr := do
  let token ← current
  match token.kind with
  | .identifier => return ⟨token.line, ← atom (.identifier token.text)⟩
  | .integer =>
    match Token.integer? token.text with
    | some value => return ⟨token.line, ← atom (.int value)⟩
    | none => fail (.integerRange token.text)
  | .float =>
    match Number.float? token.text.toList with
    | some value => return ⟨token.line, ← atom (.float value)⟩
    | none => fail (.invalidFloat token.text)
  | .string | .formattedString => return ⟨token.line, ← strings expr⟩
  | .boolean => return ⟨token.line, ← atom (.bool (token.text == "True"))⟩
  | .none => return ⟨token.line, ← atom .none⟩
  | .operator => return ⟨token.line, ← signed expr token.text⟩
  | .keyword => return ⟨token.line, ← worded expr token.text⟩
  | .delimiter =>
    match token.text with
    | "(" =>
      let _ ← advance
      parenthesized expr token.line
    | "[" =>
      let _ ← advance
      return ⟨token.line, ← listDisplay expr⟩
    | "\x7b" =>
      let _ ← advance
      return ⟨token.line, ← braceDisplay expr⟩
    | _ => unexpected .expression
  | _ => unexpected .expression

def operators (precedence : Precedence) : Parser Expr := do
  let first ← operand expr
  let tails ← many (tail? expr precedence)
  if ← atOperator ":=" then fail .assignmentExpression
  return tails.foldl Expr.extend first

end Parser

/-- How many expressions and blocks may be open at once. -/
def nestingLimit : Nat := 64

/-- An expression whose operators bind tighter than `precedence`, with at most `depth` levels. -/
def Parser.expression : Nat → Precedence → Parser Expr
  | 0, _ => fail .tooDeep
  | depth + 1, precedence => operators (expression depth) precedence

end SourceAudit
