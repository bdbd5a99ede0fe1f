import SourceAudit.Grammar.Expression
import SourceAudit.Syntax.Stmt

namespace SourceAudit

/-- The first sub-expression of an assignment target that cannot be assigned to. -/
def Expr.unassignable? : Expr → Option Expr
  | ⟨_, .identifier _⟩ | ⟨_, .attribute _ _⟩ | ⟨_, .subscript _ _⟩ => none
  | ⟨_, .tuple items⟩ | ⟨_, .list items⟩ => items.attach.findSome? fun ⟨item, _⟩ => item.unassignable?
  | ⟨_, .starred inner⟩ => inner.unassignable?
  | other => some other
termination_by target => sizeOf target

def BinaryOp.ofAugmented? (token : Token) : Option BinaryOp :=
  if token.kind = .operator then
    match token.text.toList.reverse with
    | '=' :: symbol =>
      let symbol := String.ofList symbol.reverse
      if symbol ∈ ["", "=", "!", "<", ">", ":"] then none else ofSymbol? symbol
    | _ => none
  else none

structure Line where
  statements : List Stmt
  failure : Option SyntaxError

namespace Parser

def assignable (target : Expr) : Parser Unit :=
  match target.unassignable? with
  | none => return ()
  | some culprit => throw ⟨culprit.line, .notAssignable⟩

variable (expr : Precedence → Parser Expr)

def atStatementEnd : Parser Bool := do
  let token ← current
  return token.kind == .newline || token.kind == .endOfInput || token.isDelimiter ";"

def assignedValues : Parser (List Expr) :=
  many (whenever (acceptOperator "=") (expressionList expr))

def expressionStatement : Parser (Stmt.Shape Stmt) := do
  let first ← expressionList expr
  let values ← assignedValues expr
  if let some value := values.getLast? then
    let targets := first :: values.dropLast
    targets.forM assignable
    return .assign ⟨targets, some value, none, none⟩
  if let some op := BinaryOp.ofAugmented? (← current) then
    assignable first
    let _ ← advance
    return .assign ⟨[first], some (← expressionList expr), none, some op⟩
  if ← acceptDelimiter ":" then
    assignable first
    let hint ← expr .lowest
    let value ← whenever (acceptOperator "=") (expressionList expr)
    return .assign ⟨[first], value, some hint, none⟩
  return .expr first

def dottedName : Parser String := do
  let first ← expectIdentifier .moduleName
  let others ← many (whenever (acceptOperator ".") (expectIdentifier .name))
  return ".".intercalate (first :: others)

def asName : Parser (Option String) :=
  whenever (acceptKeyword "as") (expectIdentifier .aliasName)

def importedModule : Parser Alias := return ⟨← dottedName, ← asName⟩

def importedName : Parser Alias := return ⟨← expectIdentifier .importedName, ← asName⟩

/-- One run of leading dots of a relative import, and how many levels it climbs. -/
def relativeDots : Parser (Option Nat) := do
  if ← acceptOperator "." then return some 1
  if ← acceptOperator "..." then return some 3
  return none

def fromImport : Parser (Stmt.Shape Stmt) := do
  let level := (← many relativeDots).foldl (· + ·) 0
  let module ← if ← atKeyword "import" then pure "" else dottedName
  expectKeyword "import"
  if ← acceptOperator "*" then return .importFrom level module [⟨"*", none⟩]
  if ← acceptDelimiter "(" then
    let names ← items (·.isDelimiter ")") importedName
    expectDelimiter ")"
    return .importFrom level module names
  return .importFrom level module (← items (fun _ => false) importedName)

def raised : Parser (Stmt.Shape Stmt) := do
  if ← atStatementEnd then return .raise none none
  let exception ← expr .lowest
  return .raise (some exception) (← whenever (acceptKeyword "from") (expr .lowest))

def deleted : Parser (Stmt.Shape Stmt) := do
  let target ← expressionList expr
  match target.shape with
  | .tuple targets => return .delete targets
  | _ => return .delete [target]

def keywordStatement (word : String) : Parser (Stmt.Shape Stmt) := do
  match word with
  | "pass" =>
    let _ ← advance
    return .pass
  | "break" =>
    let _ ← advance
    return .breakLoop
  | "continue" =>
    let _ ← advance
    return .continueLoop
  | "return" =>
    let _ ← advance
    if ← atStatementEnd then return .returnValue none
    return .returnValue (some (← expressionList expr))
  | "import" =>
    let _ ← advance
    return .importNames (← items (fun _ => false) importedModule)
  | "from" =>
    let _ ← advance
    fromImport
  | "raise" =>
    let _ ← advance
    raised expr
  | "assert" =>
    let _ ← advance
    let test ← expr .lowest
    return .assert test (← whenever (acceptDelimiter ",") (expr .lowest))
  | "del" =>
    let _ ← advance
    deleted expr
  | "global" | "nonlocal" =>
    let _ ← advance
    return .global (word == "nonlocal") (← items (fun _ => false) (expectIdentifier .name))
  | "elif" | "else" | "except" | "finally" => fail (.orphanClause word)
  | _ => expressionStatement expr

def simpleStatement : Parser Stmt := do
  let token ← current
  if token.kind = .keyword then return ⟨token.line, ← keywordStatement expr token.text⟩
  return ⟨token.line, ← expressionStatement expr⟩

def lineStatement : Parser (Stmt × Bool) := do
  let statement ← simpleStatement expr
  unless ← acceptDelimiter ";" do return (statement, false)
  let token ← current
  return (statement, !(token.kind == .newline || token.kind == .endOfInput))

/-- Simple statements between semicolons up to the end of the line. An error keeps the statements
    before it. -/
def simpleLine (cursor : Cursor) : Line × Cursor :=
  match lineStatement expr cursor with
  | .error error after => (⟨[], some error⟩, after)
  | .ok (statement, true) after =>
    if after.size < cursor.size then
      let (line, last) := simpleLine after
      ({ line with statements := statement :: line.statements }, last)
    else (⟨[statement], none⟩, after)
  | .ok (statement, false) after =>
    match expectNewline after with
    | .ok _ last => (⟨[statement], none⟩, last)
    | .error error last => (⟨[statement], some error⟩, last)
termination_by cursor.size

variable (block : Parser (Block Stmt))

def suite : Parser (Block Stmt) := do
  expectDelimiter ":"
  block

def elseSuite : Parser (Option (Block Stmt)) := whenever (acceptKeyword "else") (suite block)

structure Clause where
  line : Nat
  test : Expr
  body : Block Stmt

def clause : Parser Clause := do
  let line := (← advance).line
  let test ← expr .lowest
  return ⟨line, test, ← suite block⟩

def Clause.statement (clause : Clause) (alternate : Option Stmt) : Stmt :=
  ⟨clause.line, .ifElse clause.test clause.body alternate⟩

def elseStatement : Parser (Option Stmt) := do
  unless ← atKeyword "else" do return none
  let line := (← advance).line
  return some ⟨line, .block (← suite block)⟩

def ifStatement : Parser Stmt := do
  let first ← clause expr block
  let others ← many (whenever (atKeyword "elif") (clause expr block))
  let last ← elseStatement block
  return first.statement (others.foldr (fun clause rest => some (clause.statement rest)) last)

def whileShape : Parser (Stmt.Shape Stmt) := do
  let _ ← advance
  let test ← expr .lowest
  let body ← suite block
  return .whileLoop test body (← elseSuite block)

def forShape (isAsync : Bool) : Parser (Stmt.Shape Stmt) := do
  let _ ← advance
  let target ← targetList expr
  assignable target
  expectKeyword "in"
  let iterated ← expressionList expr
  let body ← suite block
  return .forLoop isAsync target iterated body (← elseSuite block)

def functionShape (decorators : List Expr) (isAsync : Bool) : Parser (Stmt.Shape Stmt) := do
  let _ ← advance
  let name ← expectIdentifier .functionName
  expectDelimiter "("
  let params ← params expr ")" true
  expectDelimiter ")"
  let returns ← whenever (acceptOperator "->") (expr .lowest)
  return .functionDef ⟨name, params, returns, ← suite block, decorators, isAsync⟩

def classShape (decorators : List Expr) : Parser (Stmt.Shape Stmt) := do
  let _ ← advance
  let name ← expectIdentifier .className
  let bases ← if ← acceptDelimiter "(" then arguments expr else pure []
  return .classDef ⟨name, bases, ← suite block, decorators⟩

def handler : Parser (Handler Stmt) := do
  let line := (← advance).line
  if ← atDelimiter ":" then return ⟨line, none, none, ← suite block⟩
  let caught ← expr .lowest
  let name ← whenever (acceptKeyword "as") (expectIdentifier .name)
  return ⟨line, some caught, name, ← suite block⟩

def tryShape : Parser (Stmt.Shape Stmt) := do
  let _ ← advance
  let body ← suite block
  let handlers ← many (whenever (atKeyword "except") (handler expr block))
  let orelse ← elseSuite block
  let last ← whenever (acceptKeyword "finally") (suite block)
  if handlers.isEmpty && last.isNone then unexpected .handlerOrFinally
  return .tryExcept body handlers orelse last

def withItem : Parser WithItem := do
  let context ← expr .lowest
  unless ← acceptKeyword "as" do return ⟨context, none⟩
  let target ← expr .lowest
  assignable target
  return ⟨context, some target⟩

def withShape (isAsync : Bool) : Parser (Stmt.Shape Stmt) := do
  let _ ← advance
  let entries ← items (fun _ => false) (withItem expr)
  return .withItems isAsync entries (← suite block)

def asyncShape (decorators : List Expr) : Parser (Stmt.Shape Stmt) := do
  let _ ← advance
  if ← atKeyword "def" then functionShape expr block decorators true
  else if !decorators.isEmpty then unexpected (.symbol "def")
  else if ← atKeyword "for" then forShape expr block true
  else if ← atKeyword "with" then withShape expr block true
  else unexpected .asyncStatement

def decorator : Parser (Option Expr) := do
  unless ← acceptOperator "@" do return none
  let value ← expr .lowest
  expectNewline
  return some value

def decoratedShape : Parser (Stmt.Shape Stmt) := do
  let decorators ← many (decorator expr)
  if ← atKeyword "def" then functionShape expr block decorators false
  else if ← atKeyword "class" then classShape expr block decorators
  else if ← atKeyword "async" then asyncShape expr block decorators
  else unexpected .decorated

def compound? (token : Token) : Option (Parser Stmt) :=
  let located (shape : Parser (Stmt.Shape Stmt)) : Option (Parser Stmt) :=
    some ((⟨token.line, ·⟩) <$> shape)
  if token.isOperator "@" then located (decoratedShape expr block)
  else if token.kind = .keyword then
    match token.text with
    | "if" => some (ifStatement expr block)
    | "while" => located (whileShape expr block)
    | "for" => located (forShape expr block false)
    | "def" => located (functionShape expr block [] false)
    | "class" => located (classShape expr block [])
    | "try" => located (tryShape expr block)
    | "with" => located (withShape expr block false)
    | "async" => located (asyncShape expr block [])
    | _ => none
  else none

def statementLine (cursor : Cursor) : Line × Cursor :=
  match compound? expr block cursor.current with
  | none => simpleLine expr cursor
  | some parser =>
    match parser cursor with
    | .ok statement after => (⟨[statement], none⟩, after)
    | .error error after => (⟨[], some error⟩, after)

/-- A line at which an error is reported and skipped. -/
def recoveredLine (cursor : Cursor) : List Stmt × Cursor :=
  let (line, after) := statementLine expr block cursor
  match line.failure with
  | none => (line.statements, after)
  | some error =>
    let resumed := (after.report error).synchronize
    (line.statements, if resumed.size = cursor.size then resumed.advance else resumed)

/-- Lines that are indented for no reason, `depth` levels deep. They count as if they were not. -/
def overIndented : Nat → Cursor → List Stmt × Cursor
  | 0, cursor => ([], cursor)
  | depth + 1, cursor =>
    match _ahead : cursor.rest with
    | [] => ([], cursor)
    | token :: _ =>
      match token.kind with
      | .dedent | .endOfInput => overIndented depth cursor.advance
      | .newline => overIndented (depth + 1) cursor.advance
      | .indent =>
        overIndented (depth + 2) (cursor.advance.report (.atToken token .unexpectedIndent))
      | _ =>
        let (statements, after) := recoveredLine expr block cursor
        if after.size < cursor.size then
          let (others, last) := overIndented (depth + 1) after
          (statements ++ others, last)
        else (statements, after)
termination_by _ cursor => cursor.size
decreasing_by all_goals simp_all [Cursor.size_eq, Cursor.advance, Cursor.drop, Cursor.report]

def recovered (cursor : Cursor) : List Stmt × Cursor :=
  if cursor.current.kind = .indent then
    overIndented expr block 1
      (cursor.advance.report (.atToken cursor.current .unexpectedIndent))
  else recoveredLine expr block cursor

/-- All statements up to a token that passes `stop` or the end of input; tokens that pass `skip` are
    left out. -/
def statements (stop skip : Token.Kind → Bool) (cursor : Cursor) : List Stmt × Cursor :=
  match _ahead : cursor.rest with
  | [] => ([], cursor)
  | token :: _ =>
    if token.kind = .endOfInput ∨ stop token.kind then ([], cursor)
    else if skip token.kind then statements stop skip cursor.advance
    else
      let (first, after) := recovered expr block cursor
      if after.size < cursor.size then
        let (others, last) := statements stop skip after
        (first ++ others, last)
      else (first, after)
termination_by cursor.size
decreasing_by all_goals simp_all [Cursor.size_eq, Cursor.advance, Cursor.drop]

def blockBody : Parser (Block Stmt) := fun cursor =>
  if cursor.current.kind ≠ .newline then
    match simpleLine expr cursor with
    | (⟨statements, none⟩, after) => .ok ⟨cursor.current.line, statements⟩ after
    | (⟨_, some error⟩, after) => .error error after
  else if cursor.peek.kind ≠ .indent then fail .missingBlock cursor
  else
    let opened := cursor.advance.advance
    let (body, after) := statements expr block (· == .dedent) (· == .newline) opened
    .ok ⟨opened.current.line, body⟩
      (if after.current.kind = .dedent then after.advance else after)

end Parser

/-- A block with at most `depth` levels of expressions and blocks in it. -/
def Parser.nestedBlock : Nat → Parser (Block Stmt)
  | 0 => fail .tooDeep
  | depth + 1 => blockBody (expression depth) (nestedBlock depth)

namespace Program

def ofTokens (file : String) (tokens : List Token) : Program × List SyntaxError :=
  let (statements, last) :=
    Parser.statements (Parser.expression nestingLimit) (Parser.nestedBlock nestingLimit)
      (fun _ => false) (fun kind => kind == .newline || kind == .dedent) (Cursor.ofTokens tokens)
  (⟨file, statements⟩, last.errors)

def ofSource (file source : String) : Program × List SyntaxError :=
  ofTokens file (Token.ofText source 1)

end Program
end SourceAudit
