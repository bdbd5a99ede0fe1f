namespace SourceAudit

inductive Token.Kind where
  | keyword
  | identifier
  | integer
  | float
  | string
  | formattedString
  | boolean
  | none
  | operator
  | delimiter
  | newline
  | indent
  | dedent
  | illegal
  | endOfInput
deriving DecidableEq, Repr, Inhabited

/-- A lexical unit and the line of its first character. The text of a string holds its value, not
    its spelling. -/
structure Token where
  kind : Token.Kind
  text : String
  line : Nat
deriving DecidableEq, Repr, Inhabited

namespace Token

/-- The number of the line that comes some line breaks after another one. Line numbers have 64 bits,
    and after the last of them the count goes on from zero. -/
def lineAfter (line breaks : Nat) : Nat := (line + breaks) % 0x10000000000000000

def Kind.name : Kind → String
  | keyword => "keyword"
  | identifier => "identifier"
  | integer => "integer"
  | float => "float"
  | string => "string"
  | formattedString => "f-string"
  | boolean => "boolean"
  | none => "None"
  | operator => "operator"
  | delimiter => "delimiter"
  | newline => "newline"
  | indent => "indent"
  | dedent => "dedent"
  | illegal => "illegal token"
  | endOfInput => "end of input"

/-- Kinds that stand for layout and are described without their text. -/
def Kind.isLayout : Kind → Bool
  | newline | indent | dedent | endOfInput => true
  | _ => false

def describe (token : Token) : String :=
  if token.kind.isLayout then token.kind.name
  else token.kind.name ++ " `" ++ token.text ++ "`"

def keywords : List String :=
  ["def", "if", "elif", "else", "for", "while", "return", "in", "and", "or", "not", "is", "class",
   "import", "from", "pass", "break", "continue", "try", "except", "finally", "lambda", "yield",
   "with", "as", "async", "await", "raise", "del", "assert", "global", "nonlocal"]

def statementStarters : List String :=
  ["if", "while", "for", "def", "class", "return", "import", "pass", "break", "continue"]

def kindOfWord (word : String) : Kind :=
  if word = "True" ∨ word = "False" then .boolean
  else if word = "None" then .none
  else if word ∈ keywords then .keyword
  else .identifier

def isKeyword (token : Token) (word : String) : Bool :=
  token.kind == .keyword && token.text == word

def isOperator (token : Token) (symbol : String) : Bool :=
  token.kind == .operator && token.text == symbol

def isDelimiter (token : Token) (symbol : String) : Bool :=
  token.kind == .delimiter && token.text == symbol

def isStatementStarter (token : Token) : Bool :=
  token.kind == .keyword && statementStarters.contains token.text

inductive Fault where
  | illegalCharacter (text : String)
  | unterminatedString
  | inconsistentDedent
deriving DecidableEq, Repr

def Fault.message : Fault → String
  | illegalCharacter text => "illegal character `" ++ text ++ "`"
  | unterminatedString => "unterminated string literal"
  | inconsistentDedent => "unindent does not match any outer indentation level"

def isQuote (c : Char) : Bool := c == '\x22' || c == '\x27'

/-- The fault of an illegal token, told from the first character of its text. -/
def fault? (token : Token) : Option Fault :=
  if token.kind = .illegal then
    match token.text.toList with
    | [] => some (.illegalCharacter token.text)
    | c :: _ =>
      if isQuote c then some .unterminatedString
      else if c = ' ' ∨ c = '\t' then some .inconsistentDedent
      else some (.illegalCharacter token.text)
  else none

end Token
end SourceAudit
