import SourceAudit.Token.Basic

namespace SourceAudit

inductive Expected where
  | symbol (text : String)
  | expression
  | subscript
  | endOfLine
  | endOfReplacement
  | name
  | moduleName
  | aliasName
  | importedName
  | functionName
  | parameterName
  | className
  | attributeName
  | decorated
  | asyncStatement
  | handlerOrFinally
deriving DecidableEq, Repr

def Expected.describe : Expected → String
  | symbol text => "`" ++ text ++ "`"
  | expression => "expression"
  | subscript => "subscript"
  | endOfLine => "end of line"
  | endOfReplacement => "end of f-string expression"
  | name => "a name"
  | moduleName => "a module name"
  | aliasName => "an alias"
  | importedName => "a name to import"
  | functionName => "a function name"
  | parameterName => "a parameter name"
  | className => "a class name"
  | attributeName => "an attribute name"
  | decorated => "`def` or `class` after decorator"
  | asyncStatement => "`def`, `for` or `with` after `async`"
  | handlerOrFinally => "`except` or `finally`"

namespace SyntaxError

inductive Cause where
  | expected (what : Expected) (found : Token)
  | fault (found : Token.Fault)
  | unexpectedIndent
  | missingBlock
  | tooDeep
  | assignmentExpression
  | integerRange (text : String)
  | invalidFloat (text : String)
  | orphanClause (word : String)
  | notAssignable
  | unterminatedReplacement
  | emptyReplacement
  | singleBrace
deriving DecidableEq, Repr

def Cause.message : Cause → String
  | expected what found => "expected " ++ what.describe ++ ", found " ++ found.describe
  | fault found => found.message
  | unexpectedIndent => "unexpected indent"
  | missingBlock => "expected an indented block"
  | tooDeep => "too many nested expressions or blocks"
  | assignmentExpression => "assignment expressions (`:=`) are not supported"
  | integerRange text => "integer literal `" ++ text ++ "` is out of range"
  | invalidFloat text => "invalid float literal `" ++ text ++ "`"
  | orphanClause word => "`" ++ word ++ "` without a matching statement"
  | notAssignable => "cannot assign to expression"
  | unterminatedReplacement => "unterminated `\x7b` in f-string"
  | emptyReplacement => "empty expression in f-string"
  | singleBrace => "single `\x7d` is not allowed in f-string"

end SyntaxError

structure SyntaxError where
  line : Nat
  cause : SyntaxError.Cause
deriving DecidableEq, Repr

namespace SyntaxError

/-- An error at a token. The fault of an illegal token takes the place of the given cause. -/
def atToken (token : Token) (cause : Cause) : SyntaxError :=
  ⟨token.line, (token.fault?.map Cause.fault).getD cause⟩

def message (error : SyntaxError) : String := error.cause.message

def display (file : String) (error : SyntaxError) : String :=
  file ++ ":" ++ toString error.line ++ ": " ++ error.message

end SyntaxError
end SourceAudit
