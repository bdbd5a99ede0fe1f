import SourceAudit.Number.Binary64

namespace SourceAudit

inductive UnaryOp where
  | not
  | negate
  | plus
  | invert
deriving DecidableEq, Repr

inductive BinaryOp where
  | or
  | and
  | equal
  | notEqual
  | less
  | greater
  | lessEqual
  | greaterEqual
  | is
  | isNot
  | isIn
  | notIn
  | bitOr
  | bitXor
  | bitAnd
  | shiftLeft
  | shiftRight
  | add
  | subtract
  | multiply
  | divide
  | floorDivide
  | modulo
  | matrixMultiply
  | power
deriving DecidableEq, Repr

def BinaryOp.ofSymbol? : String → Option BinaryOp
  | "or" => some .or
  | "and" => some .and
  | "==" => some .equal
  | "!=" => some .notEqual
  | "<" => some .less
  | ">" => some .greater
  | "<=" => some .lessEqual
  | ">=" => some .greaterEqual
  | "is" => some .is
  | "in" => some .isIn
  | "|" => some .bitOr
  | "^" => some .bitXor
  | "&" => some .bitAnd
  | "<<" => some .shiftLeft
  | ">>" => some .shiftRight
  | "+" => some .add
  | "-" => some .subtract
  | "*" => some .multiply
  | "/" => some .divide
  | "//" => some .floorDivide
  | "%" => some .modulo
  | "@" => some .matrixMultiply
  | "**" => some .power
  | _ => none

inductive ArgumentKind where
  | positional
  | keyword (name : String)
  | star
  | doubleStar
deriving DecidableEq, Repr

structure Argument (ε : Type) where
  kind : ArgumentKind
  value : ε

inductive ParamKind where
  | normal
  | variadic
  | keywords
deriving DecidableEq, Repr

structure Param (ε : Type) where
  name : String
  kind : ParamKind
  hint : Option ε
  fallback : Option ε

/-- An entry of a dictionary display; without a key it unpacks a mapping. -/
structure DictEntry (ε : Type) where
  key : Option ε
  value : ε

structure Generator (ε : Type) where
  target : ε
  iterated : ε
  conditions : List ε
  isAsync : Bool

inductive FormattedPart (ε : Type) where
  | literal (text : String)
  | value (expr : ε)

/-- The forms of an expression over sub-expressions of type `ε`. -/
inductive Expr.Shape (ε : Type) where
  | identifier (name : String)
  | int (value : Int)
  | float (value : Binary64)
  | string (text : String)
  | bool (value : Bool)
  | none
  | unary (op : UnaryOp) (operand : ε)
  | binary (op : BinaryOp) (left right : ε)
  | call (function : ε) (args : List (Argument ε))
  | attribute (value : ε) (name : String)
  | subscript (value index : ε)
  | slice (lower upper step : Option ε)
  | list (items : List ε)
  | tuple (items : List ε)
  | dict (entries : List (DictEntry ε))
  | set (items : List ε)
  | lambda (params : List (Param ε)) (body : ε)
  | listComp (element : ε) (generators : List (Generator ε))
  | dictComp (key value : ε) (generators : List (Generator ε))
  | setComp (element : ε) (generators : List (Generator ε))
  | generatorExp (element : ε) (generators : List (Generator ε))
  | await (value : ε)
  | formatted (parts : List (FormattedPart ε))
  | conditional (test body orelse : ε)
  | yield (value : Option ε) (delegates : Bool)
  | starred (value : ε)

structure Expr where
  line : Nat
  shape : Expr.Shape Expr

variable {ε : Type}

def Param.children (param : Param ε) : List ε := param.hint.toList ++ param.fallback.toList

def DictEntry.children (entry : DictEntry ε) : List ε := entry.key.toList ++ [entry.value]

def Generator.children (generator : Generator ε) : List ε :=
  generator.target :: generator.iterated :: generator.conditions

def FormattedPart.children : FormattedPart ε → List ε
  | .literal _ => []
  | .value expr => [expr]

def FormattedPart.literalText : FormattedPart ε → String
  | .literal text => text
  | .value _ => ""

namespace Expr

def Shape.children : Shape ε → List ε
  | .identifier _ | .int _ | .float _ | .string _ | .bool _ | .none => []
  | .unary _ operand => [operand]
  | .binary _ left right => [left, right]
  | .call function args => function :: args.map (·.value)
  | .attribute value _ => [value]
  | .subscript value index => [value, index]
  | .slice lower upper step => lower.toList ++ upper.toList ++ step.toList
  | .list items | .tuple items | .set items => items
  | .dict entries => entries.flatMap (·.children)
  | .lambda params body => params.flatMap (·.children) ++ [body]
  | .listComp element generators | .setComp element generators | .generatorExp element generators =>
    element :: generators.flatMap (·.children)
  | .dictComp key value generators => key :: value :: generators.flatMap (·.children)
  | .await value | .starred value => [value]
  | .formatted parts => parts.flatMap (·.children)
  | .conditional test body orelse => [body, test, orelse]
  | .yield value _ => value.toList

def children (expr : Expr) : List Expr := expr.shape.children

def dottedName : Expr → Option String
  | ⟨_, .identifier name⟩ => some name
  | ⟨_, .attribute value name⟩ => value.dottedName.map (· ++ "." ++ name)
  | _ => none

def string? (expr : Expr) : Option String :=
  match expr.shape with
  | .string text => some text
  | _ => none

def isLiteral (expr : Expr) : Bool :=
  match expr.shape with
  | .string _ | .int _ | .float _ | .bool _ | .none => true
  | _ => false

/-- The literal text reachable through concatenation, `%`, formatted strings and `format` calls. -/
def literalText : Expr → String
  | ⟨_, .string text⟩ => text
  | ⟨_, .formatted parts⟩ => String.join (parts.map FormattedPart.literalText)
  | ⟨_, .binary .add left right⟩ => left.literalText ++ right.literalText
  | ⟨_, .binary .modulo left right⟩ => left.literalText ++ right.literalText
  | ⟨_, .call ⟨_, .attribute value name⟩ _⟩ => if name = "format" then value.literalText else ""
  | _ => ""

end Expr

structure Call where
  function : Expr
  args : List (Argument Expr)

def Expr.call? (expr : Expr) : Option Call :=
  match expr.shape with
  | .call function args => some ⟨function, args⟩
  | _ => none

namespace Call

def callee (call : Call) : Option String := call.function.dottedName

def methodName (call : Call) : Option String :=
  match call.function.shape with
  | .identifier name => some name
  | .attribute _ name => some name
  | _ => none

def receiver? (call : Call) : Option Expr :=
  match call.function.shape with
  | .attribute value _ => some value
  | _ => none

def positionals (call : Call) : List Expr :=
  call.args.filterMap fun arg => if arg.kind = .positional then some arg.value else none

def positional? (call : Call) (index : Nat) : Option Expr := call.positionals[index]?

def keyword? (call : Call) (name : String) : Option Expr :=
  (call.args.find? fun arg => arg.kind = .keyword name).map (·.value)

def values (call : Call) : List Expr := call.args.map (·.value)

end Call
end SourceAudit
