import SourceAudit.Syntax.Expr
import SourceAudit.Token.Basic

namespace SourceAudit

/-- How tightly an operator binds, loosest first. -/
inductive Precedence where
  | lowest
  | conditional
  | or
  | and
  | equality
  | relational
  | bitwise
  | additive
  | multiplicative
  | unary
  | power
  | trailer
deriving DecidableEq, Repr

namespace Precedence

def rank : Precedence → Nat
  | lowest => 0
  | conditional => 1
  | or => 2
  | and => 3
  | equality => 4
  | relational => 5
  | bitwise => 6
  | additive => 7
  | multiplicative => 8
  | unary => 9
  | power => 10
  | trailer => 11

instance : LT Precedence := ⟨fun a b => a.rank < b.rank⟩

instance (a b : Precedence) : Decidable (a < b) := inferInstanceAs (Decidable (a.rank < b.rank))

end Precedence

namespace BinaryOp

def precedence : BinaryOp → Precedence
  | or => .or
  | and => .and
  | equal | notEqual => .equality
  | less | greater | lessEqual | greaterEqual | is | isNot | isIn | notIn => .relational
  | bitOr | bitXor | bitAnd | shiftLeft | shiftRight => .bitwise
  | add | subtract => .additive
  | multiply | divide | floorDivide | modulo | matrixMultiply => .multiplicative
  | power => .power

/-- The operators in the right operand bind tighter than this. A power takes further powers, so it
    groups to the right; every other operator groups to the left. -/
def rightPrecedence (op : BinaryOp) : Precedence :=
  if op = power then .unary else op.precedence

end BinaryOp

inductive Continuation where
  | call
  | subscript
  | attribute
  | conditional
  | operator (op : BinaryOp)
deriving DecidableEq, Repr

namespace Continuation

def precedence : Continuation → Precedence
  | .call | .subscript | .attribute => .trailer
  | .conditional => .conditional
  | .operator op => op.precedence

def width : Continuation → Nat
  | .operator .isNot | .operator .notIn => 2
  | _ => 1

def ofKeyword (word : String) (next : Token) : Option Continuation :=
  match word with
  | "or" => some (operator .or)
  | "and" => some (operator .and)
  | "is" => some (operator (if next.isKeyword "not" then .isNot else .is))
  | "in" => some (operator .isIn)
  | "not" => if next.isKeyword "in" then some (operator .notIn) else none
  | "if" => some conditional
  | _ => none

def ofOperator (symbol : String) : Option Continuation :=
  if symbol = "." then some «attribute»
  else if symbol = "or" ∨ symbol = "and" ∨ symbol = "is" ∨ symbol = "in" then none
  else (BinaryOp.ofSymbol? symbol).map operator

def ofDelimiter : String → Option Continuation
  | "(" => some call
  | "[" => some subscript
  | _ => none

def ofTokens (token next : Token) : Option Continuation :=
  match token.kind with
  | .keyword => ofKeyword token.text next
  | .operator => ofOperator token.text
  | .delimiter => ofDelimiter token.text
  | _ => none

end Continuation
end SourceAudit
