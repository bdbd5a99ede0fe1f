import SourceAudit.Syntax.Expr

namespace SourceAudit

/-- The statements of a body and the line of the first one; `σ` is the type of statements. -/
structure Block (σ : Type) where
  line : Nat
  statements : List σ

structure Alias where
  name : String
  asName : Option String
deriving DecidableEq, Repr

structure Assignment where
  targets : List Expr
  value : Option Expr
  hint : Option Expr
  augmented : Option BinaryOp

structure WithItem where
  context : Expr
  target : Option Expr

structure Handler (σ : Type) where
  line : Nat
  caught : Option Expr
  name : Option String
  body : Block σ

structure FunctionDef (σ : Type) where
  name : String
  params : List (Param Expr)
  returns : Option Expr
  body : Block σ
  decorators : List Expr
  isAsync : Bool

structure ClassDef (σ : Type) where
  name : String
  bases : List (Argument Expr)
  body : Block σ
  decorators : List Expr

/-- The forms of a statement over sub-statements of type `σ`. -/
inductive Stmt.Shape (σ : Type) where
  | assign (assignment : Assignment)
  | expr (value : Expr)
  | ifElse (test : Expr) (body : Block σ) (alternate : Option σ)
  | whileLoop (test : Expr) (body : Block σ) (orelse : Option (Block σ))
  | forLoop (isAsync : Bool) (target iterated : Expr) (body : Block σ) (orelse : Option (Block σ))
  | functionDef (definition : FunctionDef σ)
  | classDef (definition : ClassDef σ)
  | importNames (names : List Alias)
  | importFrom (level : Nat) (module : String) (names : List Alias)
  | pass
  | returnValue (value : Option Expr)
  | breakLoop
  | continueLoop
  | tryExcept (body : Block σ) (handlers : List (Handler σ)) (orelse finally_ : Option (Block σ))
  | block (body : Block σ)
  | withItems (isAsync : Bool) (items : List WithItem) (body : Block σ)
  | raise (exception cause : Option Expr)
  | assert (test : Expr) (message : Option Expr)
  | delete (targets : List Expr)
  | global (isNonlocal : Bool) (names : List String)

structure Stmt where
  line : Nat
  shape : Stmt.Shape Stmt

structure Program where
  file : String
  statements : List Stmt

end SourceAudit
