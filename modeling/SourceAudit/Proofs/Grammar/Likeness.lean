import Mathlib.Data.List.Forall2
import SourceAudit.Grammar.Error
import SourceAudit.Syntax.Stmt

namespace SourceAudit

structure Token.Alike (lines : Nat → Nat → Prop) (token other : Token) : Prop where
  kind : token.kind = other.kind
  text : token.text = other.text
  line : lines token.line other.line

theorem Token.Alike.describe {lines : Nat → Nat → Prop} {token other : Token}
    (alike : token.Alike lines other) : token.describe = other.describe := by
  unfold Token.describe
  rw [alike.kind, alike.text]

theorem Token.Alike.mono {lines loose : Nat → Nat → Prop} {token other : Token}
    (weaken : ∀ {m n : Nat}, lines m n → loose m n) (alike : token.Alike lines other) :
    token.Alike loose other :=
  ⟨alike.kind, alike.text, weaken alike.line⟩

namespace SyntaxError

inductive Cause.Alike (lines : Nat → Nat → Prop) : Cause → Cause → Prop where
  | expected (what : Expected) {found other : Token} (alike : Token.Alike lines found other) :
      Alike lines (.expected what found) (.expected what other)
  | same (cause : Cause) (plain : ∀ what found, cause ≠ .expected what found) :
      Alike lines cause cause

structure Alike (lines : Nat → Nat → Prop) (error other : SyntaxError) : Prop where
  line : lines error.line other.line
  cause : Cause.Alike lines error.cause other.cause

theorem Alike.mono {lines loose : Nat → Nat → Prop} {error other : SyntaxError}
    (weaken : ∀ {m n : Nat}, lines m n → loose m n) (alike : error.Alike lines other) :
    error.Alike loose other := by
  obtain ⟨line, causes⟩ := alike
  refine ⟨weaken line, ?_⟩
  generalize error.cause = cause at causes
  generalize other.cause = cause' at causes
  cases causes with
  | expected what found => exact .expected what (found.mono weaken)
  | same _ plain => exact .same _ plain

theorem Cause.Alike.message {lines : Nat → Nat → Prop} {cause other : Cause}
    (alike : Cause.Alike lines cause other) : cause.message = other.message := by
  cases alike with
  | same => rfl
  | expected what found =>
    exact congrArg ("expected " ++ what.describe ++ ", found " ++ ·) found.describe

theorem messages_alike {lines : Nat → Nat → Prop} {errors others : List SyntaxError}
    (alike : List.Forall₂ (Alike lines) errors others) : others.map message = errors.map message := by
  induction alike with
  | nil => rfl
  | cons first _ ih => rw [List.map_cons, List.map_cons, ih, message, message, first.cause.message]

end SyntaxError

section

variable {ε : Type} (R : ε → ε → Prop)

inductive Argument.Alike : Argument ε → Argument ε → Prop where
  | intro (kind : ArgumentKind) {a b : ε} (value : R a b) : Alike ⟨kind, a⟩ ⟨kind, b⟩

inductive Param.Alike : Param ε → Param ε → Prop where
  | intro (name : String) (kind : ParamKind) {a b c d : Option ε} (hint : Option.Rel R a b)
      (fallback : Option.Rel R c d) : Alike ⟨name, kind, a, c⟩ ⟨name, kind, b, d⟩

inductive DictEntry.Alike : DictEntry ε → DictEntry ε → Prop where
  | intro {a b : Option ε} {c d : ε} (key : Option.Rel R a b) (value : R c d) : Alike ⟨a, c⟩ ⟨b, d⟩

inductive Generator.Alike : Generator ε → Generator ε → Prop where
  | intro {a b c d : ε} {e f : List ε} (isAsync : Bool) (target : R a b) (iterated : R c d)
      (conditions : List.Forall₂ R e f) : Alike ⟨a, c, e, isAsync⟩ ⟨b, d, f, isAsync⟩

inductive FormattedPart.Alike : FormattedPart ε → FormattedPart ε → Prop where
  | literal (text : String) : Alike (.literal text) (.literal text)
  | value {expr other : ε} (alike : R expr other) : Alike (.value expr) (.value other)

namespace Expr

inductive Shape.Alike : Shape ε → Shape ε → Prop where
  | identifier (name : String) : Alike (.identifier name) (.identifier name)
  | int (value : Int) : Alike (.int value) (.int value)
  | float (value : Binary64) : Alike (.float value) (.float value)
  | string (text : String) : Alike (.string text) (.string text)
  | bool (value : Bool) : Alike (.bool value) (.bool value)
  | none : Alike .none .none
  | unary (op : UnaryOp) {a b : ε} (operand : R a b) : Alike (.unary op a) (.unary op b)
  | binary (op : BinaryOp) {a b c d : ε} (left : R a b) (right : R c d) :
      Alike (.binary op a c) (.binary op b d)
  | call {a b : ε} {args others : List (Argument ε)} (function : R a b)
      (arguments : List.Forall₂ (Argument.Alike R) args others) : Alike (.call a args) (.call b others)
  | attribute {a b : ε} (value : R a b) (name : String) : Alike (.attribute a name) (.attribute b name)
  | subscript {a b c d : ε} (value : R a b) (index : R c d) : Alike (.subscript a c) (.subscript b d)
  | slice {a b c d e f : Option ε} (lower : Option.Rel R a b) (upper : Option.Rel R c d)
      (step : Option.Rel R e f) : Alike (.slice a c e) (.slice b d f)
  | list {a b : List ε} (items : List.Forall₂ R a b) : Alike (.list a) (.list b)
  | tuple {a b : List ε} (items : List.Forall₂ R a b) : Alike (.tuple a) (.tuple b)
  | dict {a b : List (DictEntry ε)} (entries : List.Forall₂ (DictEntry.Alike R) a b) :
      Alike (.dict a) (.dict b)
  | set {a b : List ε} (items : List.Forall₂ R a b) : Alike (.set a) (.set b)
  | lambda {a b : List (Param ε)} {c d : ε} (params : List.Forall₂ (Param.Alike R) a b)
      (body : R c d) : Alike (.lambda a c) (.lambda b d)
  | listComp {a b : ε} {c d : List (Generator ε)} (element : R a b)
      (generators : List.Forall₂ (Generator.Alike R) c d) : Alike (.listComp a c) (.listComp b d)
  | dictComp {a b c d : ε} {e f : List (Generator ε)} (key : R a b) (value : R c d)
      (generators : List.Forall₂ (Generator.Alike R) e f) : Alike (.dictComp a c e) (.dictComp b d f)
  | setComp {a b : ε} {c d : List (Generator ε)} (element : R a b)
      (generators : List.Forall₂ (Generator.Alike R) c d) : Alike (.setComp a c) (.setComp b d)
  | generatorExp {a b : ε} {c d : List (Generator ε)} (element : R a b)
      (generators : List.Forall₂ (Generator.Alike R) c d) :
      Alike (.generatorExp a c) (.generatorExp b d)
  | await {a b : ε} (value : R a b) : Alike (.await a) (.await b)
  | formatted {a b : List (FormattedPart ε)} (parts : List.Forall₂ (FormattedPart.Alike R) a b) :
      Alike (.formatted a) (.formatted b)
  | conditional {a b c d e f : ε} (test : R a b) (body : R c d) (orelse : R e f) :
      Alike (.conditional a c e) (.conditional b d f)
  | yield {a b : Option ε} (value : Option.Rel R a b) (delegates : Bool) :
      Alike (.yield a delegates) (.yield b delegates)
  | starred {a b : ε} (value : R a b) : Alike (.starred a) (.starred b)

end Expr
end

/-- The same expression but for its line numbers, at every depth. -/
inductive Expr.Alike (lines : Nat → Nat → Prop) : Expr → Expr → Prop where
  | intro {a b : Nat} {s t : Expr.Shape Expr} (line : lines a b)
      (shape : Expr.Shape.Alike (Expr.Alike lines) s t) : Expr.Alike lines ⟨a, s⟩ ⟨b, t⟩

section

variable (lines : Nat → Nat → Prop) (R : Expr → Expr → Prop) {σ : Type} (S : σ → σ → Prop)

inductive Assignment.Alike : Assignment → Assignment → Prop where
  | intro (augmented : Option BinaryOp) {a b : List Expr} {c d e f : Option Expr}
      (targets : List.Forall₂ R a b) (value : Option.Rel R c d) (hint : Option.Rel R e f) :
      Alike ⟨a, c, e, augmented⟩ ⟨b, d, f, augmented⟩

inductive WithItem.Alike : WithItem → WithItem → Prop where
  | intro {a b : Expr} {c d : Option Expr} (context : R a b) (target : Option.Rel R c d) :
      Alike ⟨a, c⟩ ⟨b, d⟩

inductive Block.Alike : Block σ → Block σ → Prop where
  | intro {m n : Nat} {a b : List σ} (line : lines m n) (statements : List.Forall₂ S a b) :
      Alike ⟨m, a⟩ ⟨n, b⟩

inductive Handler.Alike : Handler σ → Handler σ → Prop where
  | intro (name : Option String) {m n : Nat} {a b : Option Expr} {c d : Block σ} (line : lines m n)
      (caught : Option.Rel R a b) (body : Block.Alike lines S c d) :
      Alike ⟨m, a, name, c⟩ ⟨n, b, name, d⟩

inductive FunctionDef.Alike : FunctionDef σ → FunctionDef σ → Prop where
  | intro (name : String) (isAsync : Bool) {a b : List (Param Expr)} {c d : Option Expr}
      {e f : Block σ} {g h : List Expr} (params : List.Forall₂ (Param.Alike R) a b)
      (returns : Option.Rel R c d) (body : Block.Alike lines S e f)
      (decorators : List.Forall₂ R g h) : Alike ⟨name, a, c, e, g, isAsync⟩ ⟨name, b, d, f, h, isAsync⟩

inductive ClassDef.Alike : ClassDef σ → ClassDef σ → Prop where
  | intro (name : String) {a b : List (Argument Expr)} {c d : Block σ} {e f : List Expr}
      (bases : List.Forall₂ (Argument.Alike R) a b) (body : Block.Alike lines S c d)
      (decorators : List.Forall₂ R e f) : Alike ⟨name, a, c, e⟩ ⟨name, b, d, f⟩

inductive Stmt.Shape.Alike : Stmt.Shape σ → Stmt.Shape σ → Prop where
  | assign {a b : Assignment} (assignment : Assignment.Alike R a b) : Alike (.assign a) (.assign b)
  | expr {a b : Expr} (value : R a b) : Alike (.expr a) (.expr b)
  | ifElse {a b : Expr} {c d : Block σ} {e f : Option σ} (test : R a b)
      (body : Block.Alike lines S c d) (alternate : Option.Rel S e f) :
      Alike (.ifElse a c e) (.ifElse b d f)
  | whileLoop {a b : Expr} {c d : Block σ} {e f : Option (Block σ)} (test : R a b)
      (body : Block.Alike lines S c d) (orelse : Option.Rel (Block.Alike lines S) e f) :
      Alike (.whileLoop a c e) (.whileLoop b d f)
  | forLoop (isAsync : Bool) {a b c d : Expr} {e f : Block σ} {g h : Option (Block σ)}
      (target : R a b) (iterated : R c d) (body : Block.Alike lines S e f)
      (orelse : Option.Rel (Block.Alike lines S) g h) :
      Alike (.forLoop isAsync a c e g) (.forLoop isAsync b d f h)
  | functionDef {a b : FunctionDef σ} (definition : FunctionDef.Alike lines R S a b) :
      Alike (.functionDef a) (.functionDef b)
  | classDef {a b : ClassDef σ} (definition : ClassDef.Alike lines R S a b) :
      Alike (.classDef a) (.classDef b)
  | importNames (names : List Alias) : Alike (.importNames names) (.importNames names)
  | importFrom (level : Nat) (module : String) (names : List Alias) :
      Alike (.importFrom level module names) (.importFrom level module names)
  | pass : Alike .pass .pass
  | returnValue {a b : Option Expr} (value : Option.Rel R a b) :
      Alike (.returnValue a) (.returnValue b)
  | breakLoop : Alike .breakLoop .breakLoop
  | continueLoop : Alike .continueLoop .continueLoop
  | tryExcept {a b : Block σ} {c d : List (Handler σ)} {e f g h : Option (Block σ)}
      (body : Block.Alike lines S a b) (handlers : List.Forall₂ (Handler.Alike lines R S) c d)
      (orelse : Option.Rel (Block.Alike lines S) e f)
      (last : Option.Rel (Block.Alike lines S) g h) :
      Alike (.tryExcept a c e g) (.tryExcept b d f h)
  | block {a b : Block σ} (body : Block.Alike lines S a b) : Alike (.block a) (.block b)
  | withItems (isAsync : Bool) {a b : List WithItem} {c d : Block σ}
      (items : List.Forall₂ (WithItem.Alike R) a b) (body : Block.Alike lines S c d) :
      Alike (.withItems isAsync a c) (.withItems isAsync b d)
  | raise {a b c d : Option Expr} (exception : Option.Rel R a b) (cause : Option.Rel R c d) :
      Alike (.raise a c) (.raise b d)
  | assert {a b : Expr} {c d : Option Expr} (test : R a b) (message : Option.Rel R c d) :
      Alike (.assert a c) (.assert b d)
  | delete {a b : List Expr} (targets : List.Forall₂ R a b) : Alike (.delete a) (.delete b)
  | global (isNonlocal : Bool) (names : List String) :
      Alike (.global isNonlocal names) (.global isNonlocal names)

end

/-- The same statement but for its line numbers, at every depth. -/
inductive Stmt.Alike (lines : Nat → Nat → Prop) : Stmt → Stmt → Prop where
  | intro {a b : Nat} {s t : Stmt.Shape Stmt} (line : lines a b)
      (shape : Stmt.Shape.Alike lines (Expr.Alike lines) (Stmt.Alike lines) s t) :
      Stmt.Alike lines ⟨a, s⟩ ⟨b, t⟩

/-- Relations between the lines, the expressions and the statements of two readings. Two nodes are
    related when their lines and what they consist of are; `later` lets lines move on together. The
    lines of errors may be related more loosely. -/
structure Likeness where
  line : Nat → Nat → Prop
  error : Nat → Nat → Prop
  expr : Expr → Expr → Prop
  stmt : Stmt → Stmt → Prop
  error_of_line : ∀ {m n : Nat}, line m n → error m n
  later : ∀ {m n : Nat} (breaks : Nat), line m n →
    line (Token.lineAfter m breaks) (Token.lineAfter n breaks)
  expr_intro : ∀ {m n : Nat} {s t : Expr.Shape Expr}, line m n → Expr.Shape.Alike expr s t →
    expr ⟨m, s⟩ ⟨n, t⟩
  expr_elim : ∀ {a b : Expr}, expr a b → line a.line b.line ∧ Expr.Shape.Alike expr a.shape b.shape
  stmt_intro : ∀ {m n : Nat} {s t : Stmt.Shape Stmt}, line m n → Stmt.Shape.Alike line expr stmt s t →
    stmt ⟨m, s⟩ ⟨n, t⟩

namespace Likeness

def ofLines (lines : Nat → Nat → Prop)
    (later : ∀ {m n : Nat} (breaks : Nat), lines m n →
      lines (Token.lineAfter m breaks) (Token.lineAfter n breaks)) : Likeness where
  line := lines
  error := lines
  expr := Expr.Alike lines
  stmt := Stmt.Alike lines
  error_of_line := id
  later := later
  expr_intro := .intro
  expr_elim := by
    rintro _ _ ⟨line, shape⟩
    exact ⟨line, shape⟩
  stmt_intro := .intro

variable (like : Likeness)

abbrev body : Block Stmt → Block Stmt → Prop := Block.Alike like.line like.stmt

abbrev shape : Stmt.Shape Stmt → Stmt.Shape Stmt → Prop := Stmt.Shape.Alike like.line like.expr like.stmt

end Likeness

section

variable {ε σ : Type}

theorem eq_of_refl {α : Type} {R : α → α → Prop} (same : ∀ {a b}, R a b → a = b) (refl : ∀ a, R a a) : R = Eq := by
  funext a b
  refine propext ⟨same, ?_⟩
  rintro rfl
  exact refl a

@[simp] theorem optionRel_eq {α : Type} : (Option.Rel Eq : Option α → Option α → Prop) = Eq := by
  refine eq_of_refl ?_ fun a => ?_
  · rintro _ _ (rfl | _) <;> rfl
  · cases a with
    | none => exact .none
    | some => exact .some rfl

@[simp] theorem Argument.alike_eq : (Argument.Alike Eq : Argument ε → Argument ε → Prop) = Eq := by
  refine eq_of_refl ?_ fun a => .intro _ rfl
  rintro _ _ ⟨kind, rfl⟩
  rfl

@[simp] theorem Param.alike_eq : (Param.Alike Eq : Param ε → Param ε → Prop) = Eq := by
  refine eq_of_refl ?_ fun a => .intro _ _ (by simp) (by simp)
  rintro _ _ ⟨name, kind, hint, fallback⟩
  simp_all

@[simp] theorem DictEntry.alike_eq : (DictEntry.Alike Eq : DictEntry ε → DictEntry ε → Prop) = Eq := by
  refine eq_of_refl ?_ fun a => .intro (by simp) rfl
  rintro _ _ ⟨key, rfl⟩
  simp_all

@[simp] theorem Generator.alike_eq : (Generator.Alike Eq : Generator ε → Generator ε → Prop) = Eq := by
  refine eq_of_refl ?_ fun a => .intro _ rfl rfl (by simp)
  rintro _ _ ⟨isAsync, rfl, rfl, conditions⟩
  simp_all

@[simp] theorem FormattedPart.alike_eq : (FormattedPart.Alike Eq : FormattedPart ε → FormattedPart ε → Prop) = Eq := by
  refine eq_of_refl ?_ fun a => ?_
  · rintro _ _ (_ | rfl) <;> rfl
  · cases a with
    | literal => exact .literal _
    | value => exact .value rfl

@[simp] theorem Expr.Shape.alike_eq : (Expr.Shape.Alike Eq : Expr.Shape ε → Expr.Shape ε → Prop) = Eq := by
  refine eq_of_refl (fun alike => ?_) fun a => ?_
  · cases alike <;> simp_all
  · cases a <;> constructor <;> simp

@[simp] theorem Assignment.alike_eq : Assignment.Alike Eq = Eq := by
  refine eq_of_refl ?_ fun a => .intro _ (by simp) (by simp) (by simp)
  rintro _ _ ⟨augmented, targets, value, hint⟩
  simp_all

@[simp] theorem WithItem.alike_eq : WithItem.Alike Eq = Eq := by
  refine eq_of_refl ?_ fun a => .intro rfl (by simp)
  rintro _ _ ⟨rfl, target⟩
  simp_all

@[simp] theorem Block.alike_eq : (Block.Alike Eq Eq : Block σ → Block σ → Prop) = Eq := by
  refine eq_of_refl ?_ fun a => .intro rfl (by simp)
  rintro _ _ ⟨rfl, statements⟩
  simp_all

@[simp] theorem Handler.alike_eq : (Handler.Alike Eq Eq Eq : Handler σ → Handler σ → Prop) = Eq := by
  refine eq_of_refl ?_ fun a => .intro _ rfl (by simp) (by simp)
  rintro _ _ ⟨name, rfl, caught, body⟩
  simp_all

@[simp] theorem FunctionDef.alike_eq : (FunctionDef.Alike Eq Eq Eq : FunctionDef σ → FunctionDef σ → Prop) = Eq := by
  refine eq_of_refl ?_ fun a => .intro _ _ (by simp) (by simp) (by simp) (by simp)
  rintro _ _ ⟨name, isAsync, params, returns, body, decorators⟩
  simp_all

@[simp] theorem ClassDef.alike_eq : (ClassDef.Alike Eq Eq Eq : ClassDef σ → ClassDef σ → Prop) = Eq := by
  refine eq_of_refl ?_ fun a => .intro _ (by simp) (by simp) (by simp)
  rintro _ _ ⟨name, bases, body, decorators⟩
  simp_all

theorem Stmt.Shape.eq_of_alike {s t : Stmt.Shape σ} (alike : Stmt.Shape.Alike Eq Eq Eq s t) :
    s = t := by
  cases alike <;> simp_all

end

def Likeness.same : Likeness where
  line := Eq
  error _ _ := True
  expr := Eq
  stmt := Eq
  error_of_line _ := trivial
  later := by
    rintro _ _ _ rfl
    rfl
  expr_intro := by
    intro m n s t line shape
    rw [Expr.Shape.alike_eq] at shape
    rw [line, shape]
  expr_elim := by
    rintro a b rfl
    rw [Expr.Shape.alike_eq]
    exact ⟨rfl, rfl⟩
  stmt_intro := by
    intro m n s t line shape
    rw [line, Stmt.Shape.eq_of_alike shape]

end SourceAudit
