import SourceAudit.Proofs.Grammar.Rendering
import SourceAudit.Proofs.Scanner.Rows
import SourceAudit.Syntax.Stmt

open List

namespace SourceAudit

namespace Token

def isPlain (token : Token) : Bool := token.isSpelled && token.text != "(" && token.text != ")"

theorem openAfter_plain {token : Token} (plain : token.isPlain = true) (depth : Nat) :
    openAfter depth [token] = depth := by
  simp only [isPlain, Bool.and_eq_true, bne_iff_ne] at plain
  obtain ⟨⟨spelled, opening⟩, closing⟩ := plain
  change depthAfter _ depth = depth
  unfold depthAfter
  by_cases kind : token.kind = .delimiter
  · simp only [isSpelled, kind, contains_eq_mem, mem_cons, opening, closing,
      not_mem_nil, or_false, false_or, decide_eq_true_eq] at spelled
    rcases spelled with symbol | symbol <;> simp [kind, symbol]
  · rw [if_neg kind]

theorem openAfter_append (depth : Nat) (tokens others : List Token) :
    openAfter depth (tokens ++ others) = openAfter (openAfter depth tokens) others :=
  foldl_append

namespace Balanced

variable {tokens others : List Token}

theorem nil : Balanced [] := ⟨forall_mem_nil _, fun _ => rfl⟩

theorem append (first : Balanced tokens) (second : Balanced others) : Balanced (tokens ++ others) := by
  constructor
  · intro token member
    rcases mem_append.mp member with member | member
    · exact first.spelled token member
    · exact second.spelled token member
  · intro depth
    rw [openAfter_append, first.level, second.level]

theorem plain {token : Token} (plain : token.isPlain = true) : Balanced [token] := by
  refine ⟨?_, openAfter_plain plain⟩
  intro other member
  obtain rfl := mem_singleton.mp member
  simp only [isPlain, Bool.and_eq_true] at plain
  exact plain.1.1

theorem cons {token : Token} (plain : token.isPlain = true) (rest : Balanced tokens) :
    Balanced (token :: tokens) :=
  (Balanced.plain plain).append rest

theorem bracketed (inside : Balanced tokens) : Balanced (bracketed "(" ")" tokens) := by
  constructor
  · intro token member
    rcases mem_cons.mp member with rfl | member
    · rfl
    · rcases mem_append.mp member with member | member
      · exact inside.spelled token member
      · obtain rfl := mem_singleton.mp member
        rfl
  · intro depth
    rw [Token.bracketed, openAfter_cons, openAfter_append, inside.level]
    rfl

theorem separated {items : List (List Token)} (all : ∀ item ∈ items, Balanced item) :
    Balanced (separated items) := by
  cases items with
  | nil => exact nil
  | cons first others =>
    refine (all first (mem_cons_self ..)).append ?_
    induction others with
    | nil => exact nil
    | cons second others ih =>
      have later : ∀ item ∈ first :: others, Balanced item := by
        intro item member
        apply all
        rcases mem_cons.mp member with rfl | member
        · exact mem_cons_self ..
        · exact mem_cons_of_mem _ (mem_cons_of_mem _ member)
      exact .append (.cons rfl (all second (by simp))) (ih later)

end Balanced

def Phrase.heading (word : String) (known : word ∈ keywords) (inside : List Token)
    (balanced : Balanced inside) : Phrase where
  first := keyword word
  others := inside ++ [delimiter ":"]
  balanced := by
    have all : ∀ word ∈ keywords, (keyword word).isPlain = true := by decide
    exact .cons (all word known) (balanced.append (.plain rfl))

end Token

open Token

structure Identifier where
  text : String
  isWord : isWord text.toList = true
  isFree : kindOfWord text = .identifier

namespace Identifier

def token (name : Identifier) : Token := named name.text

@[simp] theorem token_eq (name : Identifier) : name.token = named name.text := rfl

def expr (name : Identifier) : Expr := ⟨1, .identifier name.text⟩

def param (name : Identifier) : Param Expr := ⟨name.text, .normal, none, none⟩

def argument (name : Identifier) : Argument Expr := ⟨.positional, name.expr⟩

theorem isPlain_token (name : Identifier) : name.token.isPlain = true := by
  have word := name.isWord
  have other : name.text ≠ "(" ∧ name.text ≠ ")" := by
    constructor <;>
    · intro same
      rw [same] at word
      cases word
  simp [isPlain, isSpelled, token, named, word, name.isFree, other]

end Identifier

/-- A context manager or a type of exceptions, and the name that is bound. -/
structure Binding where
  value : Identifier
  name : Option Identifier

namespace Binding

def tokens (binding : Binding) : List Token :=
  binding.value.token :: binding.name.toList.flatMap fun name => [keyword "as", name.token]

def item (binding : Binding) : WithItem := ⟨binding.value.expr, binding.name.map Identifier.expr⟩

theorem balanced (binding : Binding) : Balanced binding.tokens := by
  obtain ⟨value, _ | name⟩ := binding
  · exact .plain value.isPlain_token
  · exact .cons value.isPlain_token (.cons rfl (.plain name.isPlain_token))

end Binding

mutual

/-- A statement and how far each of its blocks is indented. -/
inductive Outline where
  | pass
  | bare (name : Identifier)
  | assign (target value : Identifier)
  | ifElse (test : Identifier) (body : Indented) (others : List (Identifier × Indented))
      (orelse : Option Indented)
  | whileLoop (test : Identifier) (body : Indented) (orelse : Option Indented)
  | forLoop (target iterated : Identifier) (body : Indented) (orelse : Option Indented)
  | functionDef (name : Identifier) (params : List Identifier) (body : Indented)
  | classDef (name : Identifier) (bases : List Identifier) (body : Indented)
  | withItems (first : Binding) (others : List Binding) (body : Indented)
  | tryExcept (body : Indented) (caught : Option Binding) (handler : Indented)
      (others : List (Option Binding × Indented)) (orelse last : Option Indented)
  | tryFinally (body : Indented) (orelse : Option Indented) (last : Indented)

/-- The statements of a block, which have `extra + 1` more blanks before them than its header. -/
inductive Indented where
  | mk (extra : Nat) (first : Outline) (others : List Outline)

end

namespace Outline

def passLine : Phrase := ⟨keyword "pass", [], .plain (by decide)⟩

def nameLine (name : Identifier) : Phrase := ⟨name.token, [], .plain name.isPlain_token⟩

def assignLine (target value : Identifier) : Phrase where
  first := target.token
  others := [operator "=", value.token]
  balanced := .cons target.isPlain_token (.cons rfl (.plain value.isPlain_token))

def elseLine : Phrase := .heading "else" (by decide) [] .nil

def tryLine : Phrase := .heading "try" (by decide) [] .nil

def finallyLine : Phrase := .heading "finally" (by decide) [] .nil

def testLine (word : String) (known : word ∈ keywords) (test : Identifier) : Phrase :=
  .heading word known [test.token] (.plain test.isPlain_token)

def forLine (target iterated : Identifier) : Phrase :=
  .heading "for" (by decide) [target.token, keyword "in", iterated.token]
    (.cons target.isPlain_token (.cons (by decide) (.plain iterated.isPlain_token)))

def listed (names : List Identifier) : List Token :=
  bracketed "(" ")" (separated (names.map fun name => [name.token]))

theorem balanced_listed (names : List Identifier) : Balanced (listed names) := by
  apply Balanced.bracketed
  apply Balanced.separated
  intro item member
  obtain ⟨name, -, rfl⟩ := mem_map.mp member
  exact .plain name.isPlain_token

def functionLine (name : Identifier) (params : List Identifier) : Phrase :=
  .heading "def" (by decide) (name.token :: listed params)
    (.cons name.isPlain_token (balanced_listed params))

def classLine (name : Identifier) (bases : List Identifier) : Phrase :=
  .heading "class" (by decide) (name.token :: if bases = [] then [] else listed bases)
    (.cons name.isPlain_token (by split; exacts [.nil, balanced_listed bases]))

def withLine (bindings : List Binding) : Phrase :=
  .heading "with" (by decide) (separated (bindings.map Binding.tokens)) (.separated (by
    intro item member
    obtain ⟨binding, -, rfl⟩ := mem_map.mp member
    exact binding.balanced))

def caughtBy (caught : Option Binding) (body : Block Stmt) : Handler Stmt :=
  ⟨1, caught.map (·.value.expr), caught.bind fun binding => binding.name.map (·.text), body⟩

def exceptLine (caught : Option Binding) : Phrase :=
  .heading "except" (by decide) (caught.toList.flatMap Binding.tokens) (by
    cases caught with
    | none => exact .nil
    | some binding =>
      rw [Option.toList_some, flatMap_singleton]
      exact binding.balanced)

mutual

def rows : Outline → List Row
  | pass => [.mk passLine 0 []]
  | bare name => [.mk (nameLine name) 0 []]
  | assign target value => [.mk (assignLine target value) 0 []]
  | ifElse test body others orelse =>
    headed (testLine "if" (by decide) test) body :: (elifRows others ++ optionalRow elseLine orelse)
  | whileLoop test body orelse =>
    headed (testLine "while" (by decide) test) body :: optionalRow elseLine orelse
  | forLoop target iterated body orelse =>
    headed (forLine target iterated) body :: optionalRow elseLine orelse
  | functionDef name params body => [headed (functionLine name params) body]
  | classDef name bases body => [headed (classLine name bases) body]
  | withItems first others body => [headed (withLine (first :: others)) body]
  | tryExcept body caught handler others orelse last =>
    headed tryLine body :: headed (exceptLine caught) handler ::
      (handlerRows others ++ (optionalRow elseLine orelse ++ optionalRow finallyLine last))
  | tryFinally body orelse last =>
    headed tryLine body :: (optionalRow elseLine orelse ++ [headed finallyLine last])

def headed (phrase : Phrase) : Indented → Row
  | .mk extra first others => .mk phrase extra (first.rows ++ allRows others)

def allRows : List Outline → List Row
  | [] => []
  | outline :: outlines => outline.rows ++ allRows outlines

def elifRows : List (Identifier × Indented) → List Row
  | [] => []
  | (test, body) :: others => headed (testLine "elif" (by decide) test) body :: elifRows others

def handlerRows : List (Option Binding × Indented) → List Row
  | [] => []
  | (caught, body) :: others => headed (exceptLine caught) body :: handlerRows others

def optionalRow (phrase : Phrase) : Option Indented → List Row
  | none => []
  | some body => [headed phrase body]

end

mutual

def statement : Outline → Stmt
  | pass => ⟨1, .pass⟩
  | bare name => ⟨1, .expr name.expr⟩
  | assign target value => ⟨1, .assign ⟨[target.expr], some value.expr, none, none⟩⟩
  | ifElse test body others orelse =>
    ⟨1, .ifElse test.expr (block body) (alternate others (optionalBlock orelse))⟩
  | whileLoop test body orelse => ⟨1, .whileLoop test.expr (block body) (optionalBlock orelse)⟩
  | forLoop target iterated body orelse =>
    ⟨1, .forLoop false target.expr iterated.expr (block body) (optionalBlock orelse)⟩
  | functionDef name params body =>
    ⟨1, .functionDef ⟨name.text, params.map Identifier.param, none, block body, [], false⟩⟩
  | classDef name bases body =>
    ⟨1, .classDef ⟨name.text, bases.map Identifier.argument, block body, []⟩⟩
  | withItems first others body => ⟨1, .withItems false ((first :: others).map Binding.item) (block body)⟩
  | tryExcept body caught handler others orelse last =>
    ⟨1, .tryExcept (block body) (caughtBy caught (block handler) :: handlers others)
      (optionalBlock orelse) (optionalBlock last)⟩
  | tryFinally body orelse last =>
    ⟨1, .tryExcept (block body) [] (optionalBlock orelse) (some (block last))⟩

def block : Indented → Block Stmt
  | .mk _ first others => ⟨1, first.statement :: statements others⟩

def statements : List Outline → List Stmt
  | [] => []
  | outline :: outlines => outline.statement :: statements outlines

def alternate : List (Identifier × Indented) → Option (Block Stmt) → Option Stmt
  | [], last => last.map fun body => ⟨1, .block body⟩
  | (test, body) :: others, last => some ⟨1, .ifElse test.expr (block body) (alternate others last)⟩

def handlers : List (Option Binding × Indented) → List (Handler Stmt)
  | [] => []
  | (caught, body) :: others => caughtBy caught (block body) :: handlers others

def optionalBlock : Option Indented → Option (Block Stmt)
  | none => none
  | some body => some (block body)

end

def bodies : Outline → List Indented
  | pass | bare _ | assign _ _ => []
  | ifElse _ body others orelse => body :: (others.map Prod.snd ++ orelse.toList)
  | whileLoop _ body orelse | forLoop _ _ body orelse => body :: orelse.toList
  | functionDef _ _ body | classDef _ _ body | withItems _ _ body => [body]
  | tryExcept body _ handler others orelse last =>
    body :: handler :: (others.map Prod.snd ++ (orelse.toList ++ last.toList))
  | tryFinally body orelse last => body :: (orelse.toList ++ [last])

end Outline

def Indented.outlines : Indented → List Outline
  | mk _ first others => first :: others

namespace Outline

def isWithin : Nat → Outline → Bool
  | 0, outline => outline.bodies.isEmpty
  | levels + 1, outline => outline.bodies.all fun body => body.outlines.all (isWithin levels)

def source (outlines : List Outline) : String := String.ofList (Row.texts 0 (allRows outlines))

end Outline
end SourceAudit
