import SourceAudit.Syntax.Node
import SourceAudit.Token.Basic

open List

namespace SourceAudit

namespace Token

def named (text : String) : Token := ⟨.identifier, text, 1⟩

def keyword (word : String) : Token := ⟨.keyword, word, 1⟩

def operator (symbol : String) : Token := ⟨.operator, symbol, 1⟩

def delimiter (symbol : String) : Token := ⟨.delimiter, symbol, 1⟩

def bracketed (opening closing : String) (tokens : List Token) : List Token :=
  delimiter opening :: (tokens ++ [delimiter closing])

def separated : List (List Token) → List Token
  | [] => []
  | first :: others => first ++ others.flatMap (delimiter "," :: ·)

theorem separated_cons {α : Type} (written : α → List Token) (first : α) (others : List α)
    (more : List Token) :
    separated ((first :: others).map written) ++ more =
      written first ++ (others.flatMap (delimiter "," :: written ·) ++ more) := by
  rw [map_cons, separated, flatMap_map, append_assoc]

def tupled : List (List Token) → List Token
  | [item] => item ++ [delimiter ","]
  | items => separated items

end Token

open Token (named keyword operator delimiter bracketed separated tupled)

def UnaryOp.token : UnaryOp → Token
  | .not => keyword "not"
  | .negate => operator "-"
  | .plus => operator "+"
  | .invert => operator "~"

def BinaryOp.tokens : BinaryOp → List Token
  | .or => [keyword "or"]
  | .and => [keyword "and"]
  | .equal => [operator "=="]
  | .notEqual => [operator "!="]
  | .less => [operator "<"]
  | .greater => [operator ">"]
  | .lessEqual => [operator "<="]
  | .greaterEqual => [operator ">="]
  | .is => [keyword "is"]
  | .isNot => [keyword "is", keyword "not"]
  | .isIn => [keyword "in"]
  | .notIn => [keyword "not", keyword "in"]
  | .bitOr => [operator "|"]
  | .bitXor => [operator "^"]
  | .bitAnd => [operator "&"]
  | .shiftLeft => [operator "<<"]
  | .shiftRight => [operator ">>"]
  | .add => [operator "+"]
  | .subtract => [operator "-"]
  | .multiply => [operator "*"]
  | .divide => [operator "/"]
  | .floorDivide => [operator "//"]
  | .modulo => [operator "%"]
  | .matrixMultiply => [operator "@"]
  | .power => [operator "**"]

def ArgumentKind.tokens : ArgumentKind → List Token
  | .positional => []
  | .keyword name => [named name, operator "="]
  | .star => [operator "*"]
  | .doubleStar => [operator "**"]

def ParamKind.tokens : ParamKind → List Token
  | .normal => []
  | .variadic => [operator "*"]
  | .keywords => [operator "**"]

section

variable (part : Expr → List Token)

def Argument.tokens (arg : Argument Expr) : List Token := arg.kind.tokens ++ part arg.value

def Param.tokens (param : Param Expr) : List Token :=
  param.kind.tokens ++ named param.name :: param.fallback.toList.flatMap (operator "=" :: part ·)

def DictEntry.tokens (entry : DictEntry Expr) : List Token :=
  match entry.key with
  | none => operator "**" :: part entry.value
  | some key => part key ++ delimiter ":" :: part entry.value

@[simp] theorem DictEntry.tokens_key (key value : Expr) :
    (⟨some key, value⟩ : DictEntry Expr).tokens part = part key ++ delimiter ":" :: part value := rfl

@[simp] theorem DictEntry.tokens_unpacked (value : Expr) :
    (⟨none, value⟩ : DictEntry Expr).tokens part = operator "**" :: part value := rfl

def Generator.tokens (generator : Generator Expr) : List Token :=
  (if generator.isAsync then [keyword "async"] else []) ++
    keyword "for" :: (part generator.target ++ keyword "in" :: (part generator.iterated ++
      generator.conditions.flatMap (keyword "if" :: part ·)))

namespace Expr

def isSlice (expr : Expr) : Bool :=
  match expr.shape with
  | .slice .. => true
  | _ => false

/-- The items of an index with several ones, if there is a slice among them. -/
def slicedItems? (expr : Expr) : Option (List Expr) :=
  match expr.shape with
  | .tuple items => if items.any isSlice then some items else none
  | _ => none

def indexItem (expr : Expr) : List Token :=
  match expr.shape with
  | .slice lower upper step =>
    lower.toList.flatMap part ++ delimiter ":" :: (upper.toList.flatMap part ++
      step.toList.flatMap (delimiter ":" :: part ·))
  | _ => part expr

/-- What stands between the brackets of a subscript. Slices cannot have parentheses around them, so
    several items with a slice among them stand there without. -/
def index (expr : Expr) : List Token :=
  match expr.slicedItems? with
  | some items => tupled (items.map (indexItem part))
  | none => expr.indexItem part

def Shape.tokens : Shape Expr → List Token
  | .identifier name => [named name]
  | .int value => [⟨.integer, toString value.toNat, 1⟩]
  | .string text => [⟨.string, text, 1⟩]
  | .bool value => [⟨.boolean, if value then "True" else "False", 1⟩]
  | .none => [⟨.none, "None", 1⟩]
  | .unary op operand => op.token :: part operand
  | .binary op left right => part left ++ (op.tokens ++ part right)
  | .call function args => part function ++ bracketed "(" ")" (separated (args.map (·.tokens part)))
  | .attribute value name => part value ++ [operator ".", named name]
  | .subscript value key => part value ++ bracketed "[" "]" (key.index part)
  | .list items => bracketed "[" "]" (separated (items.map part))
  | .tuple items => tupled (items.map part)
  | .dict entries => bracketed "\x7b" "\x7d" (separated (entries.map (·.tokens part)))
  | .set items => bracketed "\x7b" "\x7d" (separated (items.map part))
  | .lambda params body =>
    keyword "lambda" :: (separated (params.map (·.tokens part)) ++ delimiter ":" :: part body)
  | .listComp element generators =>
    bracketed "[" "]" (part element ++ generators.flatMap (·.tokens part))
  | .dictComp key value generators =>
    bracketed "\x7b" "\x7d"
      (part key ++ delimiter ":" :: (part value ++ generators.flatMap (·.tokens part)))
  | .setComp element generators =>
    bracketed "\x7b" "\x7d" (part element ++ generators.flatMap (·.tokens part))
  | .generatorExp element generators => part element ++ generators.flatMap (·.tokens part)
  | .await value => keyword "await" :: part value
  | .conditional test body orelse =>
    part body ++ keyword "if" :: (part test ++ keyword "else" :: part orelse)
  | .yield value delegates =>
    keyword "yield" :: ((if delegates then [keyword "from"] else []) ++ value.toList.flatMap part)
  | .starred value => operator "*" :: part value
  | .float _ | .slice .. | .formatted _ => []

end Expr
end

namespace Expr

def isAtom (expr : Expr) : Bool :=
  match expr.shape with
  | .identifier _ | .int _ | .string _ | .bool _ | .none => true
  | _ => false

def bounds (expr : Expr) : List Expr :=
  match expr.shape with
  | .slice lower upper step => lower.toList ++ upper.toList ++ step.toList
  | _ => [expr]

def indices (expr : Expr) : List Expr :=
  match expr.slicedItems? with
  | some items => items.flatMap bounds
  | none => expr.bounds

/-- The expressions that are written as parts of an expression: all sub-expressions, and the bounds
    of slices in place of the slices. -/
def parts (expr : Expr) : List Expr :=
  match expr.shape with
  | .subscript value key => value :: key.indices
  | shape => shape.children

theorem exists_of_isSlice {expr : Expr} (slice : expr.isSlice = true) :
    ∃ line lower upper step, expr = ⟨line, .slice lower upper step⟩ := by
  obtain ⟨line, shape⟩ := expr
  unfold isSlice at slice
  split at slice
  · rename_i lower upper step same
    exact ⟨line, lower, upper, step, congrArg (Expr.mk line) same⟩
  · cases slice

theorem indexItem_of_not_slice (part : Expr → List Token) {expr : Expr} (other : expr.isSlice = false) :
    expr.indexItem part = part expr := by
  unfold isSlice at other
  unfold indexItem
  split at other
  · cases other
  · rfl

theorem bounds_of_not_slice {expr : Expr} (other : expr.isSlice = false) : expr.bounds = [expr] := by
  unfold isSlice at other
  unfold bounds
  split at other
  · cases other
  · rfl

theorem sizeOf_bounds {bound expr : Expr} (member : bound ∈ expr.bounds) :
    sizeOf bound ≤ sizeOf expr := by
  unfold bounds at member
  split at member
  · rename_i shape
    refine Nat.le_of_lt (sizeOf_child ?_)
    rw [children, shape]
    exact member
  · exact Nat.le_of_eq (congrArg sizeOf (mem_singleton.mp member))

theorem exists_of_slicedItems? {expr : Expr} {items : List Expr} (sliced : expr.slicedItems? = some items) :
    ∃ line first others, expr = ⟨line, .tuple items⟩ ∧ items = first :: others := by
  obtain ⟨line, shape⟩ := expr
  unfold slicedItems? at sliced
  split at sliced
  · rename_i found same
    split at sliced
    · rename_i some
      cases sliced
      cases items with
      | nil => simp at some
      | cons first others => exact ⟨line, first, others, congrArg (Expr.mk line) same, rfl⟩
    · cases sliced
  · cases sliced

theorem sizeOf_indices {part expr : Expr} (member : part ∈ expr.indices) :
    sizeOf part ≤ sizeOf expr := by
  unfold indices at member
  split at member
  · rename_i items sliced
    obtain ⟨line, _, _, rfl, -⟩ := exists_of_slicedItems? sliced
    obtain ⟨item, inside, bound⟩ := mem_flatMap.mp member
    have small : sizeOf item < sizeOf (⟨line, .tuple items⟩ : Expr) := sizeOf_child inside
    exact Nat.le_trans (sizeOf_bounds bound) (Nat.le_of_lt small)
  · exact sizeOf_bounds member

theorem sizeOf_written {part expr : Expr} (member : part ∈ expr.parts) :
    sizeOf part < sizeOf expr := by
  unfold parts at member
  split at member
  · rename_i value key shape
    have small : ∀ child ∈ [value, key], sizeOf child < sizeOf expr := by
      intro child inside
      exact sizeOf_child (by rw [children, shape]; exact inside)
    rcases mem_cons.mp member with rfl | inside
    · exact small _ (by simp)
    · exact Nat.lt_of_le_of_lt (sizeOf_indices inside) (small key (by simp))
  · exact sizeOf_child member

def height (expr : Expr) : Nat :=
  expr.parts.attach.foldr (fun ⟨part, _⟩ levels => max (part.height + 1) levels) 0
termination_by sizeOf expr
decreasing_by exact sizeOf_written ‹_›

theorem height_eq (expr : Expr) :
    expr.height = expr.parts.foldr (fun part levels => max (part.height + 1) levels) 0 := by
  rw [height]
  exact foldr_attach (f := fun (part : Expr) levels => max (part.height + 1) levels)

theorem height_part {part expr : Expr} (member : part ∈ expr.parts) : part.height < expr.height := by
  have bound : ∀ parts : List Expr, part ∈ parts →
      part.height < parts.foldr (fun part levels => max (part.height + 1) levels) 0 := by
    intro parts inside
    induction parts with
    | nil => cases inside
    | cons first others ih =>
      rw [foldr_cons]
      rcases mem_cons.mp inside with rfl | later
      · omega
      · have := ih later
        omega
  rw [height_eq expr]
  exact bound expr.parts member

/-- The tokens of an expression as part of another one, with at most `levels` levels of parts. -/
def written : Nat → Expr → List Token
  | 0, _ => []
  | levels + 1, expr =>
    let tokens := expr.shape.tokens (written levels)
    if expr.isAtom then tokens else bracketed "(" ")" tokens

def rendering (expr : Expr) : List Token :=
  bracketed "(" ")" (expr.shape.tokens (written expr.height))

def Shape.IsFormed : Shape Expr → Prop
  | .int value => 0 ≤ value ∧ value < 0x8000000000000000
  | .set items => items ≠ []
  | .lambda params _ =>
    ∀ param ∈ params, param.hint.isNone ∧ (param.kind ≠ .normal → param.fallback.isNone)
  | .listComp _ generators | .dictComp _ _ generators | .setComp _ generators
  | .generatorExp _ generators => generators ≠ []
  | .yield value delegates => delegates → value.isSome
  | .float _ | .slice .. | .formatted _ => False
  | _ => True

/-- The expressions that are built from names, literals without fractions and formats, operators,
    calls, attributes, subscripts, displays, comprehensions, lambdas, awaits, yields and stars. A slice
    stands only between the brackets of a subscript. -/
inductive IsPlain : Expr → Prop where
  | intro {expr : Expr} (formed : expr.shape.IsFormed) (parts : ∀ part ∈ expr.parts, part.IsPlain) :
      IsPlain expr

theorem isPlain_of_parts {expr : Expr} (formed : expr.shape.IsFormed) (levels : Nat)
    (parts : ∀ part ∈ expr.parts, part.IsPlain ∧ part.height < levels) :
    expr.IsPlain ∧ expr.height ≤ levels := by
  refine ⟨⟨formed, fun part member => (parts part member).1⟩, ?_⟩
  have bound : ∀ others : List Expr, (∀ part ∈ others, part.height < levels) →
      others.foldr (fun part levels => max (part.height + 1) levels) 0 ≤ levels := by
    intro others low
    induction others with
    | nil => exact Nat.zero_le _
    | cons first others ih =>
      have := low first (by simp)
      have := ih fun part member => low part (mem_cons_of_mem _ member)
      rw [foldr_cons]
      omega
  rw [height_eq]
  exact bound expr.parts fun part member => (parts part member).2

end Expr
end SourceAudit
