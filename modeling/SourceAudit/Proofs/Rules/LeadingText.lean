import Mathlib.Data.List.TakeWhile
import SourceAudit.Proofs.Rules.Constants

open List

namespace SourceAudit

def FormattedPart.map {α β : Type} (f : α → β) : FormattedPart α → FormattedPart β
  | .literal text => .literal text
  | .value expr => .value (f expr)

/-- A value, as far as building strings tells values apart: how it is shown, and the items it has. -/
inductive Runtime where
  | string (text : String)
  | tuple (shown : String) (items : List String)
  | other (shown : String) (items : List String)

namespace Runtime

def isString : Runtime → Bool
  | string _ => true
  | _ => false

def shown : Runtime → String
  | string text => text
  | tuple shown _ | other shown _ => shown

def items : Runtime → List String
  | string text => text.toList.map String.singleton
  | tuple _ items | other _ items => items

def operands : Runtime → List String
  | tuple _ items => items
  | value => [value.shown]

/-- A template with the next value in place of each mark of two characters, and the values that are left. It fails
    if there are too few. -/
def fill (first second : Char) : List Char → List String → Option (List Char × List String)
  | a :: b :: rest, values =>
    if a = first ∧ b = second then
      values.head?.bind fun value => (fill first second rest values.tail).map (Prod.map (value.toList ++ ·) id)
    else (fill first second (b :: rest) values).map (Prod.map (a :: ·) id)
  | [a], values => some ([a], values)
  | [], values => some ([], values)

/-- What building strings leaves open: how literals and displays are shown, and the results of all other
    operations. -/
structure Rules where
  literal : Expr.Shape Expr → String
  display : List Runtime → String
  operate : BinaryOp → Runtime → Runtime → Option Runtime

variable (rules : Rules)

/-- `+` joins two strings, and `%` fills the directives `%s` of a string with as many values. No other operands of
    these give a string. -/
def combine : BinaryOp → Runtime → Runtime → Option Runtime
  | .add, .string left, .string right => some (.string (left ++ right))
  | .modulo, .string template, value =>
    (fill '%' 's' template.toList value.operands).bind fun filled =>
      if filled.2 = [] then some (.string (String.ofList filled.1)) else none
  | .add, left, right => (rules.operate .add left right).filter (!·.isString)
  | .modulo, left, right => (rules.operate .modulo left right).filter (!·.isString)
  | op, left, right => rules.operate op left right

def partText? : FormattedPart (Option Runtime) → Option String
  | .literal text => some text
  | .value value => value.map shown

def passed? (arg : Argument (Option Runtime)) : Option (List String) :=
  arg.value.map fun value =>
    match arg.kind with
    | .positional => [value.shown]
    | .star => value.items
    | _ => []

def format? : Runtime → List (Argument (Option Runtime)) → Option Runtime
  | .string template, args => do
    let values ← args.mapM passed?
    let filled ← fill '\x7b' '\x7d' template.toList values.flatten
    return .string (String.ofList filled.1)
  | _, _ => none

/-- The meaning of the expressions that build strings. An expression without a value has none. -/
def building : Meaning (Option Runtime) where
  literal
    | .string text => some (.string text)
    | shape => some (.other (rules.literal shape) [])
  binary op left right := left.bind fun left => right.bind (combine rules op left)
  tuple items := (items.mapM fun item => item).map fun items => .tuple (rules.display items) (items.map shown)
  list items := (items.mapM fun item => item).map fun items => .other (rules.display items) (items.map shown)
  formatted parts := (parts.mapM partText?).map fun texts => .string (String.join texts)
  format object args := object.bind (format? · args)

end Runtime

namespace Expr

/-- A constant into which nothing is filled. -/
inductive IsWhole : Expr → Prop where
  | literal {expr : Expr} (literal : expr.isLiteral = true) : IsWhole expr
  | formatted (line : Nat) {parts : List (FormattedPart Expr)} (plain : parts.all isLiteralPart = true) :
      IsWhole ⟨line, .formatted parts⟩
  | add (line : Nat) {left right : Expr} (first : IsWhole left) (second : IsWhole right) :
      IsWhole ⟨line, .binary .add left right⟩
  | modulo (line : Nat) {left right : Expr} (first : IsWhole left) (plain : '%' ∉ left.leadingText.toList)
      (silent : right.leadingText = "") : IsWhole ⟨line, .binary .modulo left right⟩
  | format (line place : Nat) {object : Expr} (args : List (Argument Expr)) (whole : IsWhole object)
      (plain : '\x7b' ∉ object.leadingText.toList) : IsWhole ⟨line, .call ⟨place, .attribute object "format"⟩ args⟩

/-- An expression whose leading text can be relied on: no directive of `%` stands in it, and text is added only behind
    a constant into which nothing is filled. -/
inductive Leads : Expr → Prop where
  | silent {expr : Expr} (none : expr.leadingText = "") : Leads expr
  | string (line : Nat) (text : String) : Leads ⟨line, .string text⟩
  | formatted (line : Nat) (parts : List (FormattedPart Expr)) : Leads ⟨line, .formatted parts⟩
  | add (line : Nat) {left right : Expr} (first : Leads left)
      (whole : left.isConstant = true → left.IsWhole) (second : left.isConstant = true → Leads right) :
      Leads ⟨line, .binary .add left right⟩
  | modulo (line : Nat) {left right : Expr} (first : Leads left) (plain : '%' ∉ left.leadingText.toList)
      (silent : left.isConstant = true → right.leadingText = "") : Leads ⟨line, .binary .modulo left right⟩
  | format (line place : Nat) {object : Expr} (args : List (Argument Expr)) (first : Leads object) :
      Leads ⟨line, .call ⟨place, .attribute object "format"⟩ args⟩

theorem isFormat_format (place : Nat) (object : Expr) (args : List (Argument Expr)) :
    (Call.mk ⟨place, .attribute object "format"⟩ args).isFormat = true := by
  simp [Call.isFormat, Call.methodName]

theorem leadingText_binary (line : Nat) (op : BinaryOp) (left right : Expr) :
    leadingText ⟨line, .binary op left right⟩ =
      if left.isConstant then left.leadingText ++ right.leadingText else left.leadingText := by
  rw [leadingText]

theorem leadingText_formatted (line : Nat) (parts : List (FormattedPart Expr)) :
    leadingText ⟨line, .formatted parts⟩ =
      String.join ((parts.takeWhile isLiteralPart).map FormattedPart.literalText) := by
  rw [leadingText]

theorem leadingText_format (line place : Nat) (object : Expr) (args : List (Argument Expr)) :
    (leadingText ⟨line, .call ⟨place, .attribute object "format"⟩ args⟩).toList =
      object.leadingText.toList.takeWhile (· != '\x7b') := by
  rw [leadingText]
  dsimp only
  rw [if_pos (isFormat_format place object args), String.toList_ofList]

end Expr

namespace Runtime

variable {rules : Rules} {env : String → Option Runtime} {other : Expr → Option Runtime}

theorem fill_append {first : Char} {front : List Char} (plain : first ∉ front) (second : Char) (rest : List Char)
    (values : List String) :
    fill first second (front ++ rest) values =
      (fill first second rest values).map (Prod.map (front ++ ·) id) := by
  induction front with
  | nil =>
    have same : Prod.map (fun text : List Char => [] ++ text) (id : List String → List String) = id := rfl
    rw [nil_append, same, Option.map_id, id]
  | cons a front ih =>
    simp only [mem_cons, not_or] at plain
    have onward := ih plain.2
    rw [cons_append]
    cases behind : front ++ rest with
    | nil =>
      obtain ⟨rfl, rfl⟩ := append_eq_nil_iff.mp behind
      simp [fill]
    | cons b others =>
      have apart : ¬ (a = first ∧ b = second) := fun mark => plain.1 mark.1.symm
      rw [fill, if_neg apart, ← behind, onward, Option.map_map]
      rfl

theorem prefix_of_fill {first second : Char} {front template text : List Char} {values left : List String}
    (plain : first ∉ front) (starts : front <+: template)
    (filled : fill first second template values = some (text, left)) : front <+: text := by
  obtain ⟨rest, rfl⟩ := starts
  rw [fill_append plain] at filled
  obtain ⟨⟨behind, _⟩, _, same⟩ := Option.map_eq_some_iff.mp filled
  cases same
  exact prefix_append front behind

theorem fill_plain {first : Char} {front : List Char} (plain : first ∉ front) (second : Char) (values : List String) :
    fill first second front values = some (front, values) := by
  have whole := fill_append plain second [] values
  rw [append_nil] at whole
  simpa [fill] using whole

theorem combine_add {left right : Runtime} {text : String}
    (joined : combine rules .add left right = some (.string text)) :
    ∃ front back, left = .string front ∧ right = .string back ∧ text = front ++ back := by
  cases left <;> cases right <;> simp_all [combine, Option.filter_eq_some_iff, isString]

theorem combine_modulo {left right : Runtime} {text : String}
    (joined : combine rules .modulo left right = some (.string text)) :
    ∃ template, left = .string template ∧
      fill '%' 's' template.toList right.operands = some (text.toList, []) := by
  cases left with
  | string template =>
    refine ⟨template, rfl, ?_⟩
    rw [combine] at joined
    obtain ⟨⟨filled, left⟩, taken, kept⟩ := Option.bind_eq_some_iff.mp joined
    split at kept
    · rename_i done
      dsimp only at done
      cases kept
      rw [taken, String.toList_ofList, done]
    · cases kept
  | tuple | other => simp_all [combine, Option.filter_eq_some_iff, isString]

theorem format?_string {object : Runtime} {args : List (Argument (Option Runtime))} {text : String}
    (formatted : format? object args = some (.string text)) :
    ∃ template values left, object = .string template ∧
      fill '\x7b' '\x7d' template.toList values = some (text.toList, left) := by
  cases object with
  | string template =>
    rw [format?] at formatted
    obtain ⟨values, _, formatted⟩ := Option.bind_eq_some_iff.mp formatted
    obtain ⟨⟨filled, left⟩, taken, kept⟩ := Option.bind_eq_some_iff.mp formatted
    cases kept
    exact ⟨template, values.flatten, left, rfl, by rw [taken, String.toList_ofList]⟩
  | tuple | other => cases formatted

theorem value_binary {meaning : Meaning (Option Runtime)} (line : Nat) (op : BinaryOp) (left right : Expr) :
    meaning.value env other ⟨line, .binary op left right⟩ =
      meaning.binary op (meaning.value env other left) (meaning.value env other right) := by
  rw [Meaning.value]

theorem value_literal {expr : Expr} (literal : expr.isLiteral = true) :
    (building rules).value env other expr = (building rules).literal expr.shape := by
  rcases expr with ⟨line, shape⟩
  cases shape with
  | int | float | string | bool | none =>
    rw [Meaning.value]
    rfl
  | _ => cases literal

theorem value_formatted (line : Nat) (parts : List (FormattedPart Expr)) :
    (building rules).value env other ⟨line, .formatted parts⟩ =
      (parts.mapM fun part => partText? (part.map ((building rules).value env other))).map
        fun texts => .string (String.join texts) := by
  have same : (fun part => partText? (part.map ((building rules).value env other))) =
      partText? ∘ FormattedPart.map ((building rules).value env other) := rfl
  rw [Meaning.value, same, ← mapM_map, ← parts.attach_map_subtype_val, map_map, attach_map_subtype_val]
  refine congrArg (building rules).formatted (map_congr_left ?_)
  rintro ⟨part, inside⟩ -
  cases part <;> rfl

theorem shown_literals {parts : List (FormattedPart Expr)} {value : Expr → Option Runtime} {texts : List String}
    (shown : parts.mapM (fun part => partText? (part.map value)) = some texts) :
    (parts.takeWhile Expr.isLiteralPart).map FormattedPart.literalText <+: texts ∧
      (parts.all Expr.isLiteralPart = true → texts = parts.map FormattedPart.literalText) := by
  induction parts generalizing texts with
  | nil =>
    cases shown
    exact ⟨List.nil_prefix, fun _ => rfl⟩
  | cons part rest ih =>
    rw [mapM_cons] at shown
    obtain ⟨text, first, shown⟩ := Option.bind_eq_some_iff.mp shown
    obtain ⟨others, later, same⟩ := Option.bind_eq_some_iff.mp shown
    cases same
    cases part with
    | literal written =>
      cases first
      obtain ⟨front, whole⟩ := ih later
      exact ⟨cons_prefix_cons.mpr ⟨rfl, front⟩, fun plain => congrArg _ (whole (by simpa [Expr.isLiteralPart] using plain))⟩
    | value inner => exact ⟨List.nil_prefix, fun plain => by simp [Expr.isLiteralPart] at plain⟩

theorem binary_eq_some {op : BinaryOp} {left right : Option Runtime} {result : Runtime}
    (evaluates : (building rules).binary op left right = some result) :
    ∃ first second, left = some first ∧ right = some second ∧ combine rules op first second = some result := by
  obtain ⟨first, known, evaluates⟩ := Option.bind_eq_some_iff.mp evaluates
  obtain ⟨second, given, combined⟩ := Option.bind_eq_some_iff.mp evaluates
  exact ⟨first, second, known, given, combined⟩

theorem value_add {line : Nat} {left right : Expr} {text : String}
    (evaluates : (building rules).value env other ⟨line, .binary .add left right⟩ = some (.string text)) :
    ∃ front back, (building rules).value env other left = some (.string front) ∧
      (building rules).value env other right = some (.string back) ∧ text = front ++ back := by
  rw [value_binary] at evaluates
  obtain ⟨first, second, known, given, combined⟩ := binary_eq_some evaluates
  obtain ⟨front, back, rfl, rfl, same⟩ := combine_add combined
  exact ⟨front, back, known, given, same⟩

theorem value_modulo {line : Nat} {left right : Expr} {text : String}
    (evaluates : (building rules).value env other ⟨line, .binary .modulo left right⟩ = some (.string text)) :
    ∃ template values, (building rules).value env other left = some (.string template) ∧
      fill '%' 's' template.toList values = some (text.toList, []) := by
  rw [value_binary] at evaluates
  obtain ⟨first, second, known, _, combined⟩ := binary_eq_some evaluates
  obtain ⟨template, rfl, filled⟩ := combine_modulo combined
  exact ⟨template, second.operands, known, filled⟩

theorem value_format {line place : Nat} {object : Expr} {args : List (Argument Expr)} {text : String}
    (evaluates : (building rules).value env other ⟨line, .call ⟨place, .attribute object "format"⟩ args⟩ =
      some (.string text)) :
    ∃ template values left, (building rules).value env other object = some (.string template) ∧
      fill '\x7b' '\x7d' template.toList values = some (text.toList, left) := by
  rw [Meaning.value_format _ (Expr.isFormat_format place object args)] at evaluates
  obtain ⟨value, known, formatted⟩ := Option.bind_eq_some_iff.mp evaluates
  obtain ⟨template, values, left, rfl, filled⟩ := format?_string formatted
  exact ⟨template, values, left, known, filled⟩

theorem leadingText_whole {expr : Expr} {text : String} (whole : expr.IsWhole) (constant : expr.isConstant = true)
    (evaluates : (building rules).value env other expr = some (.string text)) : expr.leadingText = text := by
  induction whole generalizing text with
  | @literal expr literal =>
    rw [value_literal literal] at evaluates
    rcases expr with ⟨line, shape⟩
    cases shape with
    | string written =>
      cases evaluates
      rw [Expr.leadingText]
    | int | float | bool | none => cases evaluates
    | _ => cases literal
  | @formatted line parts plain =>
    rw [value_formatted] at evaluates
    obtain ⟨texts, shown, same⟩ := Option.map_eq_some_iff.mp evaluates
    cases same
    rw [Expr.leadingText_formatted, (shown_literals shown).2 plain,
      takeWhile_eq_self_iff.mpr (all_eq_true.mp plain)]
  | @add line left right _ _ first second =>
    rw [Expr.isConstant, Bool.and_eq_true] at constant
    obtain ⟨front, back, known, given, rfl⟩ := value_add evaluates
    rw [Expr.leadingText_binary, if_pos constant.1, first constant.1 known, second constant.2 given]
  | @modulo line left right _ plain silent first =>
    rw [Expr.isConstant, Bool.and_eq_true] at constant
    obtain ⟨template, values, known, filled⟩ := value_modulo evaluates
    rw [first constant.1 known] at plain
    rw [fill_plain plain] at filled
    rw [Expr.leadingText_binary, if_pos constant.1, silent, String.append_empty, first constant.1 known]
    exact String.toList_inj.mp (Prod.mk.inj (Option.some.inj filled)).1
  | @format line place object args _ plain first =>
    rw [Expr.isConstant_format (Expr.isFormat_format place object args), Bool.and_eq_true] at constant
    obtain ⟨template, values, left, known, filled⟩ := value_format evaluates
    have same := Expr.leadingText_format line place object args
    rw [first constant.1 known] at plain same
    rw [fill_plain plain] at filled
    have uncut : template.toList.takeWhile (· != '\x7b') = template.toList := by
      refine takeWhile_eq_self_iff.mpr fun c inside => bne_iff_ne.mpr ?_
      rintro rfl
      exact plain inside
    rw [uncut] at same
    exact String.toList_inj.mp (same.trans (Prod.mk.inj (Option.some.inj filled)).1)

/-- The leading text is the front of every string that the expression can evaluate to, if it can be relied on. -/
theorem leadingText_isPrefix (rules : Rules) {env : String → Option Runtime} {other : Expr → Option Runtime}
    {expr : Expr} {text : String} (leads : expr.Leads)
    (evaluates : (building rules).value env other expr = some (.string text)) :
    expr.leadingText.toList <+: text.toList := by
  induction leads generalizing text with
  | silent none =>
    rw [none]
    exact nil_prefix
  | string line written =>
    rw [value_literal rfl] at evaluates
    cases evaluates
    simp only [Expr.leadingText, prefix_rfl]
  | formatted line parts =>
    rw [value_formatted] at evaluates
    obtain ⟨texts, shown, same⟩ := Option.map_eq_some_iff.mp evaluates
    cases same
    obtain ⟨rest, rfl⟩ := (shown_literals shown).1
    rw [Expr.leadingText_formatted, String.toList_join, String.toList_join, flatMap_append]
    exact prefix_append _ _
  | @add line left right _ whole _ first second =>
    obtain ⟨front, back, known, given, rfl⟩ := value_add evaluates
    rw [Expr.leadingText_binary, String.toList_append]
    split
    · rename_i constant
      rw [leadingText_whole (whole constant) constant known, String.toList_append]
      exact (prefix_append_right_inj _).mpr (second constant given)
    · exact (first known).trans (prefix_append _ _)
  | @modulo line left right _ plain silent first =>
    obtain ⟨template, values, known, filled⟩ := value_modulo evaluates
    have front := prefix_of_fill plain (first known) filled
    rw [Expr.leadingText_binary]
    split
    · rename_i constant
      rwa [silent constant, String.append_empty]
    · exact front
  | @format line place object args _ first =>
    obtain ⟨template, values, left, known, filled⟩ := value_format evaluates
    rw [Expr.leadingText_format]
    refine prefix_of_fill (fun inside => ?_) ((List.takeWhile_prefix _).trans (first known)) filled
    have other := mem_takeWhile_imp inside
    simp at other

def stringsOnly : Rules := ⟨fun _ => "", fun _ => "", fun _ _ _ => none⟩

/-- The expression `("." + "./{}").format(name)`. -/
def relative : Expr :=
  ⟨1, .call ⟨1, .attribute ⟨1, .binary .add ⟨1, .string "."⟩ ⟨1, .string "./\x7b\x7d"⟩⟩ "format"⟩
    [⟨.positional, ⟨1, .identifier "name"⟩⟩]⟩

theorem leadingText_isPrefix_relative :
    relative.Leads ∧ relative.leadingText = "../" ∧
    (building stringsOnly).value (fun _ => some (.string "etc")) (fun _ => none) relative = some (.string "../etc") ∧
    relative.leadingText.toList <+: "../etc".toList := by
  have leads : relative.Leads :=
    .format 1 1 _ (.add 1 (.string 1 ".") (fun _ => .literal rfl) fun _ => .string 1 _)
  have evaluates : (building stringsOnly).value (fun _ => some (.string "etc")) (fun _ => none) relative =
      some (.string "../etc") := by with_unfolding_all rfl
  exact ⟨leads, by decide +kernel, evaluates, leadingText_isPrefix stringsOnly leads evaluates⟩

/-- The expression `".{}".format("x") + "./etc"`. -/
def interrupted : Expr :=
  ⟨1, .binary .add ⟨1, .call ⟨1, .attribute ⟨1, .string ".\x7b\x7d"⟩ "format"⟩ [⟨.positional, ⟨1, .string "x"⟩⟩]⟩
    ⟨1, .string "./etc"⟩⟩

/-- The expression `"%s/etc" % name`. -/
def directed : Expr := ⟨1, .binary .modulo ⟨1, .string "%s/etc"⟩ ⟨1, .identifier "name"⟩⟩

/-- Text behind a constant is taken to follow the front of that constant, and a directive is taken as it is written. -/
theorem leadingText_not_isPrefix :
    ((building stringsOnly).value (fun _ => none) (fun _ => none) interrupted = some (.string ".x./etc") ∧
      ¬ interrupted.leadingText.toList <+: ".x./etc".toList) ∧
    ((building stringsOnly).value (fun _ => some (.string "a")) (fun _ => none) directed = some (.string "a/etc") ∧
      ¬ directed.leadingText.toList <+: "a/etc".toList) := by
  have joined : interrupted.leadingText = "../etc" := by decide +kernel
  have written : directed.leadingText = "%s/etc" := by decide +kernel
  rw [joined, written]
  exact ⟨⟨by with_unfolding_all rfl, by decide⟩, by with_unfolding_all rfl, by decide⟩

end Runtime
end SourceAudit
