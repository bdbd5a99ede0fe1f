import SourceAudit.Proofs.Grammar.Rendering
import SourceAudit.Proofs.Grammar.Tracking

open List

namespace SourceAudit

namespace Token

variable (text symbol : String)

@[simp] theorem isDelimiter_delimiter : (delimiter text).isDelimiter symbol = (text == symbol) := rfl

@[simp] theorem isDelimiter_keyword : (keyword text).isDelimiter symbol = false := rfl

@[simp] theorem isDelimiter_operator : (operator text).isDelimiter symbol = false := rfl

@[simp] theorem isDelimiter_named : (named text).isDelimiter symbol = false := rfl

@[simp] theorem isKeyword_delimiter : (delimiter text).isKeyword symbol = false := rfl

@[simp] theorem isKeyword_keyword : (keyword text).isKeyword symbol = (text == symbol) := rfl

@[simp] theorem isOperator_delimiter : (delimiter text).isOperator symbol = false := rfl

@[simp] theorem isOperator_operator : (operator text).isOperator symbol = (text == symbol) := rfl

@[simp] theorem isOperator_named : (named text).isOperator symbol = false := rfl

@[simp] theorem startsExpression_delimiter :
    (delimiter text).startsExpression = ["(", "[", "\x7b"].contains text := rfl

@[simp] theorem startsGenerator_delimiter : (delimiter text).startsGenerator = false := rfl

@[simp] theorem startsGenerator_keyword :
    (keyword text).startsGenerator = (text == "for" || text == "async") := rfl

@[simp] theorem line_named : (named text).line = 1 := rfl

@[simp] theorem line_keyword : (keyword text).line = 1 := rfl

@[simp] theorem line_delimiter : (delimiter text).line = 1 := rfl

@[simp] theorem kind_delimiter : (delimiter text).kind = .delimiter := rfl

@[simp] theorem kind_named : (named text).kind = .identifier := rfl

@[simp] theorem text_named : (named text).text = text := rfl

end Token

attribute [simp] Cursor.current_push_cons Cursor.advance_push_cons

namespace Parser

variable {α β : Type}

@[simp] theorem run_bind (first : Parser α) (next : α → Parser β) (cursor : Cursor) :
    (first >>= next) cursor =
      match first cursor with
      | .ok value after => next value after
      | .error error after => .error error after := by
  change EStateM.bind first next cursor = _
  unfold EStateM.bind
  cases first cursor <;> rfl

@[simp] theorem run_pure (value : α) (cursor : Cursor) : (pure value : Parser α) cursor = .ok value cursor := rfl

@[simp] theorem run_map (f : α → β) (parser : Parser α) (cursor : Cursor) :
    (f <$> parser) cursor =
      match parser cursor with
      | .ok value after => .ok (f value) after
      | .error error after => .error error after := by
  change EStateM.map f parser cursor = _
  unfold EStateM.map
  cases parser cursor <;> rfl

@[simp] theorem run_current (cursor : Cursor) : current cursor = .ok cursor.current cursor := rfl

@[simp] theorem run_peek (cursor : Cursor) : peek cursor = .ok cursor.peek cursor := rfl

@[simp] theorem run_line (cursor : Cursor) : line cursor = .ok cursor.current.line cursor := rfl

@[simp] theorem run_advance (cursor : Cursor) : advance cursor = .ok cursor.current cursor.advance := rfl

theorem run_accept (test : Token → Bool) (cursor : Cursor) :
    accept test cursor =
      .ok (test cursor.current) (if test cursor.current then cursor.advance else cursor) := by
  cases passes : test cursor.current with
  | true => rw [accept_of_true passes]; rfl
  | false => rw [accept_of_false passes]; rfl

@[simp] theorem run_acceptDelimiter (symbol : String) (cursor : Cursor) :
    acceptDelimiter symbol cursor = .ok (cursor.current.isDelimiter symbol)
      (if cursor.current.isDelimiter symbol then cursor.advance else cursor) :=
  run_accept _ cursor

@[simp] theorem run_acceptOperator (symbol : String) (cursor : Cursor) :
    acceptOperator symbol cursor = .ok (cursor.current.isOperator symbol)
      (if cursor.current.isOperator symbol then cursor.advance else cursor) :=
  run_accept _ cursor

@[simp] theorem run_acceptKeyword (word : String) (cursor : Cursor) :
    acceptKeyword word cursor = .ok (cursor.current.isKeyword word)
      (if cursor.current.isKeyword word then cursor.advance else cursor) :=
  run_accept _ cursor

@[simp] theorem run_ite (condition : Prop) [Decidable condition] (yes no : Parser α) (cursor : Cursor) :
    (if condition then yes else no) cursor = if condition then yes cursor else no cursor := by
  split <;> rfl

@[simp] theorem run_modify (change : Cursor → Cursor) (cursor : Cursor) :
    (modify change : Parser PUnit) cursor = .ok ⟨⟩ (change cursor) := rfl

@[simp] theorem run_atDelimiter (symbol : String) (cursor : Cursor) :
    atDelimiter symbol cursor = .ok (cursor.current.isDelimiter symbol) cursor := rfl

@[simp] theorem run_atOperator (symbol : String) (cursor : Cursor) :
    atOperator symbol cursor = .ok (cursor.current.isOperator symbol) cursor := rfl

@[simp] theorem run_atKeyword (word : String) (cursor : Cursor) :
    atKeyword word cursor = .ok (cursor.current.isKeyword word) cursor := rfl

variable (base : Cursor)

@[simp] theorem run_expectDelimiter (symbol : String) (more : List Token) :
    expectDelimiter symbol (base.push (.delimiter symbol :: more)) = .ok () (base.push more) := by
  simp [expectDelimiter]

@[simp] theorem run_expectKeyword (word : String) (more : List Token) :
    expectKeyword word (base.push (.keyword word :: more)) = .ok () (base.push more) := by
  simp [expectKeyword]

@[simp] theorem run_expectIdentifier (what : Expected) (name : String) (more : List Token) :
    expectIdentifier what (base.push (.named name :: more)) = .ok name (base.push more) := by
  simp [expectIdentifier]

/-- The parser takes tokens in front of a cursor, up to those that are left, for a value of a kind. -/
def Takes (parser : Parser α) (tokens left : List Token) (kind : α → Prop) : Prop :=
  ∃ value, parser (base.push tokens) = .ok value (base.push left) ∧ kind value

variable {γ : Type} {R : γ → α → Prop} {written : γ → List Token}

theorem run_many {step : Parser (Option α)} (follow : List Token → Prop) {values : List γ}
    {more : List Token} (last : follow more) (stops : step (base.push more) = .ok none (base.push more))
    (links : ∀ value ∈ values, ∀ rest, written value ≠ [] ∧ follow (written value ++ rest))
    (reads : ∀ value ∈ values, ∀ rest, follow rest →
      Takes base step (written value ++ rest) rest (∃ result ∈ ·, R value result)) :
    Takes base (many step) (values.flatMap written ++ more) more (List.Forall₂ R values) := by
  induction values with
  | nil => exact ⟨[], Parser.many_none stops, .nil⟩
  | cons value values ih =>
    obtain ⟨results, run, alike⟩ := ih
      (fun value member => links value (mem_cons_of_mem _ member))
      (fun value member => reads value (mem_cons_of_mem _ member))
    have onward : follow (values.flatMap written ++ more) := by
      cases values with
      | nil => exact last
      | cons next others =>
        rw [flatMap_cons, append_assoc]
        exact (links next (by simp) _).2
    obtain ⟨_, runs, result, rfl, same⟩ := reads value (by simp) _ onward
    have shorter : (base.push (values.flatMap written ++ more)).size <
        (base.push (written value ++ (values.flatMap written ++ more))).size := by
      have := length_pos_iff.mpr (links value (by simp) []).1
      simp only [Cursor.size_push, length_append]
      omega
    refine ⟨result :: results, ?_, .cons same alike⟩
    rw [flatMap_cons, append_assoc, Parser.many_some runs shorter, run_map, run]

end Parser
end SourceAudit
