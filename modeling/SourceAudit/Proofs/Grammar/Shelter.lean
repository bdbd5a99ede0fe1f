import SourceAudit.Grammar.Expression
import SourceAudit.Proofs.Grammar.Tracking

namespace SourceAudit

/-- A place among tokens: how many brackets are open, and whether a point between them comes before it. -/
structure Shelter where
  depth : Nat
  dotted : Bool
deriving DecidableEq

namespace Token

def breaksOut (token : Token) : Bool :=
  token.kind == .keyword && token.text != "async" && bracketEnders.contains token.text

def depthAt (depth : Nat) (symbol : String) : Nat :=
  match symbol with
  | "(" | "[" | "\x7b" => depth + 1
  | ")" | "]" | "\x7d" => depth - 1
  | _ => depth

/-- The number of open brackets after a token; the end of a line closes all. -/
def nesting (depth : Nat) (token : Token) : Nat :=
  match token.kind with
  | .newline => 0
  | .delimiter => depthAt depth token.text
  | _ => depth

theorem kind_of_isOperator {token : Token} {symbol : String} (found : token.isOperator symbol = true) :
    token.kind = .operator ∧ token.text = symbol := by
  simpa only [isOperator, Bool.and_eq_true, beq_iff_eq] using found

theorem kind_of_isDelimiter {token : Token} {symbol : String} (found : token.isDelimiter symbol = true) :
    token.kind = .delimiter ∧ token.text = symbol := by
  simpa only [isDelimiter, Bool.and_eq_true, beq_iff_eq] using found

structure FitsInside (token : Token) : Prop where
  inner : token.breaksOut = false
  point : token.isOperator "." = false

theorem FitsInside.of_kind {token : Token} (word : token.kind ≠ .keyword) (symbol : token.kind ≠ .operator) :
    token.FitsInside :=
  ⟨by simp [breaksOut, word], by simp [isOperator, symbol]⟩

theorem FitsInside.keyword {token : Token} {word : String} (found : token.isKeyword word = true)
    (inner : word = "async" ∨ word ∉ bracketEnders) : token.FitsInside := by
  simp only [isKeyword, Bool.and_eq_true, beq_iff_eq] at found
  refine ⟨?_, by simp [isOperator, found.1]⟩
  rcases inner with same | inner
  · simp [breaksOut, found.2, same]
  · simp [breaksOut, found.2, inner]

theorem FitsInside.operator {token : Token} {symbol : String} (found : token.isOperator symbol = true)
    (other : symbol ≠ ".") : token.FitsInside := by
  obtain ⟨kind, same⟩ := kind_of_isOperator found
  exact ⟨by simp [breaksOut, kind], by simp [isOperator, same, other]⟩

theorem depthAt_of_owed {owed owed' : List String} {symbol : String} (owes : owedAt owed symbol = some owed') :
    depthAt owed.length symbol = owed'.length := by
  unfold owedAt at owes
  split at owes
  iterate 3
    cases owes
    rfl
  iterate 3
    split at owes
    · cases owes
    · split at owes
      · cases owes
        rfl
      · cases owes
  · cases owes
    unfold depthAt
    split
    iterate 6
      contradiction
    rfl

theorem nesting_of_owed {owed owed' : List String} {token : Token} (owes : owedAfter owed token = some owed') :
    token.nesting owed.length = owed'.length := by
  unfold owedAfter at owes
  unfold nesting
  split at owes
  · cases owes
  · rename_i newline
    rw [newline]
    split at owes
    · cases owes
      rfl
    · cases owes
  · rename_i delimiter
    rw [delimiter]
    exact depthAt_of_owed owes
  · rename_i other newline delimiter
    cases owes
    split
    · contradiction
    · contradiction
    · rfl

end Token

namespace Shelter

def level (depth : Nat) : Shelter := ⟨depth, false⟩

/-- The place after a token. There is none after a point without a name and after a word that has no
    place between brackets. -/
def after (place : Shelter) (token : Token) : Option Shelter :=
  if place.dotted ∧ token.kind ≠ .identifier then none
  else if 0 < place.depth ∧ token.breaksOut then none
  else some ⟨token.nesting place.depth, decide (0 < place.depth) && token.isOperator "."⟩

def through (place : Shelter) (tokens : List Token) : Option Shelter := tokens.foldlM after place

theorem through_append (place : Shelter) (front back : List Token) :
    place.through (front ++ back) = (place.through front).bind (·.through back) := by
  unfold through
  rw [List.foldlM_append]
  rfl

theorem through_singleton (place : Shelter) (token : Token) : place.through [token] = place.after token := by
  unfold through
  rw [List.foldlM_cons]
  cases place.after token <;> rfl

variable {depth : Nat} {token : Token}

theorem after_level (fits : depth = 0 ∨ token.FitsInside) :
    (level depth).after token = some (level (token.nesting depth)) := by
  rcases fits with rfl | fits
  · simp [after, level]
  · simp [after, level, fits.inner, fits.point]

theorem after_word (inner : token.breaksOut = false) (kind : token.kind = .keyword ∨ token.kind = .operator) :
    ∃ dotted, (level depth).after token = some ⟨depth, dotted⟩ := by
  refine ⟨decide (0 < depth) && token.isOperator ".", ?_⟩
  rw [after, if_neg (by simp [level]), if_neg (by simp [inner])]
  rcases kind with kind | kind <;> rw [Token.nesting, kind] <;> rfl

theorem after_identifier {dotted : Bool} (name : token.kind = .identifier) :
    (⟨depth, dotted⟩ : Shelter).after token = some (level depth) := by
  simp [after, level, name, Token.breaksOut, Token.isOperator, Token.nesting]

end Shelter

theorem Cursor.rest_of_current {cursor : Cursor} (inside : cursor.current.kind ≠ .endOfInput) :
    cursor.rest = cursor.current :: cursor.advance.rest := by
  change cursor.rest = cursor.current :: cursor.rest.drop 1
  unfold current at *
  cases rest : cursor.rest with
  | nil =>
    rw [rest] at inside
    exact absurd rfl inside
  | cons token tokens => rfl

namespace Continuation

variable {token next : Token} {continuation : Continuation}

theorem ofKeyword_ender (next : Token) : ∀ word ∈ Token.bracketEnders, ofKeyword word next = none := by
  simp [Token.bracketEnders, ofKeyword]

theorem breaksOut_eq_false (found : ofTokens token next = some continuation) : token.breaksOut = false := by
  by_contra breaks
  simp only [Token.breaksOut, Bool.and_eq_true, beq_iff_eq, List.contains_eq_mem, decide_eq_true_eq,
    Bool.not_eq_false] at breaks
  rw [ofTokens, breaks.1.1] at found
  dsimp only at found
  rw [ofKeyword_ender next _ breaks.2] at found
  cases found

theorem fitsInside (found : ofTokens token next = some continuation) (other : continuation ≠ .attribute) :
    token.FitsInside := by
  refine ⟨breaksOut_eq_false found, ?_⟩
  cases point : token.isOperator "." with
  | false => rfl
  | true =>
    obtain ⟨kind, text⟩ := Token.kind_of_isOperator point
    rw [ofTokens, kind, text] at found
    exact absurd (Option.some.inj found).symm other

theorem second_word {op : BinaryOp} (found : ofTokens token next = some (.operator op))
    (double : (operator op).width = 2) : ∃ word ∉ Token.bracketEnders, next.isKeyword word = true := by
  unfold ofTokens at found
  split at found
  · unfold ofKeyword at found
    split at found
    · cases found
      cases double
    · cases found
      cases double
    · split at found
      · rename_i second
        exact ⟨"not", by decide, second⟩
      · cases found
        cases double
    · cases found
      cases double
    · split at found
      · rename_i second
        exact ⟨"in", by decide, second⟩
      · cases found
    · cases found
    · cases found
  · unfold ofOperator at found
    split at found
    · cases found
    · split at found
      · cases found
      · obtain ⟨_, symbol, same⟩ := Option.map_eq_some_iff.mp found
        cases same
        rw [width_ofSymbol symbol] at double
        cases double
  · unfold ofDelimiter at found
    split at found <;> cases found
  · cases found

end Continuation

end SourceAudit
