import SourceAudit.Grammar.Expression
import SourceAudit.Proofs.Grammar.Reading
import SourceAudit.Proofs.Scanner.Relocation

namespace SourceAudit

variable {like : Likeness}

inductive Tail.Alike (like : Likeness) : Tail → Tail → Prop where
  | call {a b : List (Argument Expr)} (args : List.Forall₂ (Argument.Alike like.expr) a b) :
      Alike like (.call a) (.call b)
  | subscript {a b : Expr} (index : like.expr a b) : Alike like (.subscript a) (.subscript b)
  | attribute (name : String) : Alike like (.attribute name) (.attribute name)
  | conditional {a b c d : Expr} (test : like.expr a b) (orelse : like.expr c d) :
      Alike like (.conditional a c) (.conditional b d)
  | operator (op : BinaryOp) {a b : Expr} (right : like.expr a b) :
      Alike like (.operator op a) (.operator op b)

theorem Expr.extend_alike {left left' : Expr} {tail tail' : Tail} (alike : like.expr left left')
    (tails : tail.Alike like tail') : like.expr (left.extend tail) (left'.extend tail') := by
  have line := (like.expr_elim alike).1
  cases tails with
  | call args => exact like.expr_intro line (.call alike args)
  | subscript index => exact like.expr_intro line (.subscript alike index)
  | «attribute» name => exact like.expr_intro line (.attribute alike name)
  | conditional test orelse => exact like.expr_intro line (.conditional test alike orelse)
  | operator op right => exact like.expr_intro line (.binary op alike right)

theorem Expr.foldl_extend_alike {tails tails' : List Tail}
    (alikes : List.Forall₂ (Tail.Alike like) tails tails') {left left' : Expr}
    (alike : like.expr left left') :
    like.expr (tails.foldl Expr.extend left) (tails'.foldl Expr.extend left') := by
  induction alikes generalizing left left' with
  | nil => exact alike
  | cons first _ ih => exact ih (extend_alike alike first)

theorem FormattedPart.join_alike {part part' : FormattedPart Expr} {parts parts' : List (FormattedPart Expr)}
    (alike : FormattedPart.Alike like.expr part part')
    (alikes : List.Forall₂ (FormattedPart.Alike like.expr) parts parts') :
    List.Forall₂ (FormattedPart.Alike like.expr) (join part parts) (join part' parts') := by
  cases alike with
  | value alike => exact .cons (.value alike) alikes
  | literal text =>
    cases alikes with
    | nil => exact .cons (.literal text) .nil
    | cons first others =>
      cases first with
      | literal next => exact .cons (.literal _) others
      | value alike => exact .cons (.literal text) (.cons (.value alike) others)

inductive StringPiece.Alike (like : Likeness) : StringPiece → StringPiece → Prop where
  | plain (text : String) : Alike like (.plain text) (.plain text)
  | formatted {a b : List (FormattedPart Expr)}
      (parts : List.Forall₂ (FormattedPart.Alike like.expr) a b) : Alike like (.formatted a) (.formatted b)

theorem StringPiece.joined_alike {pieces pieces' : List StringPiece}
    (alikes : List.Forall₂ (StringPiece.Alike like) pieces pieces') :
    Expr.Shape.Alike like.expr (joined pieces) (joined pieces') := by
  have flags : pieces.any isFormatted = pieces'.any isFormatted := by
    induction alikes with
    | nil => rfl
    | cons first _ ih => cases first <;> simp [isFormatted, ih]
  have texts : pieces.map text = pieces'.map text := by
    clear flags
    induction alikes with
    | nil => rfl
    | cons first others ih => cases first <;> simp_all [text]
  have parts : List.Forall₂ (FormattedPart.Alike like.expr) (pieces.flatMap parts)
      (pieces'.flatMap parts) := by
    refine List.rel_flatMap alikes ?_
    intro piece piece' alike
    cases alike with
    | plain text => exact .cons (.literal text) .nil
    | formatted parts => exact parts
  unfold joined
  rw [← flags, ← texts]
  split
  · refine .formatted (List.rel_foldr ?_ .nil parts)
    intro _ _ first _ _ others
    exact FormattedPart.join_alike first others
  · exact .string _

inductive Piece.Alike (lines : Nat → Nat → Prop) : Piece → Piece → Prop where
  | literal (text : List Char) : Alike lines (.literal text) (.literal text)
  | replacement (text : List Char) {m n : Nat} (line : lines m n) :
      Alike lines (.replacement text m) (.replacement text n)
  | broken (cause : SyntaxError.Cause) {m n : Nat} (line : lines m n)
      (plain : ∀ what found, cause ≠ .expected what found) : Alike lines (.broken ⟨m, cause⟩) (.broken ⟨n, cause⟩)

theorem Piece.consChar_alike {lines : Nat → Nat → Prop} (c : Char) {pieces pieces' : List Piece}
    (alikes : List.Forall₂ (Piece.Alike lines) pieces pieces') :
    List.Forall₂ (Piece.Alike lines) (consChar c pieces) (consChar c pieces') := by
  cases alikes with
  | nil => exact .cons (.literal _) .nil
  | cons first others =>
    cases first with
    | literal text => exact .cons (.literal _) others
    | replacement text line => exact .cons (.literal _) (.cons (.replacement text line) others)
    | broken cause line plain => exact .cons (.literal _) (.cons (.broken cause line plain) others)

theorem Piece.ofBody_alike (text : List Char) {line line' : Nat} (alike : like.line line line') :
    List.Forall₂ (Piece.Alike like.line) (ofBody line text) (ofBody line' text) := by
  fun_induction ofBody line text generalizing line' with
  | case1 line => rw [ofBody]; exact .nil
  | case2 line rest ih =>
    rw [ofBody]
    exact consChar_alike _ (ih alike)
  | case3 line rest single found =>
    rw [ofBody]
    · split
      · exact .cons (.broken _ alike (by simp)) .nil
      · rename_i same
        rw [found] at same
        cases same
    · exact single
  | case4 line rest single field found =>
    rename_i empty
    rw [ofBody]
    · split
      · rename_i same
        rw [found] at same
        cases same
      · rename_i same
        rw [found] at same
        cases same
        dsimp only
        rw [if_pos empty]
        exact .cons (.broken _ alike (by simp)) .nil
    · exact single
  | case5 line rest single field found =>
    rename_i filled ih
    rw [ofBody]
    · split
      · rename_i same
        rw [found] at same
        cases same
      · rename_i same
        rw [found] at same
        cases same
        dsimp only
        rw [if_neg filled]
        exact .cons (.replacement _ alike) (ih (like.later _ alike))
    · exact single
  | case6 line rest ih =>
    rw [ofBody]
    exact consChar_alike _ (ih alike)
  | case7 line rest single =>
    rw [ofBody]
    · exact .cons (.broken _ alike (by simp)) .nil
    · exact single
  | case8 line c rest doubled opening doubled' closing ih =>
    rw [ofBody]
    · refine consChar_alike c (ih ?_)
      split
      · exact like.later 1 alike
      · exact alike
    all_goals assumption

namespace Continuation

theorem width_ofSymbol {symbol : String} {op : BinaryOp} (found : BinaryOp.ofSymbol? symbol = some op) :
    (operator op).width = 1 := by
  unfold BinaryOp.ofSymbol? at found
  split at found <;> cases found <;> rfl

/-- The tokens that spell a continuation: an opening bracket, or words and symbols. -/
def Spelled (token next : Token) : Continuation → Prop
  | .call => token.kind = .delimiter ∧ token.text = "("
  | .subscript => token.kind = .delimiter ∧ token.text = "["
  | .attribute | .conditional => token.kind = .keyword ∨ token.kind = .operator
  | .operator op => (token.kind = .keyword ∨ token.kind = .operator) ∧
      ((operator op).width = 1 ∨ (operator op).width = 2 ∧ next.kind = .keyword)

theorem spelled {token next : Token} {continuation : Continuation}
    (found : ofTokens token next = some continuation) : continuation.Spelled token next := by
  have keyword : ∀ word, next.isKeyword word = true → next.kind = .keyword := fun _ =>
    Token.kind_of_isKeyword
  unfold ofTokens at found
  split at found
  · rename_i kind
    unfold ofKeyword at found
    split at found
    · cases found
      exact ⟨.inl kind, .inl rfl⟩
    · cases found
      exact ⟨.inl kind, .inl rfl⟩
    · cases found
      split
      · rename_i passes
        exact ⟨.inl kind, .inr ⟨rfl, keyword _ passes⟩⟩
      · exact ⟨.inl kind, .inl rfl⟩
    · cases found
      exact ⟨.inl kind, .inl rfl⟩
    · split at found
      · rename_i passes
        cases found
        exact ⟨.inl kind, .inr ⟨rfl, keyword _ passes⟩⟩
      · cases found
    · cases found
      exact .inl kind
    · cases found
  · rename_i kind
    unfold ofOperator at found
    split at found
    · cases found
      exact .inr kind
    · split at found
      · cases found
      · obtain ⟨op, symbol, rfl⟩ := Option.map_eq_some_iff.mp found
        exact ⟨.inr kind, .inl (width_ofSymbol symbol)⟩
  · rename_i kind
    unfold ofDelimiter at found
    split at found
    · rename_i text
      cases found
      exact ⟨kind, text⟩
    · rename_i text
      cases found
      exact ⟨kind, text⟩
    · cases found
  · cases found

theorem ofTokens_alike {lines lines' : Nat → Nat → Prop} {token token' next next' : Token}
    (tokens : token.Alike lines token')
    (nexts : token.kind.isLayout = false → next.Alike lines' next') :
    ofTokens token' next' = ofTokens token next := by
  unfold ofTokens
  rw [← tokens.kind, ← tokens.text]
  split
  · rename_i keyword
    have alike := nexts (by rw [keyword]; rfl)
    unfold ofKeyword
    rw [alike.test (·.isKeyword "not") fun _ _ => rfl, alike.test (·.isKeyword "in") fun _ _ => rfl]
  · rfl
  · rfl
  · rfl

end Continuation

namespace Twins

theorem exists_of_tokens {tokens tokens' : List Token}
    (alike : List.Forall₂ (Token.Alike like.line) tokens tokens')
    (ends : ∃ token ∈ tokens, token.kind = .endOfInput) (final final' : Nat)
    (errors errors' : List SyntaxError) :
    ∃ twins : Twins like, twins.left = ⟨tokens, final, errors, _, rfl⟩ ∧
      twins.right = ⟨tokens', final', errors', _, rfl⟩ := by
  induction alike with
  | nil => simp at ends
  | @cons token other tokens tokens' first others ih =>
    by_cases layout : token.kind.isLayout = true
    · exact ⟨⟨⟨token :: tokens, final, errors, _, rfl⟩, ⟨other :: tokens', final', errors', _, rfl⟩, [], [],
        .nil, by simp, layout, first⟩, rfl, rfl⟩
    · obtain ⟨last, member, ended⟩ := ends
      have later : last ∈ tokens := by
        rcases List.mem_cons.mp member with rfl | later
        · rw [ended] at layout
          exact absurd rfl layout
        · exact later
      obtain ⟨twins, left, right⟩ := ih ⟨last, later, ended⟩
      refine ⟨{ twins with
        leftRun := token :: twins.leftRun
        rightRun := other :: twins.rightRun
        alike := .cons first twins.alike
        written := ?_ }, ?_, ?_⟩
      · intro token' member
        rcases List.mem_cons.mp member with rfl | member
        · simpa using layout
        · exact twins.written token' member
      · refine Cursor.eq_of_parts ?_ ?_ ?_
        · exact congrArg (token :: ·.rest) left
        · exact congrArg (·.final) left
        · exact congrArg (·.errors) left
      · refine Cursor.eq_of_parts ?_ ?_ ?_
        · exact congrArg (other :: ·.rest) right
        · exact congrArg (·.final) right
        · exact congrArg (·.errors) right

end Twins

def Readable (like : Likeness) (expr : Precedence → Parser Expr) : Prop :=
  ∀ precedence, like.Keeps like.expr (expr precedence)

namespace Parser

open Twins

section

variable {twins : Twins like}

theorem modify_drop_succ (width : Nat) :
    (modify (Cursor.drop (width + 1)) : Parser Unit) =
      advance >>= fun _ => modify (Cursor.drop width) := by
  funext cursor
  refine congrArg (EStateM.Result.ok ()) (Cursor.eq_of_parts ?_ rfl rfl)
  change cursor.rest.drop (width + 1) = (cursor.rest.drop 1).drop width
  rw [List.drop_drop, Nat.add_comm]

theorem advance_reads
    (kinds : twins.left.current.kind = .keyword ∨ twins.left.current.kind = .operator) :
    twins.Keeps (fun token other => token = twins.left.current ∧ token.Alike like.line other) advance :=
  .advance (by rcases kinds with kind | kind <;> rw [kind] <;> rfl)

theorem advance_bracket (kind : twins.left.current.kind = .delimiter) :
    twins.Keeps (fun token other => token = twins.left.current ∧ token.Alike like.line other) advance :=
  .advance (by rw [kind]; rfl)

theorem modify_drop_reads {width : Nat}
    (first : twins.left.current.kind = .keyword ∨ twins.left.current.kind = .operator)
    (second : width = 1 ∨ width = 2 ∧ twins.left.peek.kind = .keyword) :
    twins.Keeps (fun _ _ => True) (modify (Cursor.drop width)) := by
  rcases second with rfl | ⟨rfl, next⟩
  · rw [modify_drop_succ]
    exact (advance_reads first).skip (.pure trivial)
  · rw [modify_drop_succ, modify_drop_succ]
    refine .bind_at (advance_reads first) ?_
    intro count _ _ stop _
    have keyword : (twins.skip count).left.current.kind = .keyword := by
      injection stop with _ stop
      rw [← stop, Cursor.current_advance]
      exact next
    exact (advance_reads (.inl keyword)).skip (.pure trivial)

theorem atom_reads {shape : Expr.Shape Expr} (same : Expr.Shape.Alike like.expr shape shape)
    (written : twins.left.current.kind.isLayout = false) :
    twins.Keeps (Expr.Shape.Alike like.expr) (atom shape) :=
  (Reads.advance written).skip (.pure same)

end

theorem tupled_reads {item : Parser Expr} {stop : Token → Bool}
    (blind : ∀ token line, stop { token with line } = stop token) (reads : like.Keeps like.expr item) :
    like.Keeps like.expr
      (do
        let first ← item
        unless ← atDelimiter "," do return first
        let others ← moreItems stop item
        return ⟨first.line, .tuple (first :: others)⟩) := by
  refine .bind reads ?_
  intro first first' alike
  refine .choice (.atDelimiter ",") (.bind (.moreItems blind reads) ?_) (.pure alike)
  intro others others' alikes
  exact .pure (like.expr_intro (like.expr_elim alike).1 (.tuple (.cons alike alikes)))

variable {expr : Precedence → Parser Expr} (reads : Readable like expr)

include reads

theorem expressionList_reads : like.Keeps like.expr (expressionList expr) :=
  tupled_reads (fun _ _ => rfl) (reads _)

theorem targetList_reads : like.Keeps like.expr (targetList expr) :=
  tupled_reads (fun _ _ => rfl) (reads _)

theorem param_reads (kind : ParamKind) (hints fallback : Bool) :
    like.Keeps (Param.Alike like.expr) (param expr kind hints fallback) := by
  refine .bind (.expectIdentifier _ (by simp)) ?_
  rintro name _ rfl
  refine .bind (.whenever (.ite (.acceptDelimiter ":") (.pure rfl)) (reads _)) ?_
  intro hint hint' hints
  refine .bind (.whenever (.ite (.acceptOperator "=") (.pure rfl)) (reads _)) ?_
  intro fallback fallback' fallbacks
  exact .pure (.intro name kind hints fallbacks)

theorem paramEntry_reads (terminator : String) (hints : Bool) :
    like.Keeps (Option.Rel (Param.Alike like.expr)) (paramEntry expr terminator hints) := by
  have named : ∀ kind fallback, like.Keeps (Option.Rel (Param.Alike like.expr))
      (return some (← param expr kind hints fallback)) :=
    fun kind fallback => .bind (param_reads reads kind hints fallback) fun _ _ alike => .pure (.some alike)
  refine .choice (.acceptOperator "/") (.pure .none) ?_
  refine .choice (.acceptOperator "*") ?_ (.choice (.acceptOperator "**") (named _ _) (named _ _))
  refine .bind (.atDelimiter ",") ?_
  rintro comma _ rfl
  refine .bind (.atDelimiter terminator) ?_
  rintro closes _ rfl
  exact .ite (.pure .none) (named _ _)

theorem params_reads (terminator : String) (hints : Bool) :
    like.Keeps (List.Forall₂ (Param.Alike like.expr)) (params expr terminator hints) := by
  refine .bind (.items (fun _ _ => rfl) (paramEntry_reads reads terminator hints)) ?_
  intro entries entries' alikes
  exact .pure (List.rel_filterMap (fun _ _ same => same) alikes)

theorem generator_reads :
    like.Keeps (Option.Rel (Generator.Alike like.expr)) (generator expr) := by
  refine .bind (.acceptKeyword "async") ?_
  rintro isAsync _ rfl
  have unfinished : like.Keeps (Option.Rel (Generator.Alike like.expr)) (unexpected (.symbol "for")) := .unexpected _ (by simp)
  refine .choice (.acceptKeyword "for") ?_ (.ite unfinished (.pure .none))
  refine .bind (targetList_reads reads) ?_
  intro target target' targets
  refine .skip (.expectKeyword "in") (.bind (reads _) ?_)
  intro iterated iterated' iterables
  refine .bind (.many (.whenever (.acceptKeyword "if") (reads _))) ?_
  intro conditions conditions' alikes
  exact .pure (.some (.intro isAsync targets iterables alikes))

theorem generators_reads :
    like.Keeps (List.Forall₂ (Generator.Alike like.expr)) (generators expr) :=
  .many (generator_reads reads)

theorem namedArgument_reads {twins : Twins like} (identifier : twins.left.current.kind = .identifier)
    (assigns : twins.left.peek.isOperator "=" = true) :
    twins.Keeps (Argument.Alike like.expr)
      (do
        let name := (← advance).text
        let _ ← advance
        return ⟨.keyword name, ← expr .lowest⟩) := by
  refine .bind_at (.advance (by rw [identifier]; rfl)) ?_
  intro count token other stop same
  have operator : (twins.skip count).left.current.kind = .operator := by
    simp only [Token.isOperator, Bool.and_eq_true, beq_iff_eq] at assigns
    injection stop with _ stop
    rw [← stop, Cursor.current_advance]
    exact assigns.1
  refine (advance_reads (.inr operator)).skip (.bind (reads _) ?_)
  intro value value' alike
  rw [same.2.text]
  exact .pure (.intro _ alike)

theorem argument_reads : like.Keeps (Argument.Alike like.expr) (argument expr) := by
  have valued : ∀ kind, like.Keeps (Argument.Alike like.expr) (return ⟨kind, ← expr .lowest⟩) :=
    fun kind => .bind (reads _) fun _ _ alike => .pure (.intro kind alike)
  refine .choice (.acceptOperator "*") (valued _) (.choice (.acceptOperator "**") (valued _) ?_)
  intro twins
  have kinds := twins.current_alike.test (·.kind) fun _ _ => rfl
  refine .current (.peek (rel_ite ?_ ?_ ?_))
  · rw [kinds]
    refine and_congr_right ?_
    intro identifier
    have written : twins.left.current.kind.isLayout = false := by rw [identifier]; rfl
    rw [(peek_alike written).test (·.isOperator "=") fun _ _ => rfl]
  · rintro ⟨identifier, assigns⟩
    exact namedArgument_reads reads identifier assigns
  · intro _
    refine .bind (reads _ twins) ?_
    intro value value' alike
    refine .tested (fun _ _ => rfl) (.bind (generators_reads reads) ?_) (.pure (.intro _ alike))
    intro loops loops' alikes
    exact .pure (.intro _ (like.expr_intro (like.expr_elim alike).1 (.generatorExp alike alikes)))

theorem arguments_reads :
    like.Keeps (List.Forall₂ (Argument.Alike like.expr)) (arguments expr) :=
  .bind (.items (fun _ _ => rfl) (argument_reads reads)) fun _ _ alikes => .closed ")" alikes

theorem sliceBound_reads : like.Keeps (Option.Rel like.expr) (sliceBound expr) := by
  refine .bind (.atDelimiter ":") ?_
  rintro colon _ rfl
  refine .bind (.atDelimiter "]") ?_
  rintro closes _ rfl
  refine .bind (.atDelimiter ",") ?_
  rintro comma _ rfl
  exact .ite (.pure .none) (.bind (reads _) fun _ _ alike => .pure (.some alike))

theorem sliceItem_reads : like.Keeps like.expr (sliceItem expr) := by
  refine .bind .line ?_
  intro line line' lines
  refine .bind (sliceBound_reads reads) ?_
  intro lower lower' lowers
  refine .choice (.acceptDelimiter ":") (.bind (sliceBound_reads reads) ?_) ?_
  · intro upper upper' uppers
    have last : ∀ step step', Option.Rel like.expr step step' → like.Reads like.expr
        (pure ⟨line, .slice lower upper step⟩) (pure ⟨line', .slice lower' upper' step'⟩) :=
      fun _ _ steps => .pure (like.expr_intro lines (.slice lowers uppers steps))
    exact .choice (.acceptDelimiter ":") (.bind (sliceBound_reads reads) last) (last _ _ .none)
  · cases lowers with
    | some alike => exact .pure alike
    | none => exact .unexpected _ (by simp)

theorem subscriptIndex_reads : like.Keeps like.expr (subscriptIndex expr) :=
  tupled_reads (fun _ _ => rfl) (sliceItem_reads reads)

theorem tail_reads {twins : Twins like} {continuation : Continuation}
    (found : Continuation.ofTokens twins.left.current twins.left.peek = some continuation) :
    twins.Keeps (Tail.Alike like) (tail expr continuation) := by
  have spelled := Continuation.spelled found
  cases continuation with
  | call =>
    refine (advance_bracket spelled.1).skip (.bind (arguments_reads reads) ?_)
    intro args args' alikes
    exact .pure (.call alikes)
  | subscript =>
    refine (advance_bracket spelled.1).skip (.bind (subscriptIndex_reads reads) ?_)
    intro index index' alike
    exact .closed "]" (.subscript alike)
  | «attribute» =>
    refine (advance_reads spelled).skip (.bind (.expectIdentifier _ (by simp)) ?_)
    rintro name _ rfl
    exact .pure (.attribute name)
  | conditional =>
    refine (advance_reads spelled).skip (.bind (reads _) ?_)
    intro test test' tests
    refine .skip (.expectKeyword "else") (.bind (reads _) ?_)
    intro orelse orelse' others
    exact .pure (.conditional tests others)
  | operator op =>
    refine (modify_drop_reads spelled.1 spelled.2).skip (.bind (reads _) ?_)
    intro right right' alike
    exact .pure (.operator op alike)

theorem tail?_reads (precedence : Precedence) :
    like.Keeps (Option.Rel (Tail.Alike like)) (tail? expr precedence) := by
  intro twins
  refine .current (.peek ?_)
  rw [Continuation.ofTokens_alike twins.current_alike peek_alike]
  cases found : Continuation.ofTokens twins.left.current twins.left.peek with
  | none => exact Likeness.Reads.pure .none twins
  | some continuation =>
    refine rel_ite Iff.rfl ?_ fun _ => Likeness.Reads.pure .none twins
    intro _
    exact (tail_reads reads found).bind fun _ _ alike => .pure (.some alike)

theorem yieldValue_reads {twins : Twins like} (keyword : twins.left.current.kind = .keyword) :
    twins.Keeps (Expr.Shape.Alike like.expr) (yieldValue expr) := by
  refine (advance_reads (.inl keyword)).skip (.choice (.acceptKeyword "from") ?_ (.tested (fun _ _ => rfl) ?_ ?_))
  · exact .bind (reads _) fun _ _ alike => .pure (.yield (.some alike) true)
  · exact .bind (expressionList_reads reads) fun _ _ alike => .pure (.yield (.some alike) false)
  · exact .pure (.yield .none false)

theorem parenthesized_reads {line line' : Nat} (lines : like.line line line') :
    like.Reads like.expr (parenthesized expr line) (parenthesized expr line') := by
  refine .choice (.acceptDelimiter ")") (.pure (like.expr_intro lines (.tuple .nil))) (.atKeyword ?_ (.bind (reads _) ?_))
  · intro twins yields
    unfold Parser.line
    simp only [bind_assoc, pure_bind]
    refine .current (.bind (yieldValue_reads reads (Token.kind_of_isKeyword yields)) ?_)
    intro shape shape' shapes
    exact .closed ")" (like.expr_intro twins.current_alike.line shapes)
  · intro first first' alike
    refine .tested (fun _ _ => rfl) (.bind (generators_reads reads) ?_) (.choice (.atDelimiter ",") ?_ ?_)
    · intro loops loops' alikes
      exact .closed ")" (like.expr_intro lines (.generatorExp alike alikes))
    · refine .bind (.moreItems (fun _ _ => rfl) (reads _)) ?_
      intro others others' alikes
      exact .closed ")" (like.expr_intro lines (.tuple (.cons alike alikes)))
    · exact .closed ")" alike

theorem listDisplay_reads :
    like.Keeps (Expr.Shape.Alike like.expr) (listDisplay expr) := by
  refine .choice (.acceptDelimiter "]") (.pure (.list .nil)) (.bind (reads _) ?_)
  intro first first' alike
  refine .tested (fun _ _ => rfl) (.bind (generators_reads reads) ?_)
    (.bind (.moreItems (fun _ _ => rfl) (reads _)) ?_)
  · intro loops loops' alikes
    exact .closed "]" (.listComp alike alikes)
  · intro others others' alikes
    exact .closed "]" (.list (.cons alike alikes))

theorem dictEntry_reads : like.Keeps (DictEntry.Alike like.expr) (dictEntry expr) := by
  refine .choice (.acceptOperator "**") ?_ (.bind (reads _) ?_)
  · exact .bind (reads _) fun _ _ alike => .pure (.intro .none alike)
  · intro key key' keys
    refine .skip (.expectDelimiter ":") (.bind (reads _) ?_)
    intro value value' alike
    exact .pure (.intro (.some keys) alike)

theorem dictEntries_reads :
    like.Keeps (List.Forall₂ (DictEntry.Alike like.expr)) (dictEntries expr) :=
  .bind (.items (fun _ _ => rfl) (dictEntry_reads reads)) fun _ _ alikes => .closed "\x7d" alikes

theorem dictAfterKey_reads {key key' : Expr} (keys : like.expr key key') :
    like.Reads (Expr.Shape.Alike like.expr) (dictAfterKey expr key) (dictAfterKey expr key') := by
  refine .bind (reads _) ?_
  intro value value' alike
  refine .tested (fun _ _ => rfl) (.bind (generators_reads reads) ?_)
    (.choice (.acceptDelimiter ",") (.bind (dictEntries_reads reads) ?_) ?_)
  · intro loops loops' alikes
    exact .closed "\x7d" (.dictComp keys alike alikes)
  · intro entries entries' alikes
    exact .pure (.dict (.cons (.intro (.some keys) alike) alikes))
  · exact .closed "\x7d" (.dict (.cons (.intro (.some keys) alike) .nil))

theorem braceDisplay_reads :
    like.Keeps (Expr.Shape.Alike like.expr) (braceDisplay expr) := by
  refine .choice (.acceptDelimiter "\x7d") (.pure (.dict .nil))
    (.choice (.atOperator "**") (.bind (dictEntries_reads reads) ?_) (.bind (reads _) ?_))
  · intro entries entries' alikes
    exact .pure (.dict alikes)
  · intro first first' alike
    refine .choice (.acceptDelimiter ":") (dictAfterKey_reads reads alike) (.tested (fun _ _ => rfl)
      (.bind (generators_reads reads) ?_) (.bind (.moreItems (fun _ _ => rfl) (reads _)) ?_))
    · intro loops loops' alikes
      exact .closed "\x7d" (.setComp alike alikes)
    · intro others others' alikes
      exact .closed "\x7d" (.set (.cons alike alikes))

theorem wholeText_reads : like.Keeps like.expr (wholeText expr) := by
  refine .bind (expressionList_reads reads) ?_
  intro value value' alike twins
  apply Reads.current
  rw [twins.current_alike.test (·.kind) fun _ _ => rfl]
  split
  · exact Likeness.Reads.pure alike twins
  · exact Likeness.Reads.pure alike twins
  · exact Likeness.Reads.unexpected _ (by simp) twins

theorem replacement_reads (text : String) {line line' : Nat} (lines : like.line line line') :
    like.Reads like.expr (replacement expr text line) (replacement expr text line') := by
  have tokens := Scanner.ofText_alike like.later text lines
  have ends := Scanner.exists_endOfInput (Scanner.start text.toList line)
  obtain ⟨inner, left_eq, right_eq⟩ := exists_of_tokens tokens ends
    (Cursor.ofTokens (Token.ofText text line)).final (Cursor.ofTokens (Token.ofText text line')).final [] []
  have left_eq : inner.left = Cursor.ofTokens (Token.ofText text line) := left_eq
  have right_eq : inner.right = Cursor.ofTokens (Token.ofText text line') := right_eq
  rw [replacement, replacement, ← left_eq, ← right_eq]
  exact .apart (wholeText_reads reads inner)

theorem formattedPart_reads {piece piece' : Piece} (pieces : piece.Alike like.line piece') :
    like.Reads (FormattedPart.Alike like.expr) (formattedPart expr piece) (formattedPart expr piece') := by
  cases pieces with
  | literal text => exact .pure (.literal _)
  | replacement text line =>
    exact .bind (replacement_reads reads (String.ofList text) line) fun _ _ alike => .pure (.value alike)
  | broken cause line plain =>
    exact .throw ⟨line, .same cause plain⟩ (SyntaxError.strandsIndent_of_plain plain)

theorem stringPiece_reads :
    like.Keeps (Option.Rel (StringPiece.Alike like)) (stringPiece expr) := by
  intro twins
  apply Reads.current
  rw [twins.current_alike.test (·.isString) fun _ _ => rfl]
  refine rel_ite Iff.rfl ?_ fun _ => Likeness.Reads.pure .none twins
  intro string
  have kinds : twins.left.current.kind = .string ∨ twins.left.current.kind = .formattedString := by
    simpa only [Token.isString, Bool.or_eq_true, beq_iff_eq] using string
  refine .bind (.advance (by rcases kinds with kind | kind <;> rw [kind] <;> rfl)) ?_
  rintro token other ⟨_, alike⟩
  rw [alike.kind, alike.text]
  have parts := Piece.ofBody_alike other.text.toList alike.line
  refine .ite (.pure (.some (.plain _))) (.bind (.mapM parts fun _ _ => formattedPart_reads reads) ?_)
  intro parts parts' alikes
  exact .pure (.some (.formatted alikes))

theorem strings_reads : like.Keeps (Expr.Shape.Alike like.expr) (strings expr) :=
  .bind (.many (stringPiece_reads reads)) fun _ _ alikes => .pure (StringPiece.joined_alike alikes)

section

variable {twins : Twins like}

theorem signed_reads (operator : twins.left.current.kind = .operator) (symbol : String) :
    twins.Keeps (Expr.Shape.Alike like.expr) (signed expr symbol) := by
  unfold signed
  split
  · exact (advance_reads (.inr operator)).skip (.bind (reads _) fun _ _ alike => .pure (.unary _ alike))
  · split
    · exact (advance_reads (.inr operator)).skip (.bind (reads _) fun _ _ alike => .pure (.starred alike))
    · exact (advance_reads (.inr operator)).skip (.pure (.identifier _))
    · exact Likeness.Reads.unexpected _ (by simp) twins

theorem worded_reads (keyword : twins.left.current.kind = .keyword) (word : String) :
    twins.Keeps (Expr.Shape.Alike like.expr) (worded expr word) := by
  unfold worded
  split
  · exact (advance_reads (.inl keyword)).skip (.bind (reads _) fun _ _ alike => .pure (.unary _ alike))
  · refine (advance_reads (.inl keyword)).skip (.bind (params_reads reads ":" false) ?_)
    intro params params' alikes
    refine .skip (.expectDelimiter ":") (.bind (reads _) ?_)
    intro body body' alike
    exact .pure (.lambda alikes alike)
  · exact (advance_reads (.inl keyword)).skip (.bind (reads _) fun _ _ alike => .pure (.await alike))
  · exact yieldValue_reads reads keyword
  · exact Likeness.Reads.unexpected _ (by simp) twins

end

theorem operand_reads : like.Keeps like.expr (operand expr) := by
  intro twins
  have alike := twins.current_alike
  have located : ∀ {parser parser' : Parser (Expr.Shape Expr)},
      twins.Reads (Expr.Shape.Alike like.expr) parser parser' →
      twins.Reads like.expr (return ⟨twins.left.current.line, ← parser⟩)
        (return ⟨twins.right.current.line, ← parser'⟩) :=
    fun shapes => shapes.bind fun _ _ same => .pure (like.expr_intro alike.line same)
  apply Reads.current
  rw [← alike.kind, ← alike.text]
  cases kind : twins.left.current.kind with
  | identifier => exact located (atom_reads (.identifier _) (by rw [kind]; rfl))
  | integer =>
    cases Token.integer? twins.left.current.text with
    | some value => exact located (atom_reads (.int _) (by rw [kind]; rfl))
    | none => exact Likeness.Reads.fail _ (by simp) twins
  | float =>
    cases Number.float? twins.left.current.text.toList with
    | some value => exact located (atom_reads (.float _) (by rw [kind]; rfl))
    | none => exact Likeness.Reads.fail _ (by simp) twins
  | string => exact located (strings_reads reads twins)
  | formattedString => exact located (strings_reads reads twins)
  | boolean => exact located (atom_reads (.bool _) (by rw [kind]; rfl))
  | none => exact located (atom_reads .none (by rw [kind]; rfl))
  | operator => exact located (signed_reads reads kind _)
  | keyword => exact located (worded_reads reads kind _)
  | delimiter =>
    have inner : ∀ {parser : Parser (Expr.Shape Expr)}, like.Keeps (Expr.Shape.Alike like.expr) parser →
        like.Reads like.expr (return ⟨twins.left.current.line, ← parser⟩)
          (return ⟨twins.right.current.line, ← parser⟩) :=
      fun shapes => shapes.bind fun _ _ same => .pure (like.expr_intro alike.line same)
    dsimp only
    split
    · exact (advance_bracket kind).skip (parenthesized_reads reads alike.line)
    · exact (advance_bracket kind).skip (inner (listDisplay_reads reads))
    · exact (advance_bracket kind).skip (inner (braceDisplay_reads reads))
    · exact Likeness.Reads.unexpected _ (by simp) twins
  | newline | indent | dedent | illegal | endOfInput => exact Likeness.Reads.unexpected _ (by simp) twins

theorem operators_reads (precedence : Precedence) :
    like.Keeps like.expr (operators expr precedence) := by
  refine .bind (operand_reads reads) ?_
  intro first first' alike
  refine .bind (.many (tail?_reads reads precedence)) ?_
  intro tails tails' alikes
  have refused : like.Keeps like.expr (fail .assignmentExpression) :=
    .fail _ (by simp)
  exact .choice (.atOperator ":=") refused (.pure (Expr.foldl_extend_alike alikes alike))

end Parser

theorem Parser.expression_readable (like : Likeness) (depth : Nat) :
    Readable like (Parser.expression depth) := by
  induction depth with
  | zero => exact fun precedence => .fail _ (by simp)
  | succ depth ih => exact operators_reads ih

end SourceAudit
