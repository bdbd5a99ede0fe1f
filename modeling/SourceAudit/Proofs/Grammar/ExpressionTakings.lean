import SourceAudit.Proofs.Grammar.PieceLines
import SourceAudit.Proofs.Grammar.Service

open List

namespace SourceAudit

def Tail.parts : Tail → List Expr
  | .call args => args.map (·.value)
  | .subscript index => [index]
  | .attribute _ => []
  | .conditional test orelse => [test, orelse]
  | .operator _ right => [right]

def Tail.names : Tail → List String
  | .call args => args.flatMap Argument.names
  | .subscript index => index.names
  | .attribute name => [name]
  | .conditional test orelse => test.names ++ orelse.names
  | .operator _ right => right.names

def Tail.Fits : Tail → Prop
  | .subscript index => (Node.expr index).Sound
  | tail => tail.parts.Forall Expr.Whole

def Expr.Shape.tally (line : Nat) (shape : Shape Expr) : Tally :=
  ⟨shape.names, Expr.lines shape.children, (⟨line, shape⟩ : Expr).site?.toList ++ Expr.sites shape.children, shape.Fits⟩

/-- A parameter with a type hint only if `hints` holds. -/
def Param.tally (hints : Bool) (param : Param Expr) : Tally :=
  ⟨param.names, Expr.lines param.children, Expr.sites param.children,
    param.IsWellShaped ∧ (hints = false → param.hint.isNone) ∧ param.children.Forall Expr.Whole⟩

def Expr.tallies (values : List Expr) : Tally :=
  ⟨values.flatMap Expr.names, lines values, sites values, values.Forall Whole⟩

def Generator.tally (loop : Generator Expr) : Tally := Expr.tallies loop.children

def DictEntry.tally (entry : DictEntry Expr) : Tally := Expr.tallies entry.children

def Argument.tally (arg : Argument Expr) : Tally :=
  ⟨arg.names, Expr.lines [arg.value], Expr.sites [arg.value], arg.value.Whole⟩

def Tail.tally (tail : Tail) : Tally := ⟨tail.names, Expr.lines tail.parts, Expr.sites tail.parts, tail.Fits⟩

def StringPiece.values (piece : StringPiece) : List Expr := piece.parts.flatMap (·.children)

def StringPiece.tally (piece : StringPiece) : Tally := Expr.tallies piece.values

namespace Expr

theorem lines_extend (left : Expr) (tail : Tail) :
    lines [left.extend tail] = left.line :: (lines [left] ++ lines tail.parts) := by
  cases tail <;> simp [extend, Tail.parts, Shape.children]

theorem climb_foldl {tails : List Tail} {left : Expr} {low high : Nat}
    (climb : Climb low (lines [left] ++ tails.flatMap fun tail => lines tail.parts) high) :
    Climb low (lines [tails.foldl extend left]) high := by
  induction tails generalizing left with
  | nil => simpa using climb
  | cons tail tails ih =>
    refine ih ?_
    rw [lines_extend]
    simpa using climb

theorem names_foldl (tails : List Tail) (left : Expr) :
    (tails.foldl extend left).names = left.names ++ tails.flatMap Tail.names := by
  have step : ∀ (left : Expr) (tail : Tail), (left.extend tail).names = left.names ++ tail.names := by
    intro left tail
    cases tail <;> simp [extend, Shape.names, Shape.entries, Shape.children, Tail.names]
  induction tails generalizing left with
  | nil => simp
  | cons tail tails ih => simp [ih, step]

theorem sites_foldl (tails : List Tail) (left : Expr) :
    sites [tails.foldl extend left] = sites [left] ++ tails.flatMap fun tail => sites tail.parts := by
  have step : ∀ (left : Expr) (tail : Tail), sites [left.extend tail] = sites [left] ++ sites tail.parts := by
    intro left tail
    cases tail <;> simp [extend, Tail.parts, Shape.children]
  induction tails generalizing left with
  | nil => simp
  | cons tail tails ih => rw [foldl_cons, ih, step, flatMap_cons, append_assoc]

theorem whole_foldl {tails : List Tail} {left : Expr} (first : left.Whole) (each : tails.Forall Tail.Fits) :
    (tails.foldl extend left).Whole := by
  have step : ∀ {left : Expr} {tail : Tail}, left.Whole → tail.Fits → (left.extend tail).Whole := by
    intro left tail first goes
    cases tail <;> simp_all [extend, Tail.Fits, Tail.parts, Shape.Fits, Shape.IsWellShaped, Shape.children]
  induction tails generalizing left with
  | nil => exact first
  | cons tail tails ih =>
    rw [forall_cons] at each
    exact ih (step first each.1) each.2

end Expr

theorem FormattedPart.children_join (parts : List (FormattedPart Expr)) :
    (parts.foldr join []).flatMap (·.children) = parts.flatMap (·.children) := by
  have same : ∀ (part : FormattedPart Expr) rest,
      (join part rest).flatMap (·.children) = part.children ++ rest.flatMap (·.children) := by
    intro part rest
    unfold join
    split <;> simp [children]
  induction parts with
  | nil => rfl
  | cons part parts ih => rw [foldr_cons, same, flatMap_cons, ih]

/-- Literals that meet are joined, so no two are left next to each other. -/
theorem FormattedPart.isChain_join (parts : List (FormattedPart Expr)) : (parts.foldr join []).IsChain Apart := by
  induction parts with
  | nil => exact .nil
  | cons part parts ih =>
    rw [foldr_cons]
    generalize parts.foldr join [] = rest at ih
    fun_cases join part rest with
    | case1 text next rest =>
      cases rest with
      | nil => exact .singleton _
      | cons first rest =>
        obtain ⟨apart, chain⟩ := isChain_cons_cons.mp ih
        refine isChain_cons_cons.mpr ⟨?_, chain⟩
        cases first <;> exact apart
    | case2 part rest other =>
      cases rest with
      | nil => exact .singleton _
      | cons first rest =>
        refine isChain_cons_cons.mpr ⟨?_, ih⟩
        cases part with
        | value => trivial
        | literal text =>
          cases first with
          | value => trivial
          | literal next => exact other text next rest rfl rfl

theorem StringPiece.children_joined (pieces : List StringPiece) : (joined pieces).children = pieces.flatMap values := by
  unfold joined
  split
  · rw [Expr.Shape.children, FormattedPart.children_join, flatMap_assoc]
    rfl
  · rename_i plain
    have none : pieces.flatMap values = [] := by
      refine flatMap_eq_nil_iff.mpr fun piece member => ?_
      cases piece with
      | plain text => simp [values, parts, FormattedPart.children]
      | formatted parts => exact absurd (any_eq_true.mpr ⟨_, member, rfl⟩) plain
    rw [none, Expr.Shape.children]

theorem StringPiece.tally_joined (line : Nat) (pieces : List StringPiece) :
    (joined pieces).tally line = .all tally pieces := by
  have named : (joined pieces).names = (joined pieces).children.flatMap Expr.names := by
    unfold joined
    split <;> simp [Expr.Shape.names, Expr.Shape.entries, Expr.Shape.children]
  have other : (⟨line, joined pieces⟩ : Expr).site? = none := by
    unfold joined
    split <;> rfl
  have fits : (joined pieces).Fits ↔ (joined pieces).children.Forall Expr.Whole := by
    unfold joined
    split <;> simp [Expr.Shape.Fits, Expr.Shape.IsWellShaped, FormattedPart.isChain_join]
  rw [Expr.Shape.tally, fits, named, other, children_joined]
  simp [Tally.all, tally, Expr.tallies, forall_flatMap, flatMap_assoc]

namespace Parser

attribute [local simp] Expr.Shape.names Expr.Shape.entries Expr.Shape.children Param.children
  DictEntry.children Generator.children Tail.names Tail.parts FormattedPart.children
  Expr.tallied Expr.tally Expr.tallies Expr.Shape.tally Param.tally Generator.tally DictEntry.tally Argument.tally Tail.tally
  StringPiece.tally Tally.all Tally.nothing Tally.rule Tally.named Tally.line
  Expr.Shape.Fits Expr.Shape.IsWellShaped Tail.Fits forall_flatMap and_assoc Function.comp_def

variable {expr : Precedence → Parser Expr} {cursor : Cursor} {owed : List String} {line : Nat}

theorem tupled_serves {item : Parser Expr} {led : Prop} {part whole : Expr → Prop} (stop : Token → Bool)
    (reads : ∀ cursor, Serves .line cursor owed owed .nothing (Expr.tallied part) (fun _ => led) item)
    (single : ∀ value, part value → whole value)
    (tuple : ∀ line items, items.Forall part → whole ⟨line, .tuple items⟩) :
    Serves .line cursor owed owed .nothing (Expr.tallied whole) (fun _ => led) (do
      let first ← item
      unless ← atDelimiter "," do return first
      let others ← moreItems stop item
      return ⟨first.line, .tuple (first :: others)⟩) := by
  refine .bind_of (reads _) (fun first _ => .ask (.ite (fun _ => ?_) fun _ => .pure_of (fun _ => rfl) id (.inl rfl)
    (single first))) fun _ _ => .inl
  refine (Serves.moreItems stop reads).next fun others _ =>
    .pure_of (fun _ => by simp) (fun climb => ?_) (.inl ?_) fun sound => tuple first.line (first :: others) ?_
  · simpa using climb
  · simp
  · simpa using sound

section

variable (reads : ReadsExpr expr)

include reads

theorem expressionList_serves : Gains cursor owed Expr.tally (expressionList expr) :=
  tupled_serves _ (fun _ => reads.gains .lowest) (fun _ => id) fun _ _ each => by simpa using each

theorem targetList_serves : Gains cursor owed Expr.tally (targetList expr) :=
  tupled_serves _ (fun _ => reads.gains .relational) (fun _ => id) fun _ _ each => by simpa using each

theorem whenever_flag_serves {flag : Bool} {test : Token → Bool}
    (turns : ∀ token, test token = true → token.Turns owed owed) :
    Spans cursor owed (fun value => .rule (flag = false → value = none) ++ .all Expr.tally value.toList)
      (whenever (if flag then accept test else return false) (expr .lowest)) := by
  cases flag with
  | false => exact .pure (by simp)
  | true => exact (Serves.whenever turns fun _ => reads.gains .lowest).reads.like fun _ => by simp

theorem param_serves {kind : ParamKind} (hints : Bool) {fallback : Bool} (only : kind ≠ .normal → fallback = false) :
    Spans cursor owed (Param.tally hints) (param expr kind hints fallback) := by
  refine .expectIdentifier _ ((whenever_flag_serves reads fun _ => .delimiter rfl).next fun hint _ => ?_)
  refine (whenever_flag_serves reads fun _ => .operator (.inr (by decide))).next fun value _ => ?_
  refine .pure_of (fun _ => by simp [Param.names]) (fun climb => by simpa using climb) (.inl (by simp)) fun sound => ?_
  simp only [Tally.nothing, Tally.rule, Tally.named, Tally.append_eq, Tally.all, true_and] at sound
  exact ⟨fun other => sound.2.1 (only other), by simpa using sound.1.1, by simpa using ⟨sound.1.2, sound.2.2⟩⟩

theorem paramEntry_serves (terminator : String) (hints : Bool) :
    Spans cursor owed (fun entry => .all (Param.tally hints) entry.toList) (paramEntry expr terminator hints) := by
  have named : ∀ {cursor : Cursor} (kind : ParamKind) (fallback : Bool), (kind ≠ .normal → fallback = false) →
      Spans cursor owed (fun entry => .all (Param.tally hints) entry.toList)
        (do return some (← param expr kind hints fallback)) :=
    fun kind fallback only => (param_serves reads hints only).next fun param _ => .pure (by simp)
  have none : ∀ {cursor : Cursor}, Spans cursor owed (fun entry => .all (Param.tally hints) entry.toList) (return none) :=
    .pure rfl
  refine .acceptOperator "/" (.inr (by decide)) (fun _ => none) fun _ => ?_
  refine .acceptOperator "*" (.inr (by decide)) (fun _ => ?_) fun _ => ?_
  · exact .ask (.ask (.ite (fun _ => none) fun _ => named .variadic false fun _ => rfl))
  · refine .acceptOperator "**" (.inr (by decide)) (fun _ => named .keywords false fun _ => rfl) fun _ => ?_
    exact named .normal true fun other => absurd rfl other

theorem params_serves (terminator : String) (hints : Bool) :
    Spans cursor owed (.all (Param.tally hints)) (params expr terminator hints) := by
  refine (Serves.items _ fun _ => paramEntry_serves reads terminator hints).next fun entries _ => .pure ?_
  simp [filterMap_eq_flatMap_toList, flatMap_assoc]

theorem condition_serves :
    Steps .line cursor owed Expr.tally (whenever (acceptKeyword "if") (expr .conditional)) :=
  .whenever (fun _ => .keyword (.inr (by decide))) fun _ => reads.gains .conditional

theorem generator_serves (starts : Prop) (found : starts → cursor.current.startsGenerator = true) :
    Serves .line cursor owed owed .nothing
      (fun loop => .all Generator.tally loop.toList ++ .rule (starts → loop.toList ≠ [])) (·.isSome) (generator expr) := by
  have loop : ∀ {later : Cursor} (isAsync : Bool),
      Spans later owed (fun loop => .all Generator.tally loop.toList ++ .rule (starts → loop.toList ≠ [])) (do
        let target ← targetList expr
        expectKeyword "in"
        let iterated ← expr .conditional
        let conditions ← many (whenever (acceptKeyword "if") (expr .conditional))
        return some ⟨target, iterated, conditions, isAsync⟩) := by
    intro later isAsync
    refine (targetList_serves reads).next fun target _ => .expectKeyword "in" (.inr (by decide)) ?_
    refine (reads.gains .conditional).next fun iterated _ => ?_
    exact (Serves.many fun _ => condition_serves reads).next fun conditions _ => .pure (by simp)
  refine .acceptKeyword "async" (.inr (by decide)) (fun _ => ?_) fun plain => ?_
  · exact .acceptKeyword "for" (.inr (by decide)) (fun _ => loop true) fun _ => .refused _
  · refine .acceptKeyword "for" (.inr (by decide)) (fun _ => loop false) fun other => ?_
    have idle : ¬ starts := fun holds => by simpa [Token.startsGenerator, plain, other] using found holds
    exact .stopped (by simp [idle]) (by simp)

theorem generator_steps : Steps .line cursor owed Generator.tally (generator expr) :=
  (generator_serves reads False False.elim).like fun _ => by simp

theorem generators_serves (starts : cursor.current.startsGenerator = true) :
    Spans cursor owed (fun loops => .all Generator.tally loops ++ .rule (loops ≠ [])) (generators expr) := by
  refine .many_first ((generator_serves reads True fun _ => starts).reads.like fun _ => ?_)
    (fun _ _ => .many fun _ => generator_steps reads) ?_
  · simp
  · simp

theorem argument_serves : Spans cursor owed Argument.tally (argument expr) := by
  have value : ∀ {later : Cursor} (kind : ArgumentKind),
      Serves .line later owed owed (.named kind.names) Argument.tally (fun _ => False)
        (do return ⟨kind, ← expr .lowest⟩) :=
    fun kind => (reads.gains .lowest).next fun value _ => .pure (by simp [Argument.names])
  refine .acceptOperator "*" (.inr (by decide)) (fun _ => value .star) fun _ => ?_
  refine .acceptOperator "**" (.inr (by decide)) (fun _ => value .doubleStar) fun _ => ?_
  refine .current (.peek (.ite (fun keyword => ?_) fun _ => ?_))
  · have equals : cursor.advance.current.isOperator "=" = true := by
      rw [Cursor.current_advance]
      exact keyword.2
    have rest : Serves .line cursor.advance owed owed (.named [cursor.current.text]) Argument.tally
        (fun _ => False) (advance >>= fun _ => do return ⟨.keyword cursor.current.text, ← expr .lowest⟩) :=
      .taken (.operator (.inr (by decide)) equals) (value (.keyword cursor.current.text))
    have passes : cursor.Passes .line cursor.advance owed owed .nothing _ := .identifier keyword.1 owed .nothing
    rw [Tally.nothing_append] at passes
    exact Serves.advance (by simp [keyword.1]) passes rest
  · refine (reads.gains .lowest).next fun first _ => .current (.ite (fun starts => ?_) fun _ => ?_)
    · refine (generators_serves reads starts).next fun loops _ => .pure_of (fun _ => ?_) (fun climb => ?_) (.inl ?_) ?_
      · simp [flatMap_assoc, Argument.names, ArgumentKind.names]
      · simpa using climb
      · simp
      · simp +contextual
    · exact .pure (by simp [Argument.names, ArgumentKind.names])

theorem arguments_serves :
    Serves .line cursor (")" :: owed) owed .nothing (.all Argument.tally) (fun _ => False) (arguments expr) :=
  (Serves.items _ fun _ => argument_serves reads).next fun _ _ => .expectDelimiter ")" rfl (.pure (by simp))

theorem sliceBound_serves : Spans cursor owed (fun bound => .all Expr.tally bound.toList) (sliceBound expr) := by
  refine .ask (.ask (.ask (.ite (fun _ => .pure rfl) fun _ => ?_)))
  exact (reads.gains .lowest).next fun value _ => .pure (by simp)

theorem sliceItem_serves : Spans cursor owed (Expr.tallied Expr.Ranges) (sliceItem expr) := by
  refine .line ((sliceBound_serves reads).next fun lower _ => .acceptDelimiter ":" rfl (fun _ => ?_) fun _ => ?_)
  · refine (sliceBound_serves reads).next fun upper _ => ?_
    have last : ∀ (step : Option Expr) (stop : Cursor), Serves .line stop owed owed
        (.nothing ++ .line cursor.current.line ++ .all Expr.tally lower.toList ++
          .all Expr.tally upper.toList ++ .all Expr.tally step.toList)
        (Expr.tallied Expr.Ranges) (fun _ => False) (pure ⟨cursor.current.line, .slice lower upper step⟩) :=
      fun step stop => .pure (by simp)
    have none : ∀ {stop : Cursor}, Spans stop owed (fun step => .all Expr.tally step.toList) (pure none) := .pure rfl
    exact .acceptDelimiter ":" rfl (fun _ => (sliceBound_serves reads).next last) fun _ => none.next last
  · cases lower with
    | none => exact .unexpected _
    | some index =>
      refine .pure_of (fun _ => by simp) (fun climb => ?_) (.inl (by simp)) fun sound => ?_
      · simpa using climb.sublist (sublist_append_right _ _)
      · exact Expr.Whole.ranges (by simpa using sound)

theorem subscriptIndex_serves :
    Spans cursor owed (Expr.tallied fun value => (Node.expr value).Sound) (subscriptIndex expr) :=
  tupled_serves _ (fun _ => sliceItem_serves reads) (fun _ ranges => ranges.2) fun _ _ => Expr.sound_tuple

theorem tail_serves {continuation : Continuation}
    (found : Continuation.ofTokens cursor.current cursor.peek = some continuation) :
    Gains cursor owed Tail.tally (tail expr continuation) := by
  have spelled := Continuation.spelled found
  cases continuation with
  | call =>
    have opens : cursor.current.isDelimiter "(" = true := by
      simpa [Token.isDelimiter, Continuation.Spelled] using spelled
    exact .taken (.delimiter rfl opens) ((arguments_serves reads).next fun args _ => .pure (by simp))
  | subscript =>
    have opens : cursor.current.isDelimiter "[" = true := by
      simpa [Token.isDelimiter, Continuation.Spelled] using spelled
    refine .taken (.delimiter rfl opens) ((subscriptIndex_serves reads).next fun index _ => ?_)
    exact .expectDelimiter "]" rfl (.pure (by simp))
  | «attribute» => exact .pointed _ spelled (Continuation.breaksOut_eq_false found) fun name _ => .pure (by simp)
  | conditional =>
    refine .taken (.word (.inr (Continuation.fitsInside found (by simp))) spelled) ?_
    refine (reads.gains .conditional).next fun test _ => .expectKeyword "else" (.inr (by decide)) ?_
    exact (reads.gains .lowest).next fun orelse _ => .pure (by simp)
  | operator op =>
    have rest : ∀ stop, Spans stop owed Tail.tally (do return .operator op (← expr op.rightPrecedence)) :=
      fun stop => (reads.gains op.rightPrecedence).next fun right _ => .pure (by simp)
    obtain ⟨passes, less⟩ := Cursor.Passes.operator found owed .nothing
    have whole : cursor.Fits .line owed owed .nothing Tail.tally (fun _ => True) _ :=
      Serves.following passes (fun _ : True => less) (rest _) fun _ _ => .inl trivial
    exact whole

theorem tail?_serves (precedence : Precedence) : Steps .line cursor owed Tail.tally (tail? expr precedence) := by
  refine .current (.peek ?_)
  cases found : Continuation.ofTokens cursor.current cursor.peek with
  | none => exact .ended (by simp)
  | some continuation =>
    refine .ite (fun _ => ?_) fun _ => .ended (by simp)
    exact (tail_serves reads found).lead fun tail _ => .pure (by simp)

theorem yieldValue_serves (line : Nat) (word : cursor.current.isKeyword "yield" = true) :
    Gains cursor owed (Expr.Shape.tally line) (yieldValue expr) := by
  refine .taken (.keyword (.inr (by decide)) word) (.acceptKeyword "from" (.inr (by decide)) (fun _ => ?_) fun _ => ?_)
  · exact (reads.gains .lowest).next fun value _ => .pure (by simp)
  · refine .current (.ite (fun _ => ?_) fun _ => .pure (by simp))
    exact (expressionList_serves reads).next fun value _ => .pure (by simp)

theorem parenthesized_serves (line : Nat) :
    Serves .line cursor (")" :: owed) owed (.line line) Expr.tally (fun _ => False) (parenthesized expr line) := by
  refine .acceptDelimiter ")" rfl (fun _ => .pure (by simp)) fun _ => .ask (.ite (fun word => ?_) fun _ => ?_)
  · refine .line ((yieldValue_serves reads cursor.current.line word).next fun shape _ => .expectDelimiter ")" rfl ?_)
    refine .pure_of (fun _ => by simp) (fun climb => ?_) (.inl ?_) (by simp)
    · simpa using climb.sublist (sublist_cons_self line _)
    · simp
  refine (reads.gains .lowest).next fun first _ => .current (.ite (fun starts => ?_) fun _ => .ask (.ite (fun _ => ?_) fun _ => ?_))
  · refine (generators_serves reads starts).next fun loops _ => .expectDelimiter ")" rfl (.pure ?_)
    simp [flatMap_assoc]
  · refine (Serves.moreItems _ fun _ => reads.gains .lowest).next fun others _ => .expectDelimiter ")" rfl ?_
    exact .pure (by simp)
  · refine .expectDelimiter ")" rfl (.pure_of (fun _ => by simp) (fun climb => ?_) (.inl (by simp)) And.right)
    exact climb.sublist (sublist_cons_self line _)

theorem display_serves {first : Expr} {closer : String} {loops : List (Generator Expr) → Expr.Shape Expr}
    {items : List Expr → Expr.Shape Expr} (closes : Token.owedAt (closer :: owed) closer = some owed)
    (forLoops : ∀ value, (loops value).tally line = first.tally ++ (.all Generator.tally value ++ .rule (value ≠ [])))
    (forItems : ∀ value, (items value).tally line = first.tally ++ .all Expr.tally value) :
    Serves .line cursor (closer :: owed) owed first.tally (Expr.Shape.tally line) (fun _ => False) (do
      if (← current).startsGenerator then
        let values ← generators expr
        expectDelimiter closer
        return loops values
      let others ← moreItems (·.isDelimiter closer) (expr .lowest)
      expectDelimiter closer
      return items others) := by
  refine .current (.ite (fun starts => ?_) fun _ => ?_)
  · refine (generators_serves reads starts).next fun values _ => .expectDelimiter closer closes ?_
    exact .pure (forLoops values).symm
  · refine (Serves.moreItems _ fun _ => reads.gains .lowest).next fun others _ => .expectDelimiter closer closes ?_
    exact .pure (forItems others).symm

theorem listDisplay_serves (line : Nat) :
    Serves .line cursor ("]" :: owed) owed .nothing (Expr.Shape.tally line) (fun _ => False) (listDisplay expr) := by
  refine .acceptDelimiter "]" rfl (fun _ => .pure (by simp)) fun _ => (reads.gains .lowest).next fun first _ => ?_
  rw [Tally.nothing_append]
  refine display_serves reads rfl (fun loops => ?_) fun others => ?_
  · simp [flatMap_assoc]
  · simp

theorem dictEntry_serves : Spans cursor owed DictEntry.tally (dictEntry expr) := by
  refine .acceptOperator "**" (.inr (by decide)) (fun _ => ?_) fun _ => ?_
  · exact (reads.gains .bitwise).next fun value _ => .pure (by simp)
  · refine (reads.gains .lowest).next fun key _ => .expectDelimiter ":" rfl ?_
    exact (reads.gains .lowest).next fun value _ => .pure (by simp)

theorem dictEntries_serves :
    Serves .line cursor ("\x7d" :: owed) owed .nothing (.all DictEntry.tally) (fun _ => False) (dictEntries expr) :=
  (Serves.items _ fun _ => dictEntry_serves reads).next fun _ _ => .expectDelimiter "\x7d" rfl (.pure (by simp))

theorem dictAfterKey_serves (key : Expr) :
    Serves .line cursor ("\x7d" :: owed) owed key.tally (Expr.Shape.tally line) (fun _ => False)
      (dictAfterKey expr key) := by
  refine (reads.gains .lowest).next fun value _ => .current (.ite (fun starts => ?_) fun _ => ?_)
  · refine (generators_serves reads starts).next fun loops _ => .expectDelimiter "\x7d" rfl (.pure ?_)
    simp [flatMap_assoc]
  · refine .acceptDelimiter "," rfl (fun _ => ?_) fun _ => .expectDelimiter "\x7d" rfl (.pure (by simp))
    refine (dictEntries_serves reads).next fun entries _ => .pure ?_
    simp [flatMap_assoc]

theorem braceDisplay_serves (line : Nat) :
    Serves .line cursor ("\x7d" :: owed) owed .nothing (Expr.Shape.tally line) (fun _ => False)
      (braceDisplay expr) := by
  refine .acceptDelimiter "\x7d" rfl (fun _ => .pure (by simp)) fun _ => .ask (.ite (fun _ => ?_) fun _ => ?_)
  · refine (dictEntries_serves reads).next fun entries _ => .pure ?_
    simp [flatMap_assoc]
  · refine (reads.gains .lowest).next fun first _ => ?_
    rw [Tally.nothing_append]
    refine .acceptDelimiter ":" rfl (fun _ => ?_) fun _ => ?_
    · exact dictAfterKey_serves reads first
    · refine display_serves reads rfl (fun loops => ?_) fun others => ?_
      · simp [flatMap_assoc]
      · simp

theorem wholeText_serves : Spans cursor owed Expr.tally (wholeText expr) := by
  refine (expressionList_serves reads).next fun value _ => .current ?_
  split
  · exact .pure (Tally.nothing_append _)
  · exact .pure (Tally.nothing_append _)
  · exact .unexpected _

end

end Parser

namespace Cursor

/-- An outcome that leaves the cursor where it is: what has been read is from texts of its own, in which its
    identifiers stand. The lines are between `low` and `high` if something is `given` of the text. -/
def Stays {α : Type} (cursor : Cursor) (given : Prop) (low high : Nat) (sources : List Source) (values : α → List Expr) :
    Outcome α → Prop
  | .ok value stop => stop = cursor ∧ Source.Shows sources (Expr.sites (values value)) ∧
      (values value).Forall Expr.Whole ∧ (given → Climb low (Expr.lines (values value)) high)
  | .error error stop => stop = cursor ∧ (given → low ≤ error.line ∧ error.line ≤ high)

end Cursor

namespace Parser

attribute [local simp] Expr.Shape.names Expr.Shape.entries Expr.Shape.children FormattedPart.children
  Expr.tallied Expr.tally Expr.tallies Expr.Shape.tally StringPiece.tally Tally.all Tally.nothing Tally.rule Tally.line
  Expr.Shape.Fits Expr.Shape.IsWellShaped

variable {expr : Precedence → Parser Expr} {cursor : Cursor} {owed : List String} {line : Nat} {given : Prop}

theorem stays_bind {α β : Type} {low below middle high : Nat} {sources sources' : List Source} {values : α → List Expr}
    {values' : β → List Expr} {first : Parser α} {next : α → Parser β}
    (stays : cursor.Stays given low middle sources values (first cursor))
    (lower : given → below ≤ low) (upper : given → middle ≤ high)
    (rest : ∀ value, Source.Shows sources (Expr.sites (values value)) → (values value).Forall Expr.Whole →
      (given → Climb low (Expr.lines (values value)) middle) →
      cursor.Stays given below high sources' values' (next value cursor)) :
    cursor.Stays given below high sources' values' ((first >>= next) cursor) := by
  cases run : first cursor with
  | ok value stop =>
    rw [run] at stays
    obtain ⟨rfl, shown, whole, climb⟩ := stays
    rw [bind_ok run]
    exact rest value shown whole climb
  | error error stop =>
    rw [run] at stays
    obtain ⟨rfl, within⟩ := stays
    rw [bind_error run]
    exact ⟨rfl, fun known => ⟨(lower known).trans (within known).1, (within known).2.trans (upper known)⟩⟩

section

variable (reads : ReadsExpr expr)

include reads

theorem wholeText_refuses (ended : cursor.current.kind = .endOfInput) :
    ∃ error, wholeText expr cursor = .error error cursor ∧ error.line = cursor.line := by
  obtain ⟨error, run, place⟩ := reads.ended .lowest ended
  exact ⟨error, bind_error (bind_error run), place⟩

theorem replacement_stays {text : String} {line : Nat}
    (room : given → line + text.toList.count '\n' < 0x10000000000000000) :
    cursor.Stays given line (line + text.toList.count '\n') [.field text line] (fun value => [value])
      (replacement expr text line cursor) := by
  have serves : (Cursor.ofTokens (Token.ofText text line)).Fits .line [] [] .nothing Expr.tally (fun _ => False)
      (wholeText expr (Cursor.ofTokens (Token.ofText text line))) := wholeText_serves reads
  unfold replacement apart
  cases run : wholeText expr (Cursor.ofTokens (Token.ofText text line)) with
  | ok value stop =>
    rw [run] at serves
    obtain ⟨tokens, taken, spells⟩ := serves.1.spells (serves.1.quiet rfl)
    have taken : Token.ofText text line = tokens ++ stop.rest := taken
    refine ⟨rfl, .field ?_, serves.1.sound trivial, fun known => ?_⟩
    · rw [taken, map_append]
      exact ((spells.placed .nil).behind _).behind _
    · have several : 2 ≤ (Token.ofText text line).length := by
        by_contra few
        obtain ⟨last, alone, ended⟩ := Cursor.exists_of_few few
        obtain ⟨error, fails, _⟩ :=
          @wholeText_refuses expr (Cursor.ofTokens (Token.ofText text line)) reads (by rw [alone]; exact ended)
        rw [run] at fails
        cases fails
      have ordered := Cursor.ordered_ofText (room known) several
      have climb := (serves.1.climbs ordered (Nat.le_refl _)).2
      exact (climb.lower (Cursor.line_ofText (room known))).raise (ordered.onward serves.1.toOnward).1.line_le
  | error error stop =>
    rw [run] at serves
    refine ⟨rfl, fun known => ?_⟩
    by_cases several : 2 ≤ (Token.ofText text line).length
    · have ordered := Cursor.ordered_ofText (room known) several
      obtain ⟨_, above, below⟩ := serves.thrown ordered (Nat.le_refl _)
      exact ⟨(Cursor.line_ofText (room known)).trans above, below.trans (ordered.onward serves.toOnward).1.line_le⟩
    · -- a text without tokens has no expression in it
      obtain ⟨last, alone, ended⟩ := Cursor.exists_of_few several
      have here : (Cursor.ofTokens (Token.ofText text line)).current = last := by
        rw [alone]
        rfl
      obtain ⟨_, fails, place⟩ := wholeText_refuses reads (here ▸ ended)
      rw [run] at fails
      cases fails
      have inside := (Token.ofText_numbered (room known)).1 last (by simp [alone])
      refine ⟨place ▸ Cursor.line_ofText (room known), ?_⟩
      rw [place, Cursor.line, here]
      exact last.line_le_lastLine.trans inside.2

theorem formattedPart_stays {low high : Nat} {piece : Piece} {others : List Piece}
    (climb : given → Piece.Climb low (piece :: others) high) (room : given → high < 0x10000000000000000) :
    ∃ middle, (given → Piece.Climb middle others high) ∧
      cursor.Stays given low middle piece.source?.toList (·.children) (formattedPart expr piece cursor) := by
  cases piece with
  | literal text => exact ⟨low, climb, rfl, by simpa [Piece.source?] using .nil, trivial, by simp⟩
  | replacement text line =>
    have inner : given → line + (String.ofList text).toList.count '\n' < 0x10000000000000000 := by
      intro known
      rw [String.toList_ofList]
      exact (climb known).2.le.trans_lt (room known)
    have value := @replacement_stays expr cursor given reads (String.ofList text) line inner
    rw [String.toList_ofList] at value
    refine ⟨line + text.count '\n', fun known => (climb known).2, ?_⟩
    refine stays_bind value (fun known => (climb known).1) (fun _ => Nat.le_refl _) fun value shown whole inside => ?_
    exact ⟨rfl, shown, whole, fun known => (inside known).lower (climb known).1⟩
  | broken error =>
    exact ⟨error.line, fun known => (climb known).2, rfl, fun known => ⟨(climb known).1, Nat.le_refl _⟩⟩

theorem formattedParts_stay {low high : Nat} {pieces : List Piece} (climb : given → Piece.Climb low pieces high)
    (room : given → high < 0x10000000000000000) :
    cursor.Stays given low high (pieces.filterMap Piece.source?) (fun parts => parts.flatMap (·.children))
      (pieces.mapM (formattedPart expr) cursor) := by
  induction pieces generalizing low with
  | nil => exact ⟨rfl, by simpa using .nil, trivial, fun known => by simpa using (climb known).le⟩
  | cons piece others ih =>
    obtain ⟨middle, later, first⟩ := @formattedPart_stays expr cursor given reads _ _ _ _ climb room
    rw [mapM_cons]
    refine stays_bind first (fun _ => Nat.le_refl _) (fun known => (later known).le) fun part shown whole inside => ?_
    refine stays_bind (ih later) (fun known => (inside known).le) (fun _ => Nat.le_refl _) fun parts more wholes after => ?_
    refine ⟨rfl, ?_, ?_, fun known => by simpa using (inside known).append (after known)⟩
    · have sites := shown.append more
      rw [← Expr.sites_append] at sites
      cases source : piece.source? <;> simpa [filterMap_cons, source] using sites
    · simp only [flatMap_cons, forall_append]
      exact ⟨whole, wholes⟩

theorem stringPiece_serves :
    Serves .line cursor owed owed .nothing (fun piece => .all StringPiece.tally piece.toList)
      (fun piece => piece.isSome ∨ cursor.current.isString = true) (stringPiece expr) := by
  refine .current (.ite (fun string => ?_) fun other => .ended (by simp [other]))
  have kind : cursor.current.kind = .string ∨ cursor.current.kind = .formattedString := by
    simpa [Token.isString] using string
  have turns : cursor.current.Turns owed owed := .plain (by rcases kind with kind | kind <;> simp [kind])
  by_cases plain : cursor.current.kind = .string
  · refine .taken turns ?_
    rw [if_pos plain]
    exact .pure (by simp [StringPiece.values, StringPiece.parts])
  · have formatted : cursor.current.kind = .formattedString := kind.resolve_left plain
    have last : cursor.current.lastLine = cursor.current.line + cursor.current.text.toList.count '\n' := if_pos formatted
    have stays : cursor.advance.Stays (cursor.current.lastLine < 0x10000000000000000) cursor.current.line
        cursor.current.lastLine cursor.current.fields (fun parts => parts.flatMap (·.children))
        ((Piece.ofBody cursor.current.line cursor.current.text.toList).mapM (formattedPart expr) cursor.advance) := by
      rw [last]
      exact formattedParts_stay reads Piece.ofBody_climb id
    have passed : ∀ {high}, cursor.Ordered high → cursor.current.lastLine < 0x10000000000000000 := fun ordered =>
      (ordered.lastLine_le.trans (ordered.drop 1).1.line_le).trans_lt ordered.room
    unfold Serves
    rw [bind_ok (rfl : Parser.advance cursor = .ok cursor.current cursor.advance), if_neg plain]
    cases run : (Piece.ofBody cursor.current.line cursor.current.text.toList).mapM (formattedPart expr) cursor.advance with
    | ok parts stop =>
      rw [run] at stays
      obtain ⟨rfl, shown, sound, climb⟩ := stays
      rw [bind_ok run]
      refine ⟨⟨Cursor.onward_drop 1 cursor, fun _ => ⟨[cursor.current], Cursor.rest_of_current turns.inside, ?_⟩,
        fun _ => rfl, fun ordered low => ⟨rfl, ?_⟩, fun _ => sound⟩, fun _ => Cursor.size_advance_lt turns.inside⟩
      · refine turns.spells_of (fun named => absurd formatted named.plain) fun front => ?_
        have whole := front.append (.formatted formatted (shown.behind []))
        simpa [StringPiece.values, StringPiece.parts] using whole
      · simpa [StringPiece.values, StringPiece.parts] using
          ((climb (passed ordered)).lower low).raise ordered.lastLine_le
    | error error stop =>
      rw [run] at stays
      obtain ⟨rfl, within⟩ := stays
      rw [bind_error run]
      refine ⟨Cursor.onward_drop 1 cursor, fun ordered low => ⟨rfl, ?_⟩⟩
      obtain ⟨above, below⟩ := within (passed ordered)
      exact ⟨low.trans above, below.trans ordered.lastLine_le⟩

theorem stringPiece_steps : Steps .line cursor owed StringPiece.tally (stringPiece expr) :=
  (stringPiece_serves reads).weaken fun _ => .inl

theorem strings_serves (string : cursor.current.isString = true) :
    Gains cursor owed (Expr.Shape.tally line) (strings expr) := by
  have pieces : Serves .line cursor owed owed .nothing (.all StringPiece.tally) (fun _ => cursor.current.isString = true)
      (many (stringPiece expr)) :=
    .many_first ((stringPiece_serves reads).weaken fun _ => .inr) (fun _ _ => .many fun _ => stringPiece_steps reads)
      fun _ _ => by simp
  have rest : ∀ pieces stop, Serves .line stop owed owed (.all StringPiece.tally pieces) (Expr.Shape.tally line)
      (fun _ => False) (return StringPiece.joined pieces) :=
    fun pieces stop => .pure (StringPiece.tally_joined line pieces).symm
  exact .bind_of pieces rest fun _ _ _ => .inl string

theorem prefixed_serves {shape : Expr → Expr.Shape Expr} (precedence : Precedence)
    (turns : cursor.current.Turns owed owed) (made : ∀ value, (shape value).tally line = value.tally) :
    Gains cursor owed (Expr.Shape.tally line) (do let _ ← advance; return shape (← expr precedence)) :=
  .taken turns ((reads.gains precedence).next fun value _ => .pure (by rw [made value, Tally.nothing_append]))

theorem signed_serves {symbol : String} (found : cursor.current.isOperator symbol = true) :
    Gains cursor owed (Expr.Shape.tally cursor.current.line) (signed expr symbol) := by
  have turns : symbol ≠ "." → cursor.current.Turns owed owed := fun other => .operator (.inr other) found
  unfold signed
  split
  · rename_i op spelled
    refine prefixed_serves reads .unary (turns ?_) fun value => by simp
    rintro rfl
    cases spelled
  · split
    · exact prefixed_serves reads .bitwise (turns (by decide)) fun value => by simp
    · -- the name of the ellipsis is not spelled by its token
      have spells : Token.Spells owed [cursor.current] owed .nothing
          ⟨["Ellipsis"], [], [("Ellipsis", cursor.current.line)], True⟩ :=
        (turns (by decide)).spells_of (fun named => by rw [named.dots] at found; cases found)
          fun front => front.append (.dots found .nil)
      exact Serves.advance (turns (by decide)).inside (.advance (turns (by decide)).inside spells (fun climb below =>
        climb.raise (cursor.current.line_le_lastLine.trans below)) id) (.pure (by simp))
    · exact .unexpected _

theorem worded_serves {word : String} (found : cursor.current.isKeyword word = true) :
    Gains cursor owed (Expr.Shape.tally line) (worded expr word) := by
  unfold worded
  split
  · exact prefixed_serves reads .unary (.keyword (.inr (by decide)) found) fun value => by simp
  · refine .taken (.keyword (.inr (by decide)) found) ((params_serves reads ":" false).next fun params _ => ?_)
    refine .expectDelimiter ":" rfl ((reads.gains .lowest).next fun body _ => .pure ?_)
    simp [Param.tally, forall_flatMap, forall_list_and, ← forall_iff_forall_mem]
    tauto
  · exact prefixed_serves reads .unary (.keyword (.inr (by decide)) found) fun value => by simp
  · exact yieldValue_serves reads line found
  · exact .unexpected _

theorem operand_serves : Gains cursor owed Expr.tally (operand expr) := by
  have located : ∀ {shape : Parser (Expr.Shape Expr)},
      Gains cursor owed (Expr.Shape.tally cursor.current.line) shape →
      Gains cursor owed Expr.tally (do return ⟨cursor.current.line, ← shape⟩) :=
    fun serves => .located (serves.lead fun shape _ => .pure (by simp))
  have atom : ∀ {shape : Expr.Shape Expr}, cursor.current.Turns owed owed →
      shape.tally cursor.current.line = .nothing →
      Gains cursor owed Expr.tally (do return ⟨cursor.current.line, ← atom shape⟩) :=
    fun turns same => located (.taken turns (.pure same.symm))
  have opened : ∀ {symbol closer : String} {next : Parser Expr}, cursor.current.kind = .delimiter →
      cursor.current.text = symbol → Token.owedAt owed symbol = some (closer :: owed) →
      Serves .line cursor.advance (closer :: owed) owed (.line cursor.current.line) Expr.tally (fun _ => False) next →
      Gains cursor owed Expr.tally (advance >>= fun _ => next) := by
    intro symbol closer next kind same opens rest
    have spelled : cursor.current.isDelimiter symbol = true := by simp [Token.isDelimiter, kind, same]
    exact .taken_line (.delimiter opens spelled) (by rwa [Tally.nothing_append])
  refine .current ?_
  split
  · rename_i kind
    have spells : Token.Spells owed [cursor.current] owed .nothing
        ⟨[cursor.current.text], [], [(cursor.current.text, cursor.current.line)], True⟩ :=
      .identifier kind owed rfl fun front => front.append (.name kind .nil)
    exact located (Serves.advance (by simp [kind]) (.advance (by simp [kind]) spells (fun climb below =>
      climb.raise (cursor.current.line_le_lastLine.trans below)) id) (.pure (by simp)))
  · rename_i kind
    split
    · exact atom (.plain (by simp [kind])) (by simp)
    · exact .fail _
  · rename_i kind
    split
    · exact atom (.plain (by simp [kind])) (by simp)
    · exact .fail _
  · rename_i kind
    exact located (strings_serves reads (by simp [Token.isString, kind]))
  · rename_i kind
    exact located (strings_serves reads (by simp [Token.isString, kind]))
  · rename_i kind
    exact atom (.plain (by simp [kind])) (by simp)
  · rename_i kind
    exact atom (.plain (by simp [kind])) (by simp)
  · rename_i kind
    exact located (signed_serves reads (by simp [Token.isOperator, kind]))
  · rename_i kind
    exact located (worded_serves reads (by simp [Token.isKeyword, kind]))
  · rename_i kind
    split
    · rename_i same
      exact opened kind same rfl (parenthesized_serves reads _)
    · rename_i same
      exact opened kind same rfl ((listDisplay_serves reads cursor.current.line).next fun _ _ => .pure (by simp))
    · rename_i same
      exact opened kind same rfl ((braceDisplay_serves reads cursor.current.line).next fun _ _ => .pure (by simp))
    · exact .unexpected _
  · exact .unexpected _

theorem operators_serves (precedence : Precedence) : Gains cursor owed Expr.tally (operators expr precedence) := by
  refine (operand_serves reads).lead fun first _ => (Serves.many fun _ => tail?_serves reads precedence).next fun tails _ => ?_
  rw [Tally.nothing_append]
  refine .ask (.ite (fun _ => .fail _) fun _ => .pure_of (fun _ => ?_) (fun climb => ?_) (.inl ?_) fun sound => ?_)
  · exact (Expr.names_foldl tails first).symm
  · exact Expr.climb_foldl climb
  · exact Expr.sites_foldl tails first
  · exact Expr.whole_foldl sound.1 sound.2

end

theorem expression_reads (depth : Nat) : ReadsExpr (expression depth) := by
  induction depth with
  | zero => exact ⟨fun _ => .fail _, fun _ _ _ => ⟨_, rfl, rfl⟩⟩
  | succ depth ih =>
    refine ⟨fun precedence => operators_serves ih precedence, fun precedence {cursor} ended => ?_⟩
    refine ⟨.atToken cursor.current (.expected .expression cursor.current), bind_error ?_, rfl⟩
    rw [operand, bind_ok (rfl : current cursor = .ok cursor.current cursor), ended]
    rfl

end Parser
end SourceAudit
