import SourceAudit.Grammar.Statement
import SourceAudit.Proofs.Grammar.ExpressionReading

namespace SourceAudit

variable {like : Likeness}

theorem Likeness.getLast? {α β : Type} {R : α → β → Prop} {list : List α} {list' : List β}
    (alikes : List.Forall₂ R list list') : Option.Rel R list.getLast? list'.getLast? := by
  induction alikes with
  | nil => exact .none
  | cons first others ih =>
    cases others with
    | nil => exact .some first
    | cons second others =>
      rw [List.getLast?_cons_cons, List.getLast?_cons_cons]
      exact ih

theorem Likeness.dropLast {α β : Type} {R : α → β → Prop} {list : List α} {list' : List β}
    (alikes : List.Forall₂ R list list') : List.Forall₂ R list.dropLast list'.dropLast := by
  rw [List.dropLast_eq_take, List.dropLast_eq_take, alikes.length_eq]
  exact List.forall₂_take _ alikes

namespace Expr

theorem findSome?_attach (items : List Expr) :
    (items.attach.findSome? fun ⟨item, _⟩ => item.unassignable?) = items.findSome? unassignable? := by
  have whole := List.attach_map_subtype_val items
  calc _ = (items.attach.map (·.val)).findSome? unassignable? := List.findSome?_map.symm
    _ = items.findSome? unassignable? := by rw [whole]

theorem findSome?_alike {items items' : List Expr} (alikes : List.Forall₂ like.expr items items')
    (each : ∀ item ∈ items, ∀ {item' : Expr}, like.expr item item' →
      Option.Rel like.expr item.unassignable? item'.unassignable?) :
    Option.Rel like.expr (items.findSome? unassignable?) (items'.findSome? unassignable?) := by
  induction alikes with
  | nil => exact .none
  | @cons item item' items items' first others ih =>
    have rest := ih fun other member => each other (List.mem_cons_of_mem _ member)
    have head := each item List.mem_cons_self first
    rw [List.findSome?_cons, List.findSome?_cons]
    generalize item.unassignable? = found at head
    generalize item'.unassignable? = found' at head
    cases head with
    | none => exact rest
    | some alike => exact .some alike

theorem unassignable?_alike {target target' : Expr} (alike : like.expr target target') :
    Option.Rel like.expr target.unassignable? target'.unassignable? := by
  have shapes := (like.expr_elim alike).2
  fun_induction unassignable? target generalizing target' with
  | case1 | case2 | case3 =>
    obtain ⟨line', shape'⟩ := target'
    cases shapes
    rw [unassignable?]
    exact .none
  | case4 line items ih =>
    obtain ⟨line', shape'⟩ := target'
    cases shapes with
    | tuple alikes =>
      rw [findSome?_attach, unassignable?, findSome?_attach]
      refine findSome?_alike alikes ?_
      intro item member item' same
      exact ih item member same (like.expr_elim same).2
  | case5 line items ih =>
    obtain ⟨line', shape'⟩ := target'
    cases shapes with
    | list alikes =>
      rw [findSome?_attach, unassignable?, findSome?_attach]
      refine findSome?_alike alikes ?_
      intro item member item' same
      exact ih item member same (like.expr_elim same).2
  | case6 line inner ih =>
    obtain ⟨line', shape'⟩ := target'
    cases shapes with
    | starred same =>
      rw [unassignable?]
      exact ih same (like.expr_elim same).2
  | case7 other =>
    obtain ⟨line, shape⟩ := other
    obtain ⟨line', shape'⟩ := target'
    have stays : unassignable? ⟨line', shape'⟩ = some ⟨line', shape'⟩ := by
      cases shapes <;> simp_all [unassignable?]
    rw [stays]
    exact .some alike

end Expr

theorem BinaryOp.operator_of_augmented {token : Token} {op : BinaryOp}
    (found : ofAugmented? token = some op) : token.kind = .operator := by
  unfold ofAugmented? at found
  split at found
  · assumption
  · cases found

namespace Parser

theorem assignable_reads {target target' : Expr} (alike : like.expr target target') :
    like.Reads (fun _ _ => True) (assignable target) (assignable target') := by
  have culprits := Expr.unassignable?_alike alike
  unfold assignable
  generalize target.unassignable? = culprit at culprits
  generalize target'.unassignable? = culprit' at culprits
  cases culprits with
  | none => exact .pure trivial
  | some alike => exact .throw ⟨(like.expr_elim alike).1, .same _ (by simp)⟩ rfl

theorem assignable_stays {target : Expr} {before after : Cursor} {value : Unit}
    (passes : assignable target before = .ok value after) : before = after := by
  unfold assignable at passes
  cases culprit : target.unassignable? with
  | none =>
    rw [culprit] at passes
    injection passes
  | some =>
    rw [culprit] at passes
    cases passes

theorem forM_assignable_reads {targets targets' : List Expr}
    (alikes : List.Forall₂ like.expr targets targets') :
    like.Reads (fun _ _ => True) (targets.forM assignable) (targets'.forM assignable) := by
  induction alikes with
  | nil => exact .pure trivial
  | cons first _ ih => exact .skip (assignable_reads first) ih

theorem atStatementEnd_reads :
    like.Keeps Eq atStatementEnd := by
  intro twins
  apply Twins.Reads.current
  rw [← twins.current_alike.kind, twins.current_alike.test (·.isDelimiter ";") fun _ _ => rfl]
  exact Likeness.Reads.pure rfl twins

theorem same_reads {α : Type} {parser : Parser (List α)}
    (reads : like.Keeps (List.Forall₂ Eq) parser) :
    like.Keeps Eq parser := by
  refine reads.mono ?_
  intro values values' alikes
  rwa [List.forall₂_eq_eq_eq] at alikes

theorem dottedName_reads : like.Keeps Eq dottedName := by
  have point : like.Reads _ (whenever (acceptOperator ".") (expectIdentifier .name)) _ :=
    .whenever (.acceptOperator ".") (.expectIdentifier _ (by simp))
  refine .bind (.expectIdentifier _ (by simp)) ?_
  rintro first _ rfl
  refine .bind (same_reads (.many point)) ?_
  rintro others _ rfl
  exact .pure rfl

theorem asName_reads : like.Keeps Eq asName := by
  refine Likeness.Reads.mono (.whenever (.acceptKeyword "as") (.expectIdentifier _ (by simp))) ?_
  intro name name' alike
  cases alike with
  | none => rfl
  | some same => rw [same]

theorem alias_reads {parser : Parser String} (reads : like.Keeps Eq parser) :
    like.Reads Eq (return ⟨← parser, ← asName⟩ : Parser Alias) (return ⟨← parser, ← asName⟩) := by
  refine .bind reads ?_
  rintro name _ rfl
  refine .bind asName_reads ?_
  rintro other _ rfl
  exact .pure rfl

theorem importedModule_reads : like.Keeps Eq importedModule :=
  alias_reads dottedName_reads

theorem importedName_reads : like.Keeps Eq importedName :=
  alias_reads (.expectIdentifier _ (by simp))

theorem relativeDots_reads :
    like.Keeps (Option.Rel Eq) relativeDots :=
  .choice (.acceptOperator ".") (.pure (.some rfl))
    (.choice (.acceptOperator "...") (.pure (.some rfl)) (.pure .none))

theorem namesAfterModule_reads (level : Nat) (module : String) :
    like.Keeps like.shape
      (do
        expectKeyword "import"
        if ← acceptOperator "*" then return .importFrom level module [⟨"*", none⟩]
        if ← acceptDelimiter "(" then
          let names ← items (·.isDelimiter ")") importedName
          expectDelimiter ")"
          return .importFrom level module names
        return .importFrom level module (← items (fun _ => false) importedName)) := by
  refine .skip (.expectKeyword "import") (.choice (.acceptOperator "*") (.pure (.importFrom _ _ _)) ?_)
  refine .choice (.acceptDelimiter "(") (.bind (same_reads (.items (fun _ _ => rfl) importedName_reads)) ?_)
    (.bind (same_reads (.items (fun _ _ => rfl) importedName_reads)) ?_)
  · rintro names _ rfl
    exact .closed ")" (.importFrom _ _ _)
  · rintro names _ rfl
    exact .pure (.importFrom _ _ _)

theorem fromImport_reads :
    like.Keeps like.shape fromImport := by
  refine .bind (same_reads (.many relativeDots_reads)) ?_
  rintro dots _ rfl
  refine .atKeyword (fun twins _ => namesAfterModule_reads _ _ twins) (.bind dottedName_reads ?_)
  rintro module _ rfl
  exact namesAfterModule_reads _ _

variable {expr : Precedence → Parser Expr} (reads : Readable like expr)

include reads

theorem augmented_reads {twins : Twins like} {first first' : Expr} (firsts : like.expr first first') {op : BinaryOp}
    (augmented : BinaryOp.ofAugmented? twins.left.current = some op) :
    twins.Reads like.shape
      (do
        assignable first
        let _ ← advance
        return .assign ⟨[first], some (← expressionList expr), none, some op⟩)
      (do
        assignable first'
        let _ ← advance
        return .assign ⟨[first'], some (← expressionList expr), none, some op⟩) := by
  refine .bind_at (assignable_reads firsts twins) ?_
  intro _ _ _ stop _
  have operator := BinaryOp.operator_of_augmented augmented
  rw [assignable_stays stop] at operator
  refine (advance_reads (.inr operator)).skip (.bind (expressionList_reads reads) ?_)
  intro value value' alike
  exact .pure (.assign (.intro (some op) (.cons firsts .nil) (.some alike) .none))

theorem expressionStatement_reads :
    like.Keeps like.shape (expressionStatement expr) := by
  refine .bind (expressionList_reads reads) ?_
  intro first first' firsts
  refine .bind (.many (.whenever (.acceptOperator "=") (expressionList_reads reads))) ?_
  intro values values' alikes
  have lasts := Likeness.getLast? alikes
  generalize values.getLast? = last at lasts
  generalize values'.getLast? = last' at lasts
  cases lasts with
  | some last =>
    have targets := List.Forall₂.cons firsts (Likeness.dropLast alikes)
    exact .skip (forM_assignable_reads targets) (.pure (.assign (.intro none targets (.some last) .none)))
  | none =>
    intro twins
    apply Twins.Reads.current
    rw [twins.current_alike.test BinaryOp.ofAugmented? fun _ _ => rfl]
    split
    · rename_i op augmented
      exact augmented_reads reads firsts augmented
    · refine Likeness.Reads.choice (.acceptDelimiter ":") ?_ (.pure (.expr firsts)) twins
      refine .skip (assignable_reads firsts) (.bind (reads _) ?_)
      intro hint hint' hints
      refine .bind (.whenever (.acceptOperator "=") (expressionList_reads reads)) ?_
      intro value value' values
      exact .pure (.assign (.intro none (.cons firsts .nil) values (.some hints)))

theorem raised_reads :
    like.Keeps like.shape (raised expr) := by
  refine .choice atStatementEnd_reads (.pure (.raise .none .none)) (.bind (reads _) ?_)
  intro exception exception' exceptions
  refine .bind (.whenever (.acceptKeyword "from") (reads _)) ?_
  intro cause cause' causes
  exact .pure (.raise (.some exceptions) causes)

theorem deleted_reads :
    like.Keeps like.shape (deleted expr) := by
  refine .bind (expressionList_reads reads) ?_
  intro target target' alike
  have shapes := (like.expr_elim alike).2
  have single := List.Forall₂.cons alike .nil
  generalize target.shape = shape at shapes
  generalize target'.shape = shape' at shapes
  cases shapes with
  | tuple alikes => exact .pure (.delete alikes)
  | _ => exact .pure (.delete single)

theorem returned_reads :
    like.Keeps like.shape
      (do
        if ← atStatementEnd then return .returnValue none
        return .returnValue (some (← expressionList expr))) := by
  refine .choice atStatementEnd_reads (.pure (.returnValue .none)) (.bind (expressionList_reads reads) ?_)
  intro value value' alike
  exact .pure (.returnValue (.some alike))

omit reads in
theorem imported_reads :
    like.Keeps like.shape (return .importNames (← items (fun _ => false) importedModule)) := by
  refine .bind (same_reads (.items (fun _ _ => rfl) importedModule_reads)) ?_
  rintro names _ rfl
  exact .pure (.importNames _)

section

variable {twins : Twins like}

theorem keywordStatement_reads (keyword : twins.left.current.kind = .keyword) (word : String) :
    twins.Keeps like.shape (keywordStatement expr word) := by
  have taken : ∀ {rest : Parser (Stmt.Shape Stmt)}, like.Keeps like.shape rest →
      twins.Keeps like.shape (do let _ ← advance; rest) := fun onward => (advance_reads (.inl keyword)).skip onward
  have named := same_reads (.items (fun _ _ => rfl) (.expectIdentifier .name (by simp)) : like.Keeps _ (items (fun _ => false) _))
  unfold keywordStatement
  split
  · exact taken (.pure .pass)
  · exact taken (.pure .breakLoop)
  · exact taken (.pure .continueLoop)
  · exact taken (returned_reads reads)
  · exact taken imported_reads
  · exact taken fromImport_reads
  · exact taken (raised_reads reads)
  · refine taken (.bind (reads _) ?_)
    intro test test' tests
    refine .bind (.whenever (.acceptDelimiter ",") (reads _)) ?_
    intro message message' messages
    exact .pure (.assert tests messages)
  · exact taken (deleted_reads reads)
  · exact taken (.bind named fun names _ same => .pure (same ▸ .global _ _))
  · exact taken (.bind named fun names _ same => .pure (same ▸ .global _ _))
  · exact Likeness.Reads.fail _ (by simp) twins
  · exact Likeness.Reads.fail _ (by simp) twins
  · exact Likeness.Reads.fail _ (by simp) twins
  · exact Likeness.Reads.fail _ (by simp) twins
  · exact expressionStatement_reads reads twins

end

theorem simpleStatement_reads : like.Keeps like.stmt (simpleStatement expr) := by
  intro twins
  have alike := twins.current_alike
  apply Twins.Reads.current
  refine rel_ite (by rw [alike.kind]) ?_ ?_
  · intro keyword
    rw [← alike.text]
    exact (keywordStatement_reads reads keyword _).bind fun _ _ shapes => .pure (like.stmt_intro alike.line shapes)
  · intro _
    exact (expressionStatement_reads reads twins).bind fun _ _ shapes =>
      .pure (like.stmt_intro alike.line shapes)

theorem lineStatement_reads :
    like.Keeps (fun read read' => like.stmt read.1 read'.1 ∧ read.2 = read'.2) (lineStatement expr) := by
  refine .bind (simpleStatement_reads reads) ?_
  intro statement statement' alike
  refine .choice (.acceptDelimiter ";") (fun twins => .current ?_) (.pure ⟨alike, rfl⟩)
  exact Likeness.Reads.pure ⟨alike, by rw [twins.current_alike.kind]⟩ twins

theorem withItem_reads : like.Keeps (WithItem.Alike like.expr) (withItem expr) := by
  refine .bind (reads _) ?_
  intro context context' contexts
  refine .choice (.acceptKeyword "as") (.bind (reads _) ?_) (.pure (.intro contexts .none))
  intro target target' targets
  exact .skip (assignable_reads targets) (.pure (.intro contexts (.some targets)))

end Parser
end SourceAudit
