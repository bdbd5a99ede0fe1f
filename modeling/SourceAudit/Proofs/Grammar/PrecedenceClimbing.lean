import Mathlib.Data.List.Forall2
import SourceAudit.Proofs.Grammar.Composition
import SourceAudit.Proofs.Grammar.Enclosure
import SourceAudit.Proofs.Grammar.StatementRunning

open List

namespace SourceAudit

structure OperatorLink where
  op : BinaryOp
  written : List Token
  name : Token

namespace OperatorLink

structure IsSpelled (link : OperatorLink) : Prop where
  written : List.Forall₂ (Token.Alike fun _ _ => True) link.op.tokens link.written
  name : link.name.kind = .identifier

def tokens (link : OperatorLink) : List Token := link.written ++ [link.name]

end OperatorLink

inductive OperatorTree where
  | name (token : Token)
  | node (op : BinaryOp) (left right : OperatorTree)

namespace OperatorTree

def first : OperatorTree → Token
  | name token => token
  | node _ left _ => left.first

def others : OperatorTree → List (BinaryOp × Token)
  | name _ => []
  | node op left right => left.others ++ (op, right.first) :: right.others

/-- A tree that may stand to the left of an operator: a name, or an operation that binds at least as
    tightly. Only a power takes no power there. -/
def FitsLeft (op : BinaryOp) : OperatorTree → Prop
  | name _ => True
  | node inner _ _ =>
    if op = .power then op.precedence.rank < inner.precedence.rank
    else op.precedence.rank ≤ inner.precedence.rank

/-- A tree that may stand to the right of an operator: a name, or an operation that binds more tightly. A
    power takes further powers there. -/
def FitsRight (op : BinaryOp) : OperatorTree → Prop
  | name _ => True
  | node inner _ _ =>
    if op = .power then op.precedence.rank ≤ inner.precedence.rank
    else op.precedence.rank < inner.precedence.rank

def Respects : OperatorTree → Prop
  | name _ => True
  | node op left right => left.Respects ∧ right.Respects ∧ left.FitsLeft op ∧ right.FitsRight op

def toExpr : OperatorTree → Expr
  | name token => ⟨token.line, .identifier token.text⟩
  | node op left right => ⟨left.toExpr.line, .binary op left.toExpr right.toExpr⟩

instance (op : BinaryOp) : (tree : OperatorTree) → Decidable (tree.FitsLeft op)
  | name _ => inferInstanceAs (Decidable True)
  | node inner _ _ => inferInstanceAs (Decidable (if op = .power
      then op.precedence.rank < inner.precedence.rank else op.precedence.rank ≤ inner.precedence.rank))

def add (op : BinaryOp) (token : Token) : OperatorTree → OperatorTree
  | name first => node op (name first) (name token)
  | node inner left right =>
    if (node inner left right).FitsLeft op then node op (node inner left right) (name token)
    else node inner left (right.add op token)

def build (tree : OperatorTree) (others : List (BinaryOp × Token)) : OperatorTree :=
  others.foldl (fun built other => built.add other.1 other.2) tree

variable {op inner : BinaryOp} {token : Token} {tree left right : OperatorTree}

theorem ranks (op : BinaryOp) :
    op = .power ∧ op.precedence.rank = 10 ∧ op.rightPrecedence.rank = 9 ∨
      op ≠ .power ∧ op.precedence.rank < 9 ∧ op.rightPrecedence.rank = op.precedence.rank := by
  cases op <;> decide

theorem fitsLeft_node : (node inner left right).FitsLeft op ↔ op.precedence.rank ≤ inner.rightPrecedence.rank := by
  have outer := ranks op
  have within := ranks inner
  rw [FitsLeft]
  split <;> simp_all <;> omega

theorem fitsRight_node : (node inner left right).FitsRight op ↔ op.rightPrecedence.rank < inner.precedence.rank := by
  have outer := ranks op
  rw [FitsRight]
  split <;> simp_all
  omega

theorem first_add : (tree.add op token).first = tree.first := by
  induction tree with
  | name => rfl
  | node inner left right _ _ => unfold add; split <;> rfl

theorem others_add : (tree.add op token).others = tree.others ++ [(op, token)] := by
  induction tree with
  | name => rfl
  | node inner left right _ ih =>
    unfold add
    split
    · rfl
    · have kept : (right.add op token).first = right.first := first_add
      simp [others, ih, kept]

theorem FitsRight.add (fits : right.FitsRight inner) (other : ¬ (node inner left right).FitsLeft op) :
    (right.add op token).FitsRight inner := by
  have inside : (node op left right).FitsRight inner := fitsRight_node.mpr (Nat.not_le.mp (mt fitsLeft_node.mpr other))
  cases right with
  | name first => exact inside
  | node root _ _ =>
    unfold OperatorTree.add
    split
    · exact inside
    · exact fits

theorem Respects.add (respects : tree.Respects) : (tree.add op token).Respects := by
  induction tree with
  | name => exact ⟨trivial, trivial, trivial, trivial⟩
  | node inner left right _ ih =>
    obtain ⟨forLeft, forRight, fitsLeft, fitsRight⟩ := respects
    unfold OperatorTree.add
    split
    · rename_i fits
      exact ⟨⟨forLeft, forRight, fitsLeft, fitsRight⟩, trivial, fits, trivial⟩
    · rename_i other
      exact ⟨forLeft, ih forRight, fitsLeft, fitsRight.add other⟩

theorem first_build (tree : OperatorTree) (others : List (BinaryOp × Token)) :
    (tree.build others).first = tree.first := by
  induction others generalizing tree with
  | nil => rfl
  | cons other others ih => exact (ih _).trans first_add

theorem others_build (tree : OperatorTree) (others : List (BinaryOp × Token)) :
    (tree.build others).others = tree.others ++ others := by
  induction others generalizing tree with
  | nil => exact (append_nil _).symm
  | cons other others ih =>
    refine (ih _).trans ?_
    rw [others_add, append_assoc]
    rfl

theorem Respects.build (respects : tree.Respects) (others : List (BinaryOp × Token)) :
    (tree.build others).Respects := by
  induction others generalizing tree with
  | nil => exact respects
  | cons other others ih => exact ih respects.add

theorem build_node (left right : OperatorTree) {others : List (BinaryOp × Token)}
    (inside : ∀ other ∈ others, ∀ right, ¬ (node inner left right).FitsLeft other.1) :
    (node inner left right).build others = node inner left (right.build others) := by
  induction others generalizing right with
  | nil => rfl
  | cons other others ih =>
    have step : (node inner left right).add other.1 other.2 = node inner left (right.add other.1 other.2) := by
      rw [OperatorTree.add, if_neg (inside other (mem_cons_self ..) right)]
    rw [build, foldl_cons, step]
    exact ih _ fun other member => inside other (mem_cons_of_mem _ member)

def Exceeds (bound : Nat) : OperatorTree → Prop
  | name _ => True
  | node op _ _ => bound < op.precedence.rank

theorem Exceeds.mono {low high : Nat} (exceeds : tree.Exceeds high) (le : low ≤ high) : tree.Exceeds low := by
  cases tree with
  | name => trivial
  | node => exact Nat.lt_of_le_of_lt le exceeds

theorem le_rightPrecedence {bound : Nat} (below : bound < op.precedence.rank) : bound ≤ op.rightPrecedence.rank := by
  have := ranks op
  omega

theorem FitsLeft.exceeds {bound : Nat} (fits : tree.FitsLeft op) (below : bound < op.precedence.rank) :
    tree.Exceeds bound := by
  cases tree with
  | name => trivial
  | node inner _ _ =>
    have := ranks inner
    exact below.trans_le ((fitsLeft_node.mp fits).trans (by omega))

theorem FitsRight.exceeds (fits : tree.FitsRight op) : tree.Exceeds op.rightPrecedence.rank := by
  cases tree with
  | name => trivial
  | node => exact fitsRight_node.mp fits

theorem Respects.exceeds {bound : Nat} (respects : tree.Respects) (exceeds : tree.Exceeds bound) :
    ∀ other ∈ tree.others, bound < other.1.precedence.rank := by
  induction tree with
  | name => simp [others]
  | node op left right leftIh rightIh =>
    obtain ⟨forLeft, forRight, fitsLeft, fitsRight⟩ := respects
    intro other member
    rcases mem_append.mp member with member | member
    · exact leftIh forLeft (fitsLeft.exceeds exceeds) other member
    · rcases mem_cons.mp member with rfl | member
      · exact exceeds
      · exact rightIh forRight (fitsRight.exceeds.mono (le_rightPrecedence exceeds)) other member

theorem Respects.build_others (respects : tree.Respects) : (name tree.first).build tree.others = tree := by
  induction tree with
  | name => rfl
  | node op left right leftIh rightIh =>
    obtain ⟨forLeft, forRight, fitsLeft, fitsRight⟩ := respects
    have added : left.add op right.first = node op left (name right.first) := by
      cases left with
      | name => rfl
      | node => rw [OperatorTree.add, if_pos fitsLeft]
    have inside : ∀ other ∈ right.others, ∀ later, ¬ (node op left later).FitsLeft other.1 := by
      intro other member later
      exact fun fits => (forRight.exceeds fitsRight.exceeds other member).not_ge (fitsLeft_node.mp fits)
    calc (name left.first).build (left.others ++ (op, right.first) :: right.others)
        = (((name left.first).build left.others).add op right.first).build right.others := by
          simp only [OperatorTree.build, foldl_append, foldl_cons]
      _ = (node op left (name right.first)).build right.others := by rw [leftIh forLeft, added]
      _ = node op left ((name right.first).build right.others) := build_node _ _ inside
      _ = node op left right := by rw [rightIh forRight]

/-- How many levels of expressions are opened below the one that reads the tree. -/
def levels : OperatorTree → Nat
  | name _ => 0
  | node _ left right => max left.levels (right.levels + 1)

def powers (others : List (BinaryOp × Token)) : Nat := others.countP (·.1 = .power)

theorem powers_node (op : BinaryOp) (left right : OperatorTree) :
    powers (node op left right).others =
      powers left.others + (powers right.others + if op = .power then 1 else 0) := by
  simp [powers, others, countP_cons]

/-- Only a power opens a level for an operator of its own precedence. -/
theorem Respects.levels_le {bound : Nat} (respects : tree.Respects) (exceeds : tree.Exceeds bound)
    (low : bound ≤ Precedence.unary.rank) :
    tree.levels + bound ≤ powers tree.others + Precedence.unary.rank := by
  induction tree generalizing bound with
  | name =>
    rw [levels]
    omega
  | node op left right leftIh rightIh =>
    obtain ⟨forLeft, forRight, fitsLeft, fitsRight⟩ := respects
    have first := leftIh forLeft (fitsLeft.exceeds exceeds) low
    have second := rightIh forRight fitsRight.exceeds
    have below := le_rightPrecedence exceeds
    have above : bound < op.precedence.rank := exceeds
    have nine : Precedence.unary.rank = 9 := rfl
    rw [powers_node, levels]
    rcases ranks op with ⟨rfl, -, level⟩ | ⟨other, less, level⟩
    · have := second (by omega)
      rw [if_pos rfl]
      omega
    · have := second (by omega)
      rw [if_neg other]
      omega

inductive Writes : OperatorTree → List Token → Prop where
  | name {token : Token} (kind : token.kind = .identifier) : Writes (.name token) [token]
  | node {op : BinaryOp} {left right : OperatorTree} {before written after : List Token}
      (forLeft : Writes left before)
      (spelled : List.Forall₂ (Token.Alike fun _ _ => True) op.tokens written)
      (forRight : Writes right after) : Writes (.node op left right) (before ++ (written ++ after))

theorem writes_of_others {links : List OperatorLink} (kind : tree.first.kind = .identifier)
    (others : tree.others = links.map fun link => (link.op, link.name))
    (spelled : ∀ link ∈ links, link.IsSpelled) :
    tree.Writes (tree.first :: links.flatMap OperatorLink.tokens) := by
  induction tree generalizing links with
  | name token =>
    cases links with
    | nil => exact .name kind
    | cons => cases others
  | node op left right leftIh rightIh =>
    obtain ⟨before, rest, rfl, forLeft, split⟩ := append_eq_map_iff.mp others
    obtain ⟨link, after, rfl, same, forRight⟩ := map_eq_cons_iff.mp split
    obtain ⟨rfl, named⟩ := Prod.mk.injEq .. ▸ same
    have here := spelled link (by simp)
    have first := leftIh kind forLeft.symm fun link member => spelled link (by simp [member])
    have second := rightIh (named ▸ here.name) forRight.symm fun link member => spelled link (by simp [member])
    have whole := Writes.node first here.written second
    simpa [OperatorLink.tokens, OperatorTree.first, named] using whole

end OperatorTree

namespace Token

theorem Ends.mono {low high : Precedence} {token : Token} (ends : token.Ends low) (le : low.rank ≤ high.rank) :
    token.Ends high := by
  refine ⟨ends.string, ends.walrus, ?_⟩
  intro next continuation found above
  exact ends.loose next continuation found (Nat.lt_of_le_of_lt le above)

theorem Ends.of_alike {precedence : Precedence} {token other : Token} (ends : token.Ends precedence)
    (alike : token.Alike (fun _ _ => True) other) : other.Ends precedence := by
  have string := alike.test (·.isString) fun _ _ => rfl
  have walrus := alike.test (·.isOperator ":=") fun _ _ => rfl
  refine ⟨string.trans ends.string, walrus.trans ends.walrus, ?_⟩
  intro next continuation found
  have same : Continuation.ofTokens other next = Continuation.ofTokens token next :=
    Continuation.ofTokens_alike alike fun _ => (⟨rfl, rfl, trivial⟩ : next.Alike (fun _ _ => True) next)
  exact ends.loose next continuation (same.symm.trans found)

end Token

namespace BinaryOp

theorem exists_ends (op : BinaryOp) : ∃ first others, op.tokens = first :: others ∧
    ∀ precedence : Precedence, op.precedence.rank ≤ precedence.rank → first.Ends precedence := by
  cases op with
  | is | isNot =>
    refine ⟨_, _, rfl, fun precedence le => ⟨rfl, rfl, ?_⟩⟩
    rintro next _ ⟨⟩
    rw [Continuation.precedence]
    split <;> exact Nat.not_lt.mpr le
  | notIn =>
    refine ⟨_, _, rfl, fun precedence le => ⟨rfl, rfl, ?_⟩⟩
    intro next continuation found
    simp [Continuation.ofTokens, Token.keyword, Continuation.ofKeyword] at found
    rw [← found.2]
    exact Nat.not_lt.mpr le
  | _ =>
    refine ⟨_, _, rfl, fun precedence le => ⟨rfl, rfl, ?_⟩⟩
    rintro next _ ⟨⟩
    exact Nat.not_lt.mpr le

theorem exists_continues (op : BinaryOp) : ∃ first others, op.tokens = first :: others ∧
    op.tokens.length = (Continuation.operator op).width ∧
    ∀ name : Token, name.kind = .identifier →
      Continuation.ofTokens first (others.headD name) = some (.operator op) := by
  cases op with
  | is =>
    refine ⟨_, _, rfl, rfl, ?_⟩
    intro name kind
    simp [Continuation.ofTokens, Token.keyword, Continuation.ofKeyword, Token.isKeyword, kind]
  | _ => exact ⟨_, _, rfl, rfl, fun _ _ => rfl⟩

end BinaryOp

namespace Parser

variable {base : Cursor} {expr : Precedence → Parser Expr}

theorem run_tail?_spelled {op : BinaryOp} {written rest : List Token} {name : Token} {right : Expr}
    {precedence : Precedence} {stop : Cursor}
    (spelled : List.Forall₂ (Token.Alike fun _ _ => True) op.tokens written)
    (kind : name.kind = .identifier) (tighter : precedence < op.precedence)
    (run : expr op.rightPrecedence (base.push (name :: rest)) = .ok right stop) :
    tail? expr precedence (base.push (written ++ name :: rest)) = .ok (some (.operator op right)) stop := by
  have length := spelled.length_eq
  obtain ⟨first, others, tokens, width, found⟩ := op.exists_continues
  rw [tokens] at spelled
  obtain ⟨start, more, alike, alikes, rfl⟩ := forall₂_cons_left_iff.mp spelled
  have next : (others.headD name).Alike (fun _ _ => True) (base.push (more ++ name :: rest)).current := by
    cases alikes with
    | nil => exact ⟨rfl, rfl, trivial⟩
    | cons second _ => exact second
  have continues : Continuation.ofTokens start (base.push (more ++ name :: rest)).current =
      some (.operator op) := (Continuation.ofTokens_alike alike fun _ => next).trans (found name kind)
  have dropped : (base.push (start :: (more ++ name :: rest))).drop (Continuation.operator op).width =
      base.push (name :: rest) := by
    refine Cursor.eq_of_parts ?_ rfl rfl
    rw [← width, length]
    simp [Cursor.drop, Cursor.push]
  rw [cons_append, run_tail? continues tighter]
  simp [tail, dropped, run]

end Parser

namespace OperatorTree

open SourceAudit.Parser

variable {base : Cursor} {tree : OperatorTree} {others tokens : List Token}

def EndsAt (token : Token) : OperatorTree → Prop
  | name _ => True
  | node op _ _ => token.Ends op.rightPrecedence

theorem Exceeds.endsAt {precedence : Precedence} {token : Token} (exceeds : tree.Exceeds precedence.rank)
    (ends : token.Ends precedence) : tree.EndsAt token := by
  cases tree with
  | name => trivial
  | node op _ _ => exact ends.mono (le_rightPrecedence exceeds)

theorem FitsLeft.endsAt {op : BinaryOp} {written : List Token} (fits : tree.FitsLeft op)
    (spelled : List.Forall₂ (Token.Alike fun _ _ => True) op.tokens written) :
    ∃ first more, written = first :: more ∧ tree.EndsAt first := by
  obtain ⟨first, others, split, ends⟩ := op.exists_ends
  rw [split] at spelled
  obtain ⟨start, more, alike, -, rfl⟩ := forall₂_cons_left_iff.mp spelled
  refine ⟨start, more, rfl, ?_⟩
  cases tree with
  | name => trivial
  | node => exact (ends _ (fitsLeft_node.mp fits)).of_alike alike

/-- After the first name of the tree the reader takes all of its operators, and then goes on as it would
    behind the tree. -/
def Continues (base : Cursor) (tree : OperatorTree) (others : List Token) : Prop :=
  ∀ {precedence : Precedence} {depth : Nat} {next : Token} {more : List Token} {tails : List Tail} {stop : Cursor},
    tree.Exceeds precedence.rank → tree.EndsAt next → tree.levels ≤ depth →
    many (tail? (expression depth) precedence) (base.push (next :: more)) = .ok tails stop →
    ∃ own, many (tail? (expression depth) precedence) (base.push (others ++ next :: more)) =
        .ok (own ++ tails) stop ∧
      own.foldl Expr.extend ⟨tree.first.line, .identifier tree.first.text⟩ = tree.toExpr

theorem Continues.run (continues : tree.Continues base others) (kind : tree.first.kind = .identifier)
    {precedence : Precedence} {depth : Nat} {next : Token} (exceeds : tree.Exceeds precedence.rank)
    (ends : next.Ends precedence) (deep : tree.levels ≤ depth) (more : List Token) :
    expression (depth + 1) precedence (base.push (tree.first :: (others ++ next :: more))) =
      .ok tree.toExpr (base.push (next :: more)) := by
  have none : many (tail? (expression depth) precedence) (base.push (next :: more)) =
      .ok [] (base.push (next :: more)) := Parser.many_none (run_tail?_none ends)
  obtain ⟨own, run, folded⟩ := continues exceeds (exceeds.endsAt ends) deep none
  rw [append_nil] at run
  have leaf : operand (expression depth) (base.push (tree.first :: (others ++ next :: more))) =
      .ok ⟨tree.first.line, .identifier tree.first.text⟩ (base.push (others ++ next :: more)) := by
    simp [operand, atom, kind]
  simp [expression, operators, leaf, run, ends.walrus, folded]

theorem Writes.continues (writes : tree.Writes tokens) (respects : tree.Respects) (base : Cursor) :
    ∃ others, tokens = tree.first :: others ∧ tree.first.kind = .identifier ∧ tree.Continues base others := by
  induction writes with
  | name kind =>
    refine ⟨[], rfl, kind, ?_⟩
    intro precedence depth next more tails stop _ _ _ run
    exact ⟨[], run, rfl⟩
  | @node op left right before written after forLeft spelled forRight leftIh rightIh =>
    obtain ⟨respectsLeft, respectsRight, fitsLeft, fitsRight⟩ := respects
    obtain ⟨leftOthers, rfl, leftKind, leftContinues⟩ := leftIh respectsLeft
    obtain ⟨rightOthers, rfl, rightKind, rightContinues⟩ := rightIh respectsRight
    refine ⟨leftOthers ++ (written ++ right.first :: rightOthers), rfl, leftKind, ?_⟩
    intro precedence depth next more tails stop exceeds ends deep run
    obtain ⟨depth, rfl⟩ : ∃ inner, depth = inner + 1 := by
      refine ⟨depth - 1, ?_⟩
      rw [levels] at deep
      omega
    have low : left.levels ≤ depth + 1 ∧ right.levels ≤ depth := by
      rw [levels] at deep
      omega
    have operand := rightContinues.run rightKind fitsRight.exceeds ends low.2 more
    have step : tail? (expression (depth + 1)) precedence
        (base.push (written ++ right.first :: (rightOthers ++ next :: more))) =
        .ok (some (.operator op right.toExpr)) (base.push (next :: more)) :=
      run_tail?_spelled spelled rightKind exceeds operand
    have shorter : (base.push (next :: more)).size <
        (base.push (written ++ right.first :: (rightOthers ++ next :: more))).size := by
      simp only [Cursor.size_push, length_append, length_cons]
      omega
    have later : many (tail? (expression (depth + 1)) precedence)
        (base.push (written ++ right.first :: (rightOthers ++ next :: more))) =
        .ok (.operator op right.toExpr :: tails) stop := by
      rw [Parser.many_some step shorter, run_map, run]
    obtain ⟨symbol, rest, split, endsLeft⟩ := fitsLeft.endsAt spelled
    rw [split, cons_append] at later
    obtain ⟨own, whole, folded⟩ := leftContinues (fitsLeft.exceeds exceeds) endsLeft low.1 later
    refine ⟨own ++ [.operator op right.toExpr], ?_, ?_⟩
    · simpa [split] using whole
    · rw [foldl_append, first, folded]
      rfl

/-- The tree has the names and operators of a line in order and respects the precedences. -/
structure Groups (first : Token) (links : List OperatorLink) (tree : OperatorTree) : Prop where
  first : tree.first = first
  others : tree.others = links.map fun link => (link.op, link.name)
  respects : tree.Respects

theorem Groups.unique {first : Token} {links : List OperatorLink} {tree other : OperatorTree}
    (groups : tree.Groups first links) (groups' : other.Groups first links) : other = tree := by
  rw [← groups.respects.build_others, ← groups'.respects.build_others, groups.first, groups'.first,
    groups.others, groups'.others]

theorem groups_build (first : Token) (links : List OperatorLink) :
    ((name first).build (links.map fun link => (link.op, link.name))).Groups first links := by
  have leaf : (name first).Respects := trivial
  refine ⟨first_build _ _, ?_, leaf.build _⟩
  rw [others_build]
  rfl

theorem exceeds_lowest (tree : OperatorTree) : tree.Exceeds Precedence.lowest.rank := by
  cases tree with
  | name => trivial
  | node op _ _ => cases op <;> exact Nat.zero_lt_succ _

theorem Groups.levels_le {first : Token} {links : List OperatorLink} (groups : tree.Groups first links) :
    tree.levels ≤ links.countP (·.op = .power) + Precedence.unary.rank := by
  have bound := groups.respects.levels_le tree.exceeds_lowest (Nat.zero_le _)
  rwa [powers, groups.others, countP_map] at bound

end OperatorTree

open OperatorTree in
/-- Names joined by operators are read as the one tree that respects the precedences. -/
theorem Program.ofTokens_groups (file : String) {first newline last : Token} {links : List OperatorLink}
    (kind : first.kind = .identifier) (spelled : ∀ link ∈ links, link.IsSpelled)
    (few : links.countP (·.op = .power) ≤ 50)
    (ends : newline.kind = .newline) (final : last.kind = .endOfInput) :
    ∃ tree, tree.Groups first links ∧ (∀ other : OperatorTree, other.Groups first links → other = tree) ∧
      ofTokens file (first :: (links.flatMap OperatorLink.tokens ++ [newline, last])) =
        (⟨file, [⟨first.line, .expr tree.toExpr⟩]⟩, []) := by
  have groups := groups_build first links
  generalize (OperatorTree.name first).build (links.map fun link => (link.op, link.name)) = tree at groups
  refine ⟨tree, groups, fun other => groups.unique, ?_⟩
  obtain ⟨rfl, others, respects⟩ := groups
  have low : tree.levels ≤ 63 := by
    have bound := Groups.levels_le ⟨rfl, others, respects⟩
    have nine : Precedence.unary.rank = 9 := rfl
    omega
  obtain ⟨value, read, rfl⟩ := ofTokens_expression file (.inl kind) ends final fun base => by
    obtain ⟨tokens, same, -, continues⟩ := (writes_of_others kind others spelled).continues respects base
    have run := continues.run kind tree.exceeds_lowest (Token.ends_newline .lowest ends) low [last]
    rw [← cons_inj_right .. |>.mp same] at run
    exact ⟨_, run, rfl⟩
  exact read

/-- `a or b is not c ** d ** e + f`, with a line break in the second operator -/
def OperatorLink.mixed : List OperatorLink :=
  [⟨.or, [⟨.keyword, "or", 1⟩], ⟨.identifier, "b", 1⟩⟩,
    ⟨.isNot, [⟨.keyword, "is", 1⟩, ⟨.keyword, "not", 2⟩], ⟨.identifier, "c", 2⟩⟩,
    ⟨.power, [⟨.operator, "**", 2⟩], ⟨.identifier, "d", 2⟩⟩,
    ⟨.power, [⟨.operator, "**", 2⟩], ⟨.identifier, "e", 2⟩⟩,
    ⟨.add, [⟨.operator, "+", 2⟩], ⟨.identifier, "f", 2⟩⟩]

theorem Program.ofTokens_groups_mixed : (∀ link ∈ OperatorLink.mixed, link.IsSpelled) ∧
    OperatorLink.mixed.countP (·.op = .power) ≤ 50 ∧
    ∃ tree : OperatorTree, tree.Groups ⟨.identifier, "a", 1⟩ OperatorLink.mixed ∧
      (∀ other : OperatorTree, other.Groups ⟨.identifier, "a", 1⟩ OperatorLink.mixed → other = tree) ∧
      ofTokens "mixed.py" (⟨.identifier, "a", 1⟩ :: (OperatorLink.mixed.flatMap OperatorLink.tokens ++
          [⟨.newline, "\n", 2⟩, ⟨.endOfInput, "", 3⟩])) =
        (⟨"mixed.py", [⟨1, .expr tree.toExpr⟩]⟩, []) := by
  have same : ∀ {token other : Token}, token.kind = other.kind → token.text = other.text →
      token.Alike (fun _ _ => True) other := fun kind text => ⟨kind, text, trivial⟩
  have spelled : ∀ link ∈ OperatorLink.mixed, link.IsSpelled := by
    simp only [OperatorLink.mixed, forall_mem_cons, not_mem_nil, false_imp_iff, implies_true, and_true]
    exact ⟨⟨.cons (same rfl rfl) .nil, rfl⟩, ⟨.cons (same rfl rfl) (.cons (same rfl rfl) .nil), rfl⟩,
      ⟨.cons (same rfl rfl) .nil, rfl⟩, ⟨.cons (same rfl rfl) .nil, rfl⟩, ⟨.cons (same rfl rfl) .nil, rfl⟩⟩
  exact ⟨spelled, by decide, Program.ofTokens_groups "mixed.py" rfl spelled (by decide) rfl rfl⟩

end SourceAudit
