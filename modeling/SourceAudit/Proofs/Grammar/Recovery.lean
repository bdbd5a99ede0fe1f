import Mathlib.Data.List.Chain
import SourceAudit.Grammar.Cursor
import SourceAudit.Proofs.Grammar.Reading
import SourceAudit.Proofs.Scanner.LogicalLines

open List

namespace SourceAudit

namespace Token

/-- Tokens that need `down` open blocks and leave `up` instead, whatever is open around them. -/
def Shifts (down up : Nat) (tokens : List Token) : Prop :=
  ∀ level, levelAfter (level + down) tokens = some (level + up)

theorem Shifts.nil (level : Nat) : Shifts level level [] := fun _ => rfl

theorem Shifts.append {down middle up : Nat} {front back : List Token}
    (first : Shifts down middle front) (second : Shifts middle up back) :
    Shifts down up (front ++ back) := by
  intro level
  rw [levelAfter_append, first level]
  exact second level

theorem Shifts.raise {down up : Nat} {tokens : List Token} (shifts : Shifts down up tokens)
    (more : Nat) : Shifts (more + down) (more + up) tokens := by
  intro level
  rw [← Nat.add_assoc, ← Nat.add_assoc]
  exact shifts (level + more)

theorem Shifts.count {down up : Nat} {tokens : List Token} (shifts : Shifts down up tokens) :
    down + indents tokens = up + dedents tokens := by
  have counted := levelAfter_count (shifts 0)
  omega

theorem Shifts.indent {token : Token} (indent : token.kind = .indent) : Shifts 0 1 [token] := by
  intro level
  simp [levelAfter, indent]

theorem Shifts.dedent {token : Token} (dedent : token.kind = .dedent) : Shifts 1 0 [token] := by
  intro level
  simp [levelAfter, dedent]

theorem Shifts.flat {tokens : List Token} (level : Nat)
    (flat : ∀ token ∈ tokens, token.kind ≠ .indent ∧ token.kind ≠ .dedent) :
    Shifts level level tokens :=
  fun _ => levelAfter_flat _ flat

theorem Shifts.single {token : Token} (level : Nat) (opens : token.kind ≠ .indent)
    (closes : token.kind ≠ .dedent) : Shifts level level [token] := by
  refine .flat level ?_
  intro other member
  rw [mem_singleton.mp member]
  exact ⟨opens, closes⟩

theorem Shifts.exists_single (token : Token) : ∃ low high, Shifts low high [token] := by
  by_cases indent : token.kind = .indent
  · exact ⟨_, _, .indent indent⟩
  by_cases dedent : token.kind = .dedent
  · exact ⟨_, _, .dedent dedent⟩
  · exact ⟨0, 0, .single 0 indent dedent⟩

theorem indents_append (front back : List Token) :
    indents (front ++ back) = indents front + indents back :=
  countP_append

theorem dedents_append (front back : List Token) :
    dedents (front ++ back) = dedents front + dedents back :=
  countP_append

theorem indents_cons (token : Token) (rest : List Token) :
    indents (token :: rest) = indents rest + if token.kind = .indent then 1 else 0 := by
  simp [indents, countP_cons]

theorem dedents_cons (token : Token) (rest : List Token) :
    dedents (token :: rest) = dedents rest + if token.kind = .dedent then 1 else 0 := by
  simp [dedents, countP_cons]

end Token

namespace Layout

open Token

structure Follows (token next : Token) : Prop where
  more : token.kind ≠ .endOfInput
  indent : next.kind = .indent → token.kind = .newline
  line : token.kind.isLayout = false → next.kind.isLayout = false ∨ next.kind = .newline
  opens : token.kind = .indent → next.kind.isLayout = false

/-- The tokens from some place of a text on: indents stand at the start of lines, all open blocks
    are closed, and the end of input comes last. -/
structure Laid (tokens : List Token) : Prop where
  follows : tokens.IsChain Follows
  closes : ∀ suffix, suffix <:+ tokens → indents suffix ≤ dedents suffix
  ends : ∀ last, tokens.getLast? = some last → last.kind = .endOfInput

theorem Laid.suffix {front back : List Token} (laid : Laid (front ++ back)) : Laid back where
  follows := laid.follows.right_of_append
  closes := fun suffix part => laid.closes suffix (part.trans (suffix_append front back))
  ends := by
    intro last found
    apply laid.ends last
    rw [List.getLast?_append, found]
    rfl

theorem Laid.rest {token : Token} {tokens : List Token} (laid : Laid (token :: tokens)) : Laid tokens := by
  have whole : Laid ([token] ++ tokens) := laid
  exact whole.suffix

theorem Laid.next {token next : Token} {tokens : List Token} (laid : Laid (token :: next :: tokens)) :
    Follows token next :=
  (isChain_cons_cons.mp laid.follows).1

theorem Laid.last {token : Token} {tokens : List Token} (laid : Laid (token :: tokens))
    (ended : token.kind = .endOfInput) : tokens = [] := by
  cases tokens with
  | nil => rfl
  | cons next tokens => exact absurd ended laid.next.more

theorem Follows.of_newline {token : Token} (newline : token.kind = .newline) (next : Token) :
    Follows token next :=
  ⟨by simp [newline], fun _ => newline, by simp [newline, Kind.isLayout], by simp [newline]⟩

theorem Follows.of_indent {token next : Token} (indent : token.kind = .indent)
    (written : next.kind.isLayout = false) : Follows token next := by
  refine ⟨by simp [indent], ?_, by simp [indent, Kind.isLayout], fun _ => written⟩
  intro indent
  simp [indent, Kind.isLayout] at written

theorem Follows.of_dedent {token next : Token} (dedent : token.kind = .dedent)
    (written : next.kind ≠ .indent) : Follows token next :=
  ⟨by simp [dedent], fun indent => absurd indent written, by simp [dedent, Kind.isLayout], by simp [dedent]⟩

theorem Follows.of_written {token next : Token} (written : token.kind.isLayout = false)
    (goes : next.kind.isLayout = false ∨ next.kind = .newline) : Follows token next := by
  refine ⟨?_, ?_, fun _ => goes, ?_⟩
  · intro ended
    simp [ended, Kind.isLayout] at written
  · intro indent
    rcases goes with goes | goes <;> simp [indent, Kind.isLayout] at goes
  · intro indent
    simp [indent, Kind.isLayout] at written

theorem chain_dedents {closed rest : List Token} (dedents : ∀ token ∈ closed, token.kind = .dedent)
    (head : ∀ next ∈ rest.head?, next.kind ≠ .indent) (chain : rest.IsChain Follows) :
    (closed ++ rest).IsChain Follows := by
  induction closed with
  | nil => exact chain
  | cons token closed ih =>
    refine isChain_cons.mpr ⟨?_, ih fun other member => dedents other (mem_cons_of_mem _ member)⟩
    intro next found
    refine .of_dedent (dedents token mem_cons_self) ?_
    cases closed with
    | nil => exact head next found
    | cons other closed =>
      cases found
      rw [dedents next (by simp)]
      decide

theorem chain_written {content rest : List Token} {last : Token}
    (written : ∀ token ∈ content, token.kind.isLayout = false) (final : last.kind = .newline)
    (chain : (last :: rest).IsChain Follows) : (content ++ last :: rest).IsChain Follows := by
  induction content with
  | nil => exact chain
  | cons token content ih =>
    refine isChain_cons.mpr ⟨?_, ih fun other member => written other (mem_cons_of_mem _ member)⟩
    intro next found
    refine .of_written (written token mem_cons_self) ?_
    cases content with
    | nil =>
      cases found
      exact .inr final
    | cons other content =>
      cases found
      exact .inl (written next (by simp))

theorem Opening.chain {before level : Nat} {opening rest : List Token} {first : Token}
    (opens : Opening before level opening) (starts : first.kind.isLayout = false)
    (chain : (first :: rest).IsChain Follows) : (opening ++ first :: rest).IsChain Follows := by
  have written : first.kind ≠ .indent := by
    intro indent
    simp [indent, Kind.isLayout] at starts
  cases opens with
  | deeper indent =>
    refine isChain_cons.mpr ⟨?_, chain⟩
    rintro next ⟨⟩
    exact .of_indent indent starts
  | shallower dedents =>
    refine chain_dedents dedents ?_ chain
    rintro next ⟨⟩
    exact written
  | misaligned dedents misplaced =>
    rw [append_assoc]
    refine chain_dedents dedents ?_ (isChain_cons.mpr ⟨?_, chain⟩)
    · rintro next ⟨⟩
      rw [misplaced.1]
      decide
    · rintro next ⟨⟩
      exact .of_written (by rw [misplaced.1]; rfl) (.inl starts)

theorem Lines.chain {level : Nat} {tokens : List Token} (lines : Lines level tokens) :
    tokens.IsChain Follows := by
  induction lines with
  | @done level closing last dedents all final =>
    refine chain_dedents dedents ?_ (.singleton last)
    rintro next ⟨⟩
    rw [final]
    decide
  | @line before level opening content rest first last opens starts written final more ih =>
    have ending : (last :: rest).IsChain Follows :=
      isChain_cons.mpr ⟨fun next _ => .of_newline final next, ih⟩
    have line : ∀ token ∈ first :: content, token.kind.isLayout = false := by
      intro token member
      rcases mem_cons.mp member with rfl | member
      · exact starts.1
      · exact (written token member).1
    rw [append_assoc]
    exact opens.chain starts.1 (chain_written line final ending)

theorem Lines.laid {tokens : List Token} (lines : Lines 0 tokens) : Laid tokens where
  follows := lines.chain
  closes := by
    rintro suffix ⟨front, rfl⟩
    have counted := lines.levelAfter
    rw [levelAfter_append] at counted
    obtain ⟨middle, reached, closed⟩ := Option.bind_eq_some_iff.mp counted
    have first := levelAfter_count reached
    have second := levelAfter_count closed
    omega
  ends := by
    obtain ⟨written, closing, last, rfl, _, _, final⟩ := lines.split
    intro token found
    rw [List.getLast?_append] at found
    cases found
    exact final

end Layout
namespace Cursor

open Token Layout

/-- What a way to skip tokens does to two alike runs, which may be followed by different tokens: it
    stops at the same place of both, unless it takes all of them. -/
structure Skipped (skip : List Token → List Token) (run run' tail : List Token) (down up count : Nat) :
    Prop where
  bound : count ≤ run.length
  left : skip (run ++ tail) = run.drop count ++ tail
  right : count < run.length → ∀ tail', skip (run' ++ tail') = run'.drop count ++ tail'
  inner : ∀ token ∈ run.take count, token.kind ≠ .endOfInput
  shifts : Shifts down up (run.take count)

theorem Skipped.cons {skip skip' : List Token → List Token} {run run' tail : List Token} {token token' : Token}
    {down middle up count : Nat} (skipped : Skipped skip run run' tail middle up count)
    (left : skip' (token :: run ++ tail) = skip (run ++ tail))
    (right : ∀ tail', skip' (token' :: run' ++ tail') = skip (run' ++ tail'))
    (more : token.kind ≠ .endOfInput) (shifts : Shifts down middle [token]) :
    Skipped skip' (token :: run) (token' :: run') tail down up (count + 1) where
  bound := Nat.succ_le_succ skipped.bound
  left := left.trans skipped.left
  right := fun inside tail' => (right tail').trans (skipped.right (Nat.lt_of_succ_lt_succ inside) tail')
  inner := by
    intro other member
    rw [take_succ_cons] at member
    rcases mem_cons.mp member with rfl | member
    · exact more
    · exact skipped.inner other member
  shifts := by
    rw [take_succ_cons]
    exact shifts.append skipped.shifts

theorem Skipped.stays {skip : List Token → List Token} {run run' tail : List Token} {level : Nat}
    (left : skip (run ++ tail) = run ++ tail) (right : ∀ tail', skip (run' ++ tail') = run' ++ tail') :
    Skipped skip run run' tail level level 0 where
  bound := Nat.zero_le _
  left := left
  right := fun _ => right
  inner := by simp
  shifts := .nil level

variable {lines : Nat → Nat → Prop}

theorem skipIndented_skipped {run run' tail : List Token} {depth : Nat}
    (alike : List.Forall₂ (Token.Alike lines) run run') (laid : Laid (run ++ tail))
    (ended : ∀ token ∈ tail.head?, token.kind = .endOfInput) (nested : 0 < depth)
    (owed : depth + indents (run ++ tail) ≤ dedents (run ++ tail)) :
    ∃ count, Skipped (skipIndented depth) run run' tail depth 0 count := by
  induction alike generalizing depth with
  | nil =>
    exfalso
    cases tail with
    | nil =>
      change depth + 0 ≤ 0 at owed
      omega
    | cons token tail =>
      have kind := ended token rfl
      rw [nil_append] at laid
      rw [nil_append, laid.last kind, indents_cons, dedents_cons, if_neg (by simp [kind]),
        if_neg (by simp [kind])] at owed
      change depth + 0 ≤ 0 at owed
      omega
  | @cons token token' run run' first others ih =>
    have same := first.kind
    rw [cons_append] at laid
    rw [cons_append, indents_cons, dedents_cons] at owed
    have onward := laid.rest
    by_cases indent : token.kind = .indent
    · rw [if_pos indent, if_neg (by simp [indent])] at owed
      obtain ⟨count, skipped⟩ := ih onward (Nat.succ_pos depth) (by omega)
      refine ⟨count + 1, skipped.cons ?_ ?_ (by simp [indent]) ?_⟩
      · simp [skipIndented, indent]
      · intro tail'
        simp [skipIndented, ← same, indent]
      · have opened := (Shifts.indent indent).raise depth
        exact opened
    by_cases dedent : token.kind = .dedent
    · rw [if_neg indent, if_pos dedent] at owed
      by_cases last : depth = 1
      · subst last
        have stays : Skipped id run run' tail 0 0 0 := .stays rfl fun _ => rfl
        refine ⟨1, stays.cons ?_ ?_ (by simp [dedent]) (.dedent dedent)⟩
        · simp [skipIndented, dedent]
        · intro tail'
          simp [skipIndented, ← same, dedent]
      · obtain ⟨outer, rfl⟩ : ∃ outer, depth = outer + 1 := ⟨depth - 1, by omega⟩
        obtain ⟨count, skipped⟩ := @ih outer onward (by omega) (by omega)
        refine ⟨count + 1, skipped.cons ?_ ?_ (by simp [dedent]) ?_⟩
        · simp [skipIndented, dedent, show ¬ outer + 1 ≤ 1 by omega]
        · intro tail'
          simp [skipIndented, ← same, dedent, show ¬ outer + 1 ≤ 1 by omega]
        · exact (Shifts.dedent dedent).raise outer
    have more : token.kind ≠ .endOfInput := by
      intro last
      have nothing := laid.last last
      rw [nothing, if_neg indent, if_neg dedent] at owed
      change depth + (0 + 0) ≤ 0 + 0 at owed
      omega
    rw [if_neg indent, if_neg dedent] at owed
    obtain ⟨count, skipped⟩ := ih onward nested owed
    refine ⟨count + 1, skipped.cons ?_ ?_ more (.single depth indent dedent)⟩
    · rw [cons_append, skipIndented]
      split <;> simp_all
    · intro tail'
      rw [cons_append, skipIndented]
      split <;> simp_all

theorem skipIndented_suffix (depth : Nat) (tokens : List Token) : skipIndented depth tokens <:+ tokens := by
  fun_induction skipIndented depth tokens with
  | case1 => exact suffix_rfl
  | case2 depth token rest indent ih => exact ih.trans (suffix_cons _ _)
  | case3 depth token rest dedent last => exact suffix_cons _ _
  | case4 depth token rest dedent more ih => exact ih.trans (suffix_cons _ _)
  | case5 => exact suffix_rfl
  | case6 depth token rest _ _ _ ih => exact ih.trans (suffix_cons _ _)

theorem nextStatement_suffix (tokens : List Token) : nextStatement tokens <:+ tokens := by
  fun_induction nextStatement tokens with
  | case1 => exact suffix_rfl
  | case2 => exact suffix_rfl
  | case3 => exact suffix_rfl
  | case4 => exact nil_suffix
  | case5 => exact (skipIndented_suffix _ _).trans (suffix_cons _ _)
  | case6 => exact suffix_cons _ _
  | case7 => exact suffix_rfl
  | case8 token rest _ _ _ _ ih => exact ih.trans (suffix_cons _ _)

theorem nextStatement_word {token : Token} (rest : List Token) (more : token.kind ≠ .endOfInput)
    (closes : token.kind ≠ .dedent) (newline : token.kind ≠ .newline) :
    nextStatement (token :: rest) =
      if token.isStatementStarter then token :: rest else nextStatement rest := by
  rw [nextStatement.eq_def]
  dsimp only
  split <;> simp_all

theorem nextStatement_newline {token token' : Token} {run run' tail : List Token}
    (first : token.Alike lines token') (newline : token.kind = .newline)
    (others : List.Forall₂ (Token.Alike lines) run run') (laid : Laid (token :: (run ++ tail)))
    (ended : ∀ token ∈ tail.head?, token.kind = .endOfInput) :
    ∃ count, Skipped nextStatement (token :: run) (token' :: run') tail 0 0 count := by
  have same := first.kind
  have more : token.kind ≠ .endOfInput := by simp [newline]
  have line : Shifts 0 0 [token] := .single 0 (by simp [newline]) (by simp [newline])
  have passes : ∀ next more, next.kind ≠ .indent → ∀ token : Token, token.kind = .newline →
      nextStatement (token :: next :: more) = next :: more := by
    intro next more flat token kind
    simp [nextStatement, kind, flat]
  cases others with
  | nil =>
    refine ⟨1, Nat.le_refl _, ?_, fun inside => absurd inside (Nat.lt_irrefl _), ?_, line⟩
    · cases tail with
      | nil => simp [nextStatement, newline]
      | cons next tail => exact passes next tail (by simp [ended next rfl]) token newline
    · intro other member
      rw [mem_singleton.mp member]
      exact more
  | @cons next next' run run' second others =>
    by_cases indent : next.kind = .indent
    · have owed := laid.rest.closes _ suffix_rfl
      rw [cons_append, indents_cons, dedents_cons, if_pos indent, if_neg (by simp [indent])] at owed
      obtain ⟨count, skipped⟩ := skipIndented_skipped others laid.rest.rest ended Nat.one_pos (by omega)
      have block : Skipped (skipIndented 0) (next :: run) (next' :: run') tail 0 0 (count + 1) := by
        refine skipped.cons ?_ ?_ (by simp [indent]) (.indent indent)
        · simp [skipIndented, indent]
        · intro tail'
          simp [skipIndented, ← second.kind, indent]
      refine ⟨count + 1 + 1, block.cons ?_ ?_ more line⟩
      · simp [nextStatement, newline, indent]
      · intro tail'
        simp [nextStatement, ← same, newline, ← second.kind, indent]
    · have stays : Skipped id (next :: run) (next' :: run') tail 0 0 0 := .stays rfl fun _ => rfl
      refine ⟨1, stays.cons ?_ ?_ more line⟩
      · exact passes next _ indent token newline
      · intro tail'
        exact passes next' _ (by rwa [← second.kind]) token' (by rw [← same]; exact newline)

theorem nextStatement_skipped {run run' tail : List Token}
    (alike : List.Forall₂ (Token.Alike lines) run run') (laid : Laid (run ++ tail))
    (ended : ∀ token ∈ tail.head?, token.kind = .endOfInput) :
    ∃ count, Skipped nextStatement run run' tail 0
      (if run.head?.map (·.kind) = some .indent then 1 else 0) count := by
  induction alike with
  | nil =>
    refine ⟨0, Nat.zero_le _, ?_, by simp, by simp, .nil 0⟩
    cases tail with
    | nil => rfl
    | cons token tail => simp [nextStatement, ended token rfl]
  | @cons token token' run run' first others ih =>
    have same := first.kind
    rw [cons_append] at laid
    by_cases stops : token.kind = .endOfInput ∨ token.kind = .dedent
    · have flat : (token :: run).head?.map (·.kind) ≠ some .indent := by
        rcases stops with kind | kind <;> simp [kind]
      rw [if_neg flat]
      refine ⟨0, .stays ?_ ?_⟩
      · rcases stops with kind | kind <;> simp [nextStatement, kind]
      · intro tail'
        rcases stops with kind | kind <;> simp [nextStatement, ← same, kind]
    rw [not_or] at stops
    by_cases newline : token.kind = .newline
    · rw [if_neg (by simp [newline])]
      exact nextStatement_newline first newline others laid ended
    by_cases starts : token.isStatementStarter = true
    · have starts' : token'.isStatementStarter = true := by
        rw [first.test (·.isStatementStarter) fun _ _ => rfl]
        exact starts
      have keyword : token.kind = .keyword := by
        simp only [isStatementStarter, Bool.and_eq_true, beq_iff_eq] at starts
        exact starts.1
      rw [if_neg (by simp [keyword])]
      refine ⟨0, .stays ?_ ?_⟩
      · rw [cons_append, nextStatement_word _ stops.1 stops.2 newline, if_pos starts]
      · intro tail'
        rw [cons_append, nextStatement_word _ (same ▸ stops.1) (same ▸ stops.2) (same ▸ newline),
          if_pos starts']
    · have starts' : ¬ token'.isStatementStarter = true := by
        rw [first.test (·.isStatementStarter) fun _ _ => rfl]
        exact starts
      -- after anything but a line end there is no indent
      have flat : run.head?.map (·.kind) ≠ some .indent := by
        cases run with
        | nil => simp
        | cons next run =>
          intro indent
          exact newline (laid.next.indent (by simpa using indent))
      obtain ⟨count, skipped⟩ := ih laid.rest
      rw [if_neg flat] at skipped
      have passed : Shifts 0 (if token.kind = .indent then 1 else 0) [token] := by
        split
        · rename_i indent
          exact .indent indent
        · rename_i indent
          exact .single 0 indent stops.2
      have up := skipped.shifts.raise (if token.kind = .indent then 1 else 0)
      have raised : Skipped nextStatement run run' tail (if token.kind = .indent then 1 else 0)
          (if token.kind = .indent then 1 else 0) count := { skipped with shifts := up }
      have whole : Skipped nextStatement (token :: run) (token' :: run') tail 0
          (if token.kind = .indent then 1 else 0) (count + 1) := by
        refine raised.cons ?_ ?_ stops.1 passed
        · rw [cons_append, nextStatement_word _ stops.1 stops.2 newline, if_neg starts]
        · intro tail'
          rw [cons_append, nextStatement_word _ (same ▸ stops.1) (same ▸ stops.2) (same ▸ newline),
            if_neg starts']
      exact ⟨count + 1, by simpa using whole⟩

end Cursor
end SourceAudit
