import SourceAudit.Proofs.Rules.NodeBudget

open List

namespace SourceAudit

/-- A name at a place where a binding is put in for it. -/
inductive Expr.Reads (name : String) : Expr → Prop where
  | here {expr : Expr} (shape : expr.shape = .identifier name) : Reads name expr
  | inside {expr piece : Expr} (member : piece ∈ expr.pieces) (reads : Reads name piece) : Reads name expr

def Expr.target (place : Nat × String) : Expr := ⟨place.1, .identifier place.2⟩

/-- A value that binding some names in front does not change: a mere name, or one in which none of them is read. -/
def Expr.IsApart (value : Expr) (places : List (Nat × String)) : Prop :=
  (∃ place, value = .target place) ∨ ∀ place ∈ places, ¬ value.Reads place.2

def Assignment.chain (places : List (Nat × String)) (value : Expr) (hint : Option Expr) : Assignment :=
  ⟨places.map Expr.target, some value, hint, none⟩

namespace Bindings

variable {bindings after : Bindings} {value : Expr}

theorem resolve_congr {expr : Expr} (same : ∀ name, expr.Reads name → bindings.lookup name = after.lookup name) :
    bindings.resolve expr = after.resolve expr := by
  induction size : sizeOf expr using Nat.strongRecOn generalizing expr with
  | ind size ih =>
    subst size
    by_cases other : ∀ name, expr.shape ≠ .identifier name
    · rw [resolve_of_not_name other, resolve_of_not_name other]
      refine Expr.mapPieces_congr fun piece member => ?_
      exact ih _ (Expr.sizeOf_piece member) (fun name reads => same name (.inside member reads)) rfl
    · push Not at other
      obtain ⟨name, shape⟩ := other
      rcases expr with ⟨line, _⟩
      cases shape
      rw [resolve_identifier, resolve_identifier, same name (.here rfl)]

theorem size_le_resolve {name : String} {found expr : Expr} (known : bindings.lookup name = some found)
    (reads : expr.Reads name) : found.size ≤ (bindings.resolve expr).size ∧
      (expr.pieces ≠ [] → found.size < (bindings.resolve expr).size) := by
  induction reads with
  | @here expr shape =>
    rcases expr with ⟨line, _⟩
    cases shape
    rw [resolve_identifier, known]
    exact ⟨Nat.le_refl _, fun wrong => absurd rfl wrong⟩
  | @inside expr piece member reads ih =>
    have other : ∀ name, expr.shape ≠ .identifier name := by
      intro name shape
      simp [Expr.pieces, shape] at member
    have part : (bindings.resolve piece).size ≤ ((expr.pieces.map bindings.resolve).map Expr.size).sum :=
      single_le_sum (by simp) _ (mem_map_of_mem (mem_map_of_mem member))
    have whole := (bindings.resolve expr).size_eq
    rw [pieces_resolve other] at whole
    exact ⟨by omega, fun _ => by omega⟩

theorem resolve_target (bindings : Bindings) (place : Nat × String) :
    bindings.resolve (.target place) = (bindings.lookup place.2).getD (.target place) :=
  resolve_identifier bindings place.1 place.2

theorem bindTarget_target {assignment : Assignment} (plain : assignment.augmented = none) (value : Expr)
    (bindings : Bindings) (place : Nat × String) :
    bindTarget assignment value bindings (.target place) =
      bindings.insert place.2
        (if isSmall (bindings.resolve value) then bindings.resolve value else .target place) := by
  simp [bindTarget, Expr.target, assigned?, plain]

/-- The names of some places hold one value, and all others what they held before. -/
def Shares (places : List (Nat × String)) (value : Expr) (bindings after : Bindings) : Prop :=
  ∀ name, after.lookup name = if name ∈ places.map Prod.snd then some value else bindings.lookup name

theorem Shares.resolve {places : List (Nat × String)}
    (shares : Shares places (bindings.resolve value) bindings after)
    (apart : value.IsApart places) : after.resolve value = bindings.resolve value := by
  rcases apart with ⟨place, rfl⟩ | apart
  · rw [resolve_target, resolve_target, shares place.2]
    split
    · rw [Option.getD_some, resolve_target]
    · rfl
  · refine (resolve_congr fun name reads => ?_).symm
    rw [shares name, if_neg]
    intro among
    obtain ⟨place, member, rfl⟩ := mem_map.mp among
    exact apart place member reads

theorem foldl_shares {assignment : Assignment} (plain : assignment.augmented = none)
    (small : isSmall (bindings.resolve value) = true) {places : List (Nat × String)}
    (apart : value.IsApart places.dropLast) :
    Shares places (bindings.resolve value) bindings
      ((places.map Expr.target).foldl (bindTarget assignment value) bindings) := by
  induction places using List.reverseRecOn with
  | nil => simp [Shares]
  | append_singleton places place ih =>
    rw [dropLast_concat] at apart
    have earlier := ih (apart.imp_right fun free other member => free other (dropLast_subset _ member))
    intro name
    rw [map_append, map_singleton, foldl_concat, bindTarget_target plain, earlier.resolve apart,
      if_pos small, lookup_insert, earlier name, map_append, map_singleton]
    by_cases same : name = place.2 <;>
      simp only [mem_append, mem_singleton, same, or_true, or_false, if_true, if_false]

theorem apart_of_shared {assignment : Assignment} (plain : assignment.augmented = none)
    {places : List (Nat × String)} (distinct : (places.map Prod.snd).Nodup)
    (shared : ∀ place ∈ places,
      ((places.map Expr.target).foldl (bindTarget assignment value) bindings).resolve (.target place) =
        bindings.resolve value) :
    value.IsApart places.dropLast := by
  induction places using List.reverseRecOn with
  | nil => exact .inr (by simp)
  | append_singleton places last =>
    rw [dropLast_concat, Expr.IsApart]
    by_contra! against
    obtain ⟨other, place, member, reads⟩ := against
    have composed : value.pieces ≠ [] := by
      cases reads with
      | here shape =>
        rcases value with ⟨line, _⟩
        cases shape
        exact absurd rfl (other (line, place.2))
      | inside inner => exact ne_nil_of_mem inner
    have unnamed : ∀ name, value.shape ≠ .identifier name := by
      intro name shape
      exact composed (by simp [Expr.pieces, shape])
    have built : (bindings.resolve value).pieces ≠ [] := by
      rwa [pieces_resolve unnamed, Ne, map_eq_nil_iff]
    rw [map_append, map_singleton, nodup_append] at distinct
    rw [map_append, map_singleton, foldl_concat, bindTarget_target plain] at shared
    generalize (places.map Expr.target).foldl (bindTarget assignment value) bindings = before at shared
    -- the last target was given the value as the targets before it left it
    have final := shared last (by simp)
    rw [resolve_target, lookup_insert, if_pos rfl, Option.getD_some] at final
    split at final
    · -- and one of these holds the whole value, of which it is a piece
      have held := shared place (by simp [member])
      rw [resolve_target, lookup_insert, if_neg ?_] at held
      · cases known : before.lookup place.2 with
        | none =>
          rw [known, Option.getD_none] at held
          exact built (held ▸ rfl)
        | some found =>
          have grown := (size_le_resolve known reads).2 composed
          rw [known, Option.getD_some] at held
          rw [held, final] at grown
          exact Nat.lt_irrefl _ grown
      · exact distinct.2.2 _ (mem_map_of_mem member) _ (mem_singleton.mpr rfl)
    · exact built (final ▸ rfl)

/-- After a chain of plain names with a small value, all of them resolve to the value as it was before the statement
    if the value is a mere name or none of them but the last is read in it. If the names differ, this is the only
    case. -/
theorem observe_chain {bindings : Bindings} {places : List (Nat × String)} {value : Expr} (hint : Option Expr)
    (small : isSmall (bindings.resolve value) = true) :
    (value.IsApart places.dropLast → ∀ place ∈ places,
      (bindings.observe (.chain places value hint)).resolve (.target place) = bindings.resolve value) ∧
    ((places.map Prod.snd).Nodup → (∀ place ∈ places,
      (bindings.observe (.chain places value hint)).resolve (.target place) = bindings.resolve value) →
        value.IsApart places.dropLast) := by
  refine ⟨fun apart place member => ?_, fun distinct shared => apart_of_shared rfl distinct shared⟩
  have plain : (Assignment.chain places value hint).augmented = none := rfl
  have held := foldl_shares plain small apart place.2
  rw [if_pos (mem_map_of_mem member)] at held
  rw [resolve_target]
  exact congrArg (Option.getD · _) held

/-- The value `q + "b"`, where `q` was assigned `"a"`. -/
def lengthened : Expr := ⟨2, .binary .add ⟨2, .identifier "q"⟩ ⟨2, .string "b"⟩⟩

def assigned : Bindings := ⟨[("q", ⟨1, .string "a"⟩)], none⟩

theorem observe_chain_lengthened :
    (assigned.observe (.chain [(2, "r"), (2, "q")] lengthened none)).resolve (.target (2, "r")) =
      ⟨2, .binary .add ⟨1, .string "a"⟩ ⟨2, .string "b"⟩⟩ := by
  have small : isSmall (assigned.resolve lengthened) = true := by decide +kernel
  have apart : lengthened.IsApart [(2, "r")] := by
    refine .inr fun place member reads => ?_
    cases mem_singleton.mp member
    cases reads with
    | here shape => cases shape
    | inside piece reads =>
      simp only [lengthened, Expr.pieces, mem_cons, not_mem_nil, or_false] at piece
      rcases piece with rfl | rfl <;> cases reads with
      | here shape => simp at shape
      | inside inner => cases inner
  have shared := (@observe_chain assigned [(2, "r"), (2, "q")] lengthened none small).1 apart
  rw [shared (2, "r") (by simp)]
  with_unfolding_all rfl

/-- In `q = r = q + "b"` the second name gets the suffix twice. -/
theorem observe_chain_not_shared :
    ¬ ∀ (bindings : Bindings) (places : List (Nat × String)) (value : Expr) (hint : Option Expr),
      isSmall (bindings.resolve value) = true → ∀ place ∈ places,
        (bindings.observe (.chain places value hint)).resolve (.target place) = bindings.resolve value := by
  intro always
  have small : isSmall (assigned.resolve lengthened) = true := by decide +kernel
  have same := always assigned [(2, "q"), (2, "r")] lengthened none small (2, "r") (by simp)
  have text := congrArg Expr.literalText same
  have twice : ((assigned.observe (.chain [(2, "q"), (2, "r")] lengthened none)).resolve
      (.target (2, "r"))).literalText = "abb" := by decide +kernel
  have once : (assigned.resolve lengthened).literalText = "ab" := by decide +kernel
  rw [twice, once] at text
  exact absurd text (by decide)

end Bindings
end SourceAudit
