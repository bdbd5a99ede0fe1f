import Mathlib.Data.List.Basic
import SourceAudit.Collector

open List

namespace SourceAudit

variable {α β : Type} {le : α → α → Bool}

def peers (le : α → α → Bool) (a : α) (values : List α) : List α :=
  values.filter fun b => le a b && le b a

theorem mem_peers {a b : α} {values : List α} :
    b ∈ peers le a values ↔ b ∈ values ∧ le a b = true ∧ le b a = true := by
  simp [peers]

structure Ranks (le : α → α → Bool) : Prop where
  trans : ∀ a b c, le a b = true → le b c = true → le a c = true
  total : ∀ a b, (le a b || le b a) = true

namespace Ranks

variable (ranks : Ranks le)

include ranks

theorem refl (a : α) : le a a = true := by
  have either := ranks.total a a
  rwa [Bool.or_self] at either

theorem peers_mergeSort (a : α) (values : List α) :
    peers le a (values.mergeSort le) = peers le a values := by
  have sorted : (peers le a values).Pairwise fun b c => le b c = true := by
    apply pairwise_of_forall_mem_list
    intro b first c second
    exact ranks.trans b a c (mem_peers.mp first).2.2 (mem_peers.mp second).2.1
  have kept := (sublist_mergeSort ranks.trans ranks.total sorted filter_sublist).filter
    fun b => le a b && le b a
  rw [peers, filter_filter] at kept
  simp only [Bool.and_self] at kept
  have count := ((mergeSort_perm values le).filter fun b => le a b && le b a).length_eq
  exact (kept.eq_of_length count.symm).symm

theorem head_le {a b : α} {rest values : List α} (sorted : (b :: values).Pairwise fun c d => le c d = true)
    (same : peers le a (a :: rest) = peers le a (b :: values)) : le b a = true := by
  have first : a ∈ peers le a (b :: values) := by
    rw [← same]
    exact mem_peers.mpr ⟨mem_cons_self, ranks.refl a, ranks.refl a⟩
  rcases mem_cons.mp (mem_peers.mp first).1 with rfl | later
  · exact ranks.refl a
  · exact (pairwise_cons.mp sorted).1 a later

theorem eq_of_peers {first second : List α} (sorted : first.Pairwise fun a b => le a b = true)
    (sorted' : second.Pairwise fun a b => le a b = true)
    (same : ∀ a, peers le a first = peers le a second) : first = second := by
  induction first generalizing second with
  | nil =>
    cases second with
    | nil => rfl
    | cons b values =>
      have found : b ∈ peers le b (b :: values) :=
        mem_peers.mpr ⟨mem_cons_self, ranks.refl b, ranks.refl b⟩
      rw [← same b] at found
      cases found
  | cons a rest ih =>
    cases second with
    | nil =>
      have found : a ∈ peers le a (a :: rest) :=
        mem_peers.mpr ⟨mem_cons_self, ranks.refl a, ranks.refl a⟩
      rw [same a] at found
      cases found
    | cons b values =>
      have before := ranks.head_le sorted' (same a)
      have after := ranks.head_le sorted (same b).symm
      -- both heads are peers of each other, so each list of peers starts with its own head
      have heads := same a
      simp only [peers, filter_cons, ranks.refl, before, after, Bool.and_self, if_true,
        List.cons.injEq] at heads
      obtain ⟨rfl, _⟩ := heads
      congr 1
      apply ih (pairwise_cons.mp sorted).2 (pairwise_cons.mp sorted').2
      intro c
      have all := same c
      unfold peers at all ⊢
      rw [filter_cons, filter_cons] at all
      split at all
      · exact (List.cons.inj all).2
      · exact all

theorem mergeSort_congr {first second : List α} (same : ∀ a, peers le a first = peers le a second) :
    first.mergeSort le = second.mergeSort le := by
  apply ranks.eq_of_peers (pairwise_mergeSort ranks.trans ranks.total _)
    (pairwise_mergeSort ranks.trans ranks.total _)
  intro a
  rw [ranks.peers_mergeSort, ranks.peers_mergeSort, same]

theorem filter_mergeSort (test : α → Bool) (values : List α) :
    (values.mergeSort le).filter test = (values.filter test).mergeSort le := by
  apply ranks.eq_of_peers
  · exact (pairwise_mergeSort ranks.trans ranks.total values).filter test
  · exact pairwise_mergeSort ranks.trans ranks.total _
  · intro a
    have swap : ∀ list : List α, peers le a (list.filter test) = (peers le a list).filter test :=
      fun list => filter_comm _ _ list
    rw [ranks.peers_mergeSort, swap, swap, ranks.peers_mergeSort]

theorem peers_nil_of_before {a b : α} {values : List α}
    (sorted : (a :: values).Pairwise fun c d => le c d = true) (before : le a b = false) :
    peers le b (a :: values) = [] := by
  refine filter_eq_nil_iff.mpr fun c member both => ?_
  have least : le a c = true := by
    rcases mem_cons.mp member with rfl | later
    · exact ranks.refl c
    · exact (pairwise_cons.mp sorted).1 c later
  rw [ranks.trans a c b least (Bool.and_eq_true_iff.mp both).2] at before
  cases before

theorem peers_congr {a b : α} (forth : le a b = true) (back : le b a = true) (values : List α) :
    peers le a values = peers le b values := by
  refine filter_congr fun c _ => ?_
  rw [Bool.eq_iff_iff, Bool.and_eq_true, Bool.and_eq_true]
  constructor
  · rintro ⟨low, high⟩
    exact ⟨ranks.trans b a c back low, ranks.trans c a b high forth⟩
  · rintro ⟨low, high⟩
    exact ⟨ranks.trans a b c forth low, ranks.trans c b a high back⟩

theorem sublist_of_peers {first second : List α} (sorted : first.Pairwise fun a b => le a b = true)
    (sorted' : second.Pairwise fun a b => le a b = true)
    (part : ∀ a, (peers le a first).Sublist (peers le a second)) : first.Sublist second := by
  induction second generalizing first with
  | nil =>
    cases first with
    | nil => exact .slnil
    | cons a rest =>
      have found := (part a).subset (mem_peers.mpr ⟨mem_cons_self, ranks.refl a, ranks.refl a⟩)
      cases found
  | cons b values ih =>
    obtain ⟨least, ordered⟩ := pairwise_cons.mp sorted'
    -- the values that rank with `b` come first in the longer list; of the shorter one they are the front
    have onward : ∀ {list : List α}, list.Pairwise (fun a b => le a b = true) →
        (∀ a, (peers le a list).Sublist (peers le a (b :: values))) →
        (peers le b list).Sublist (peers le b values) → list.Sublist values := by
      intro list sorted part here
      refine ih sorted ordered fun a => ?_
      by_cases same : le a b = true ∧ le b a = true
      · rwa [ranks.peers_congr same.1 same.2, ranks.peers_congr same.1 same.2]
      · have skipped := part a
        rwa [peers, peers, filter_cons_of_neg (by simpa using same)] at skipped
    have here := part b
    rw [peers, peers, filter_cons_of_pos (by simp [ranks.refl])] at here
    cases first with
    | nil => exact nil_sublist _
    | cons a rest =>
      cases before : le a b with
      | false =>
        refine .cons _ (onward sorted part ?_)
        rw [ranks.peers_nil_of_before sorted before]
        exact nil_sublist _
      | true =>
        have after : le b a = true := by
          have found := (part a).subset (mem_peers.mpr ⟨mem_cons_self, ranks.refl a, ranks.refl a⟩)
          rcases mem_cons.mp (mem_peers.mp found).1 with rfl | later
          · exact ranks.refl a
          · exact least a later
        rw [filter_cons_of_pos (by simp [before, after])] at here
        cases here with
        | cons _ later =>
          refine .cons _ (onward sorted part ?_)
          rwa [peers, filter_cons_of_pos (by simp [before, after])]
        | cons_cons _ others =>
          refine .cons_cons _ (onward (pairwise_cons.mp sorted).2 (fun c => ?_) others)
          exact ((sublist_cons_self _ _).filter _).trans (part c)

theorem mergeSort_sublist {first second : List α} (part : first.Sublist second) :
    (first.mergeSort le).Sublist (second.mergeSort le) := by
  apply ranks.sublist_of_peers (pairwise_mergeSort ranks.trans ranks.total _)
    (pairwise_mergeSort ranks.trans ranks.total _)
  intro a
  rw [ranks.peers_mergeSort, ranks.peers_mergeSort]
  exact part.filter _

end Ranks

theorem flatMap_eq_of_perm {f : α → List β} {first second : List α} (perm : first.Perm second)
    (single : first.Pairwise fun a b => f a = [] ∨ f b = []) : first.flatMap f = second.flatMap f := by
  induction perm with
  | nil => rfl
  | cons a _ ih => rw [flatMap_cons, flatMap_cons, ih (pairwise_cons.mp single).2]
  | swap a b rest =>
    have either := (pairwise_cons.mp single).1 a mem_cons_self
    simp only [flatMap_cons]
    rcases either with none | none <;> simp [none]
  | trans first _ ih ih' =>
    have symmetric : ∀ {a b : α}, (f a = [] ∨ f b = []) → (f b = [] ∨ f a = []) := Or.symm
    rw [ih single, ih' ((first.pairwise_iff symmetric).mp single)]

namespace Finding

theorem ranks_line : Ranks fun first second : Finding => decide (first.line ≤ second.line) where
  trans a b c := by
    simp only [decide_eq_true_eq]
    exact Nat.le_trans
  total a b := by
    simp only [Bool.or_eq_true, decide_eq_true_eq]
    exact Nat.le_total a.line b.line

theorem ranks_place : Ranks fun first second : Finding =>
    decide (first.line < second.line ∨ (first.line = second.line ∧ first.rule ≤ second.rule)) where
  trans a b c := by
    simp only [decide_eq_true_eq]
    rintro (line | ⟨line, rule⟩) (line' | ⟨line', rule'⟩)
    · exact .inl (by omega)
    · exact .inl (by omega)
    · exact .inl (by omega)
    · exact .inr ⟨by omega, String.le_trans rule rule'⟩
  total a b := by
    simp only [Bool.or_eq_true, decide_eq_true_eq]
    rcases Nat.lt_trichotomy a.line b.line with before | same | after
    · exact .inl (.inl before)
    · exact (String.le_total a.rule b.rule).imp (fun rule => .inr ⟨same, rule⟩)
        fun rule => .inr ⟨same.symm, rule⟩
    · exact .inr (.inl after)

theorem rule_of_peers {a b : Finding} {findings : List Finding}
    (peer : b ∈ peers (fun first second : Finding =>
      decide (first.line < second.line ∨ (first.line = second.line ∧ first.rule ≤ second.rule))) a findings) :
    b.rule = a.rule := by
  obtain ⟨_, before, after⟩ := mem_peers.mp peer
  simp only [decide_eq_true_eq] at before after
  rcases before with before | ⟨line, forth⟩
  · exfalso
    omega
  · rcases after with after | ⟨_, back⟩
    · exfalso
      omega
    · exact String.le_antisymm back forth

end Finding
end SourceAudit
