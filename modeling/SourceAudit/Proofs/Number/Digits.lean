import SourceAudit.Grammar.Expression

open List

namespace SourceAudit

namespace Number

/-- The digits of a number, after any zeros and with its letters in either case. -/
def IsWritten (base n : Nat) (digits : List Char) : Prop :=
  ∃ zeros, digits.map Char.toLower = List.replicate zeros '0' ++ Nat.toDigits base n

def extend? (base value : Nat) (c : Char) : Option Nat := do
  let digit ← digitValue? c
  if digit < base then some (value * base + digit) else none

theorem natural?_eq {base : Nat} {digits : List Char} (some : digits ≠ []) :
    natural? base digits = digits.foldlM (extend? base) 0 :=
  if_neg (by simpa using some)

theorem toLower_of_not_upper {c : Char} (other : ¬ (65 ≤ c.toNat ∧ c.toNat ≤ 90)) : c.toLower = c :=
  dif_neg (by simpa [UInt32.le_iff_toNat_le] using other)

theorem digitValue?_toLower (c : Char) : digitValue? c.toLower = digitValue? c := by
  by_cases bounds : 65 ≤ c.toNat ∧ c.toNat ≤ 90
  · have letters : ∀ place < 26,
        digitValue? (Char.ofNat (65 + place)).toLower = digitValue? (Char.ofNat (65 + place)) := by decide
    have found := letters (c.toNat - 65) (by omega)
    rwa [Nat.add_sub_cancel' bounds.1, Char.ofNat_toNat] at found
  · rw [toLower_of_not_upper bounds]

theorem digitValue?_digitChar : ∀ digit < 16, digitValue? digit.digitChar = some digit := by decide

variable {base n : Nat} {digits : List Char}

theorem extend?_digitChar (high : base ≤ 16) (value : Nat) {digit : Nat} (small : digit < base) :
    extend? base value digit.digitChar = some (value * base + digit) := by
  rw [extend?, digitValue?_digitChar digit (by omega)]
  exact if_pos small

theorem foldlM_toDigits (low : 1 < base) (high : base ≤ 16) (n : Nat) :
    (Nat.toDigits base n).foldlM (extend? base) 0 = some n := by
  induction n using Nat.strongRecOn with
  | ind n ih =>
    rcases Nat.lt_or_ge n base with small | large
    · rw [Nat.toDigits_of_lt_base small, foldlM_cons, extend?_digitChar high 0 small]
      simp
    · have smaller : n / base < n := Nat.div_lt_self (by omega) low
      have last : n % base < base := Nat.mod_lt n (by omega)
      rw [Nat.toDigits_of_base_le low large, foldlM_append, ih _ smaller, Option.bind_eq_bind, Option.bind_some,
        foldlM_cons, extend?_digitChar high _ last, Nat.div_add_mod']
      rfl

theorem foldlM_toLower (value : Nat) (digits : List Char) :
    (digits.map Char.toLower).foldlM (extend? base) value = digits.foldlM (extend? base) value := by
  have same : (fun value c => extend? base value (Char.toLower c)) = extend? base := by
    funext value c
    rw [extend?, digitValue?_toLower, extend?]
  rw [foldlM_map, same]

theorem foldlM_zeros (low : 1 < base) (high : base ≤ 16) (zeros : Nat) :
    (List.replicate zeros '0').foldlM (extend? base) 0 = some 0 := by
  induction zeros with
  | zero => rfl
  | succ zeros ih =>
    have zero : extend? base 0 (Nat.digitChar 0) = some 0 := by
      simpa using extend?_digitChar high 0 (show 0 < base by omega)
    rw [replicate_succ, foldlM_cons]
    change (extend? base 0 (Nat.digitChar 0) >>= _) = _
    rw [zero]
    exact ih

theorem digit_of_foldlM {value last : Nat} (read : digits.foldlM (extend? base) value = some last) :
    ∀ c ∈ digits, ∃ digit < base, digitValue? c = some digit := by
  induction digits generalizing value with
  | nil => simp
  | cons c digits ih =>
    rw [foldlM_cons] at read
    obtain ⟨next, first, others⟩ := Option.bind_eq_some_iff.mp read
    obtain ⟨digit, known, small⟩ := Option.bind_eq_some_iff.mp first
    refine forall_mem_cons.mpr ⟨⟨digit, ?_, known⟩, ih others⟩
    split at small
    · assumption
    · cases small

namespace IsWritten

theorem ne_nil (written : IsWritten base n digits) : digits ≠ [] := by
  rintro rfl
  obtain ⟨zeros, same⟩ := written
  exact Nat.toDigits_ne_nil (append_eq_nil_iff.mp same.symm).2

theorem foldlM_eq (written : IsWritten base n digits) (low : 1 < base) (high : base ≤ 16) :
    digits.foldlM (extend? base) 0 = some n := by
  obtain ⟨zeros, same⟩ := written
  rw [← foldlM_toLower, same, foldlM_append, foldlM_zeros low high]
  exact foldlM_toDigits low high n

theorem digit (written : IsWritten base n digits) (low : 1 < base) (high : base ≤ 16) :
    ∀ c ∈ digits, ∃ digit < base, digitValue? c = some digit :=
  digit_of_foldlM (written.foldlM_eq low high)

theorem int64?_eq (written : IsWritten base n digits) (low : 1 < base) (high : base ≤ 16) :
    int64? base digits = if n < 0x8000000000000000 then some (n : Int) else none := by
  have unsigned : splitSign digits = (false, digits) := by
    unfold splitSign
    split <;> first | rfl | skip
    all_goals
      obtain ⟨digit, -, known⟩ := written.digit low high _ mem_cons_self
      cases known
  have read := written.foldlM_eq low high
  rw [int64?, unsigned, natural?_eq written.ne_nil, read, Option.bind_eq_bind, Option.bind_some]
  simp only [Bool.false_eq_true, ↓reduceIte]
  congr 1
  simp only [eq_iff_iff]
  omega

end IsWritten

theorem isWritten_toDigits (n : Nat) : IsWritten 10 n (Nat.toDigits 10 n) := by
  have same : (Nat.toDigits 10 n).map Char.toLower = (Nat.toDigits 10 n).map id := by
    refine map_congr_left fun c member => toLower_of_not_upper ?_
    have digit : 48 ≤ c.toNat ∧ c.toNat ≤ 57 := by
      simpa [Char.isDigit, UInt32.le_iff_toNat_le] using Nat.isDigit_of_mem_toDigits (by decide) (by decide) member
    omega
  exact ⟨0, same.trans (map_id _)⟩

end Number

theorem Token.integer?_decimal {n : Nat} {digits : List Char} (written : Number.IsWritten 10 n digits) :
    integer? (String.ofList digits) = if n < 0x8000000000000000 then some (n : Int) else none := by
  have plain := written.digit (by decide) (by decide)
  unfold integer?
  rw [String.toList_ofList]
  split <;> first | exact written.int64?_eq (by decide) (by decide) | skip
  all_goals
    obtain ⟨digit, small, known⟩ := plain _ (mem_cons_of_mem _ mem_cons_self)
    cases known
    exact absurd small (by decide)

theorem Token.integer?_repr {n : Nat} (small : n < 0x8000000000000000) : integer? n.repr = some (n : Int) := by
  have read := integer?_decimal (Number.isWritten_toDigits n)
  rwa [if_pos small] at read

end SourceAudit
