import Mathlib.Data.Int.Log
import Mathlib.Data.Rat.Floor
import Mathlib.Tactic.Linarith
import Mathlib.Tactic.FieldSimp

/-!
# Rounding to 64 bits

A number that is not negative is rounded to the nearest one that has 53 significant bits, and
to an even last bit where two are nearest.  A whole number stays as it is exactly if it has
no more significant bits than that.
-/

namespace Dmerge
namespace Foundation

inductive Binary64 where
  | finite (q : ℚ)
  | infinity
  deriving DecidableEq

namespace Binary64

def roundHalfEven (x : ℚ) : ℤ :=
  if x - ⌊x⌋ < 1 / 2 then ⌊x⌋
  else if 1 / 2 < x - ⌊x⌋ then ⌊x⌋ + 1
  else if ⌊x⌋ % 2 = 0 then ⌊x⌋
  else ⌊x⌋ + 1

def ulp (x : ℚ) : ℚ := 2 ^ max (Int.log 2 x - 52) (-1074)

def round (x : ℚ) : Binary64 :=
  let r := roundHalfEven (x / ulp x) * ulp x
  if 2 ^ 1024 ≤ r then .infinity else .finite r

def IsExact (n : Nat) : Prop := n < 2 ^ 1024 ∧ exists m e, m < 2 ^ 53 ∧ n = m * 2 ^ e

theorem isExact_of_lt {n : Nat} (h : n < 2 ^ 53) : IsExact n := by
  have hsmaller : 53 < 1024 := by
    decide
  exact ⟨Nat.lt_trans h (pow_lt_pow_right₀ (by decide) hsmaller), n, 0, h, (Nat.mul_one n).symm⟩

theorem roundHalfEven_intCast (n : ℤ) : roundHalfEven n = n := by
  unfold roundHalfEven
  rw [Int.floor_intCast, sub_self, if_pos (by norm_num)]

theorem ulp_pos (x : ℚ) : 0 < ulp x := zpow_pos (by norm_num) _

section Whole

variable {n : Nat}

theorem ulp_of_log_le (h : Nat.log 2 n ≤ 52) : ulp n = (2 ^ (52 - Nat.log 2 n))⁻¹ := by
  have hmax : max ((Nat.log 2 n : ℤ) - 52) (-1074) = -((52 - Nat.log 2 n : Nat) : ℤ) := by
    omega
  unfold ulp
  rw [Int.log_natCast, hmax, zpow_neg, zpow_natCast]

theorem ulp_of_lt_log (h : 52 < Nat.log 2 n) : ulp n = 2 ^ (Nat.log 2 n - 52) := by
  have hmax : max ((Nat.log 2 n : ℤ) - 52) (-1074) = ((Nat.log 2 n - 52 : Nat) : ℤ) := by
    omega
  unfold ulp
  rw [Int.log_natCast, hmax, zpow_natCast]

theorem exists_mul_ulp (h : IsExact n) : exists c : ℤ, (n : ℚ) = c * ulp n := by
  rcases h with ⟨_, m, e, hm, hn⟩
  by_cases hlog : Nat.log 2 n ≤ 52
  · refine ⟨(n * 2 ^ (52 - Nat.log 2 n) : Nat), ?_⟩
    rw [ulp_of_log_le hlog]
    push_cast
    field_simp
  · have hlt := Nat.lt_of_not_le hlog
    have hne : n ≠ 0 := by
      rintro rfl
      rw [Nat.log_zero_right] at hlt
      cases hlt
    have hpow : 2 ^ Nat.log 2 n < 2 ^ (53 + e) := by
      calc 2 ^ Nat.log 2 n ≤ n := Nat.pow_log_le_self 2 hne
        _ = m * 2 ^ e := hn
        _ < 2 ^ 53 * 2 ^ e := Nat.mul_lt_mul_of_pos_right hm (Nat.two_pow_pos e)
        _ = 2 ^ (53 + e) := (Nat.pow_add 2 53 e).symm
    have hexp := (Nat.pow_lt_pow_iff_right (by decide)).mp hpow
    have hsplit : e = (e - (Nat.log 2 n - 52)) + (Nat.log 2 n - 52) := by
      omega
    refine ⟨(m * 2 ^ (e - (Nat.log 2 n - 52)) : Nat), ?_⟩
    rw [ulp_of_lt_log hlt]
    have hmul : n = m * 2 ^ (e - (Nat.log 2 n - 52)) * 2 ^ (Nat.log 2 n - 52) := by
      rw [Nat.mul_assoc, ← Nat.pow_add, ← hsplit, ← hn]
    exact_mod_cast hmul

theorem exists_significand {c : ℤ} (h : (n : ℚ) = c * ulp n) :
    exists m e, m < 2 ^ 53 ∧ n = m * 2 ^ e := by
  have hsucc := Nat.lt_pow_succ_log_self (b := 2) (by decide) n
  by_cases hlog : Nat.log 2 n ≤ 52
  · refine ⟨n, 0, ?_, by rw [Nat.pow_zero, Nat.mul_one]⟩
    exact Nat.lt_of_lt_of_le hsucc (Nat.pow_le_pow_right (by decide) (Nat.succ_le_succ hlog))
  · have hlt := Nat.lt_of_not_le hlog
    have hpos := ulp_pos (n : ℚ)
    have hc : 0 ≤ c := by
      have hnonneg : (0 : ℚ) ≤ c * ulp n := by
        rw [← h]
        exact Nat.cast_nonneg n
      exact_mod_cast nonneg_of_mul_nonneg_left hnonneg hpos
    rcases Int.eq_ofNat_of_zero_le hc with ⟨m, rfl⟩
    rw [ulp_of_lt_log hlt] at h
    have hn : n = m * 2 ^ (Nat.log 2 n - 52) := by
      exact_mod_cast h
    refine ⟨m, Nat.log 2 n - 52, ?_, hn⟩
    have hsplit : Nat.log 2 n + 1 = 53 + (Nat.log 2 n - 52) := by
      omega
    rw [Nat.succ_eq_add_one, hsplit, Nat.pow_add] at hsucc
    have hlt' : m * 2 ^ (Nat.log 2 n - 52) < 2 ^ 53 * 2 ^ (Nat.log 2 n - 52) := by
      rw [← hn]
      exact hsucc
    exact Nat.lt_of_mul_lt_mul_right hlt'

theorem round_natCast_iff : round n = finite n <-> IsExact n := by
  have hpos := ulp_pos (n : ℚ)
  constructor
  · intro h
    unfold round at h
    simp only at h
    split at h
    · cases h
    · next hsmall =>
        have hround := finite.inj h
        rw [hround] at hsmall
        refine ⟨?_, exists_significand hround.symm⟩
        have hlt := lt_of_not_ge hsmall
        exact_mod_cast hlt
  · intro hexact
    rcases exists_mul_ulp hexact with ⟨c, hc⟩
    have hquot : (n : ℚ) / ulp n = c := by
      rw [div_eq_iff (ne_of_gt hpos)]
      exact hc
    have hsmall : ¬ (2 : ℚ) ^ 1024 ≤ n := by
      apply not_le_of_gt
      exact_mod_cast hexact.1
    unfold round
    simp only [hquot, roundHalfEven_intCast, ← hc]
    exact if_neg hsmall

end Whole
end Binary64
end Foundation
end Dmerge
