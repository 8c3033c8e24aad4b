import Mathlib.Tactic.Linarith
import Mathlib.Tactic.Ring
import Mathlib.Data.Nat.Log

/-!
# Rounding to a number of significant bits

Natural numbers rounded as binary floating point rounds them: to the nearest
number of `p` significant bits, and to the even one of two nearest.
-/

namespace Foundation

/-- `n` rounded to `p` significant bits, ties to even. -/
def roundToEven (p n : Nat) : Nat :=
  if n < 2 ^ p then n
  else
    let unit := 2 ^ (n.log2 + 1 - p)
    if 2 * (n % unit) < unit ∨ (2 * (n % unit) = unit ∧ n / unit % 2 = 0) then n / unit * unit
    else (n / unit + 1) * unit

variable {p n : Nat}

/-- Rounding adds at most half a unit in the last place. -/
theorem roundToEven_le (p n : Nat) : 2 ^ p * roundToEven p n ≤ 2 ^ p * n + n := by
  unfold roundToEven
  split
  · exact Nat.le_add_right _ _
  next hge =>
    have hn : n ≠ 0 := by
      intro hzero
      exact hge (hzero ▸ Nat.two_pow_pos p)
    have hlog : p ≤ n.log2 := (Nat.le_log2 hn).mpr (not_lt.mp hge)
    generalize hunit : 2 ^ (n.log2 + 1 - p) = unit
    have hscale : 2 ^ p * unit ≤ 2 * n := by
      calc 2 ^ p * unit = 2 * 2 ^ n.log2 := by
            rw [← hunit, ← Nat.pow_add, show p + (n.log2 + 1 - p) = n.log2 + 1 by omega,
              Nat.pow_succ, Nat.mul_comm]
        _ ≤ 2 * n := Nat.mul_le_mul_left 2 (Nat.log2_self_le hn)
    have hsplit : n / unit * unit + n % unit = n := by
      rw [Nat.mul_comm]
      exact Nat.div_add_mod n unit
    have hexpand : 2 ^ p * (n / unit * unit) + 2 ^ p * (n % unit) = 2 ^ p * n := by
      rw [← Nat.mul_add, hsplit]
    dsimp only
    split
    · omega
    next hup =>
      have herror : 2 ^ p * unit ≤ 2 ^ p * (2 * (n % unit)) :=
        Nat.mul_le_mul_left _ (by omega)
      rw [Nat.mul_left_comm] at herror
      rw [Nat.add_one_mul, Nat.mul_add]
      omega

end Foundation

/-!
## Division rounded down and up

The rules by which rounded quotients are compared, and the division of a product in two
steps, which keeps the intermediate numbers small.
-/

namespace Foundation

variable {a b c : Int}

/-- The quotient rounded up. -/
def ceilDiv (a b : Int) : Int := (a + b - 1) / b

theorem ceilDiv_le_iff (hb : 0 < b) : ceilDiv a b ≤ c ↔ a ≤ c * b := by
  unfold ceilDiv
  rw [← Int.lt_add_one_iff, Int.ediv_lt_iff_lt_mul hb, Int.add_mul]
  omega

theorem le_ceilDiv_mul (a : Int) (hb : 0 < b) : a ≤ ceilDiv a b * b :=
  (ceilDiv_le_iff hb).mp le_rfl

theorem ceilDiv_mul_lt (a : Int) (hb : 0 < b) : ceilDiv a b * b < a + b := by
  have hle : (a + b - 1) / b * b ≤ a + b - 1 := Int.ediv_mul_le _ hb.ne'
  unfold ceilDiv
  omega

theorem ceilDiv_zero (hb : 0 < b) : ceilDiv 0 b = 0 := by
  unfold ceilDiv
  exact Int.ediv_eq_zero_of_lt (by omega) (by omega)

theorem ceilDiv_mono (hb : 0 < b) (hle : a ≤ c) : ceilDiv a b ≤ ceilDiv c b :=
  (ceilDiv_le_iff hb).mpr (hle.trans (le_ceilDiv_mul c hb))

theorem ceilDiv_nonneg (hb : 0 < b) (ha : 0 ≤ a) : 0 ≤ ceilDiv a b :=
  Int.ediv_nonneg (by omega) hb.le

/-- Down to a coarser unit and back up loses nothing. -/
theorem ediv_ceilDiv_mul (hc : 0 < c) (hle : c ≤ b) (a : Int) : ceilDiv (a * b) c * c / b = a := by
  have hb : 0 < b := hc.trans_le hle
  apply le_antisymm
  · rw [← Int.lt_add_one_iff, Int.ediv_lt_iff_lt_mul hb, Int.add_mul]
    have hlt := ceilDiv_mul_lt (a * b) hc
    omega
  · exact (Int.le_ediv_iff_mul_le hb).mpr (le_ceilDiv_mul (a * b) hc)

/-- A product divided factor by factor, rounded down. -/
theorem mul_ediv_add_ediv (a b : Int) (hc : 0 < c) : a * (b / c) + a * (b % c) / c = a * b / c := by
  have hsplit : a * b = a * (b % c) + a * (b / c) * c := by
    conv_lhs => rw [← Int.emod_add_mul_ediv b c]
    ring
  rw [hsplit, Int.add_mul_ediv_right _ _ hc.ne', Int.add_comm]

/-- A product divided factor by factor, rounded up. -/
theorem mul_ediv_add_ceilDiv (a b : Int) (hc : 0 < c) :
    a * (b / c) + ceilDiv (a * (b % c)) c = ceilDiv (a * b) c := by
  have hsplit : a * b + c - 1 = a * (b % c) + c - 1 + a * (b / c) * c := by
    conv_lhs => rw [← Int.emod_add_mul_ediv b c]
    ring
  unfold ceilDiv
  rw [hsplit, Int.add_mul_ediv_right _ _ hc.ne', Int.add_comm]

end Foundation
