/-
  Rounding keeps the order.

  Two numbers that are kept with the same unit are ordered as their nearest whole numbers.
  With different units a power of two stands between them, which rounding does not pass.

  * `divEven_mono`: the nearest whole number of a larger quotient is not smaller;
  * `keepBits_mono`: nor is the nearest value of 53 significant bits;
  * `Scaled.units_div_mono`, `Scaled.units_sub_mono`, `Scaled.round_mono`: so are the results
    of rounded operations.
-/
import Mathlib
import IndentedSass.Proofs.Numeric.Rounding

namespace IndentedSass

variable {n m d k : Nat}

theorem divEven_mono (h : n ≤ m) (d : Nat) : divEven n d ≤ divEven m d := by
  rcases Nat.lt_or_eq_of_le (Nat.div_le_div_right (c := d) h) with hlt | heq
  · rcases divEven_cases n d with ⟨hn, -⟩ | ⟨hn, -⟩ <;>
      rcases divEven_cases m d with ⟨hm, -⟩ | ⟨hm, -⟩ <;> omega
  · -- between the same whole numbers, the larger remainder decides
    have hn := Nat.div_add_mod n d
    have hm := Nat.div_add_mod m d
    have hrest : n % d ≤ m % d := by
      rw [heq] at hn
      omega
    simp only [divEven, heq]
    split_ifs <;> omega

theorem divEven_mul (hd : 0 < d) (k : Nat) : divEven (d * k) d = k := by
  simp [divEven, Nat.mul_div_cancel_left k hd, hd]

theorem divEven_le (hd : 0 < d) (h : n ≤ d * k) : divEven n d ≤ k :=
  (divEven_mono h d).trans_eq (divEven_mul hd k)

theorem le_divEven (hd : 0 < d) (h : d * k ≤ n) : k ≤ divEven n d :=
  (divEven_mul hd k).ge.trans (divEven_mono h d)

/-- The exponent of the unit that a quotient is rounded to. -/
def unitExponent (n d : Nat) : Nat := (n / d).log2 + 1 - 53

theorem keepBits_eq (n d : Nat) :
    keepBits n d = divEven n (d * 2 ^ unitExponent n d) * 2 ^ unitExponent n d := rfl

/-- The power of two above a quotient is above its rounded value. -/
theorem keepBits_le_pow (hd : 0 < d) : keepBits n d ≤ 2 ^ (53 + unitExponent n d) := by
  have hlt : n / d < 2 ^ (53 + unitExponent n d) := by
    refine Nat.lt_log2_self.trans_le (Nat.pow_le_pow_right Nat.two_pos ?_)
    unfold unitExponent
    omega
  rw [keepBits_eq, Nat.pow_add]
  refine Nat.mul_le_mul_right _ (divEven_le (Nat.mul_pos hd (Nat.two_pow_pos _)) ?_)
  rw [Nat.mul_assoc, ← Nat.pow_add, Nat.add_comm, Nat.mul_comm]
  exact ((Nat.div_lt_iff_lt_mul hd).1 hlt).le

/-- The power of two below a quotient is below its rounded value. -/
theorem pow_le_keepBits (hd : 0 < d) (h : 0 < unitExponent n d) :
    2 ^ (52 + unitExponent n d) ≤ keepBits n d := by
  have hlog : 52 + unitExponent n d = (n / d).log2 := by
    unfold unitExponent at *
    omega
  have hne : n / d ≠ 0 := by
    intro hzero
    rw [unitExponent, hzero] at h
    exact absurd h (by decide)
  have hle : 2 ^ (52 + unitExponent n d) ≤ n / d := hlog ▸ Nat.log2_self_le hne
  rw [keepBits_eq, Nat.pow_add]
  refine Nat.mul_le_mul_right _ (le_divEven (Nat.mul_pos hd (Nat.two_pow_pos _)) ?_)
  rw [Nat.mul_assoc, ← Nat.pow_add, Nat.add_comm]
  exact (Nat.mul_le_mul_left d hle).trans (Nat.mul_div_le n d)

theorem keepBits_mono (h : n ≤ m) (d : Nat) : keepBits n d ≤ keepBits m d := by
  have hunit : unitExponent n d ≤ unitExponent m d := by
    have hlog := Nat.log_mono_right (b := 2) (Nat.div_le_div_right (c := d) h)
    rw [← Nat.log2_eq_log_two, ← Nat.log2_eq_log_two] at hlog
    unfold unitExponent
    omega
  rcases Nat.lt_or_eq_of_le hunit with hlt | heq
  · rcases Nat.eq_zero_or_pos d with rfl | hd
    · rw [unitExponent, unitExponent, Nat.div_zero, Nat.div_zero] at hlt
      omega
    calc keepBits n d ≤ 2 ^ (53 + unitExponent n d) := keepBits_le_pow hd
      _ ≤ 2 ^ (52 + unitExponent m d) := Nat.pow_le_pow_right Nat.two_pos (by omega)
      _ ≤ keepBits m d := pow_le_keepBits hd (by omega)
  · rw [keepBits_eq, keepBits_eq, heq]
    exact Nat.mul_le_mul_right _ (divEven_mono h _)

namespace Scaled

variable {x y : Scaled}

theorem units_ofNat_mono (h : n ≤ m) : (ofNat n).units ≤ (ofNat m).units :=
  Nat.mul_le_mul_right one (keepBits_mono h 1)

theorem units_div_mono (h : x.units ≤ y.units) (z : Scaled) : (x.div z).units ≤ (y.div z).units :=
  keepBits_mono (Nat.mul_le_mul_right one h) z.units

theorem units_sub_mono (h : x.units ≤ y.units) (z : Scaled) : (x.sub z).units ≤ (y.sub z).units :=
  keepBits_mono (Nat.sub_le_sub_right h z.units) 1

theorem round_mono (h : x.units ≤ y.units) : x.round ≤ y.round :=
  Nat.div_le_div_right (Nat.add_le_add_right h _)

end Scaled

end IndentedSass
