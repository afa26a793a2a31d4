/-
  How far rounding to 53 significant bits goes.

  The bounds are stated without fractions: that `k` is near `n / d` is said of
  `d * k` and `n`.

  * `two_mul_divEven_le`, `two_mul_le_divEven`: the nearest whole number is at
    most a half away;
  * `keepBits_of_small`: a number below `2 ^ 53` is kept as it is;
  * `keepBits_le`, `le_keepBits`: a value of at least `2 ^ 52` is kept up to one
    part in `2 ^ 53`; so is every whole number (`keepBits_one_le`,
    `le_keepBits_one`);
  * `units_div_le`, `le_units_div`: what three roundings leave of a quotient;
    `units_div_le_of_small`, `le_units_div_of_small`: what one leaves, where the numbers
    are exact.
-/
import Mathlib
import IndentedSass.Numeric.Significand

namespace IndentedSass

theorem divEven_cases (n d : Nat) :
    divEven n d = n / d ∧ 2 * (n % d) ≤ d ∨ divEven n d = n / d + 1 ∧ d ≤ 2 * (n % d) := by
  simp only [divEven]
  split_ifs <;> omega

theorem two_mul_divEven_le (n d : Nat) : 2 * (d * divEven n d) ≤ 2 * n + d := by
  have hn := Nat.div_add_mod n d
  rcases divEven_cases n d with ⟨h, hr⟩ | ⟨h, hr⟩
  · rw [h]; omega
  · rw [h, Nat.mul_add]; omega

theorem two_mul_le_divEven (n : Nat) {d : Nat} (hd : 0 < d) : 2 * n ≤ 2 * (d * divEven n d) + d := by
  have hn := Nat.div_add_mod n d
  have hlt := Nat.mod_lt n hd
  rcases divEven_cases n d with ⟨h, hr⟩ | ⟨h, hr⟩
  · rw [h]; omega
  · rw [h, Nat.mul_add]; omega

theorem divEven_one (n : Nat) : divEven n 1 = n := by
  simp [divEven, Nat.mod_one]

theorem keepBits_of_small {n : Nat} (h : n < 2 ^ 53) : keepBits n 1 = n := by
  have hlog : n.log2 + 1 - 53 = 0 := by
    by_cases h0 : n = 0
    · subst h0; decide
    · have := (Nat.log2_lt h0).2 h
      omega
  simp [keepBits, hlog, divEven_one]

/-- The unit of a rounding is small against what is rounded. -/
theorem unit_le {n d : Nat} (h : 2 ^ 52 ≤ n / d) :
    2 ^ 52 * (d * 2 ^ ((n / d).log2 + 1 - 53)) ≤ n := by
  have hq : n / d ≠ 0 := by omega
  have hlog : 52 ≤ (n / d).log2 := (Nat.le_log2 hq).2 h
  have hpow : 2 ^ 52 * 2 ^ ((n / d).log2 + 1 - 53) ≤ n / d := by
    rw [← Nat.pow_add, show 52 + ((n / d).log2 + 1 - 53) = (n / d).log2 by omega]
    exact Nat.log2_self_le hq
  calc 2 ^ 52 * (d * 2 ^ ((n / d).log2 + 1 - 53))
      = d * (2 ^ 52 * 2 ^ ((n / d).log2 + 1 - 53)) := by ring
    _ ≤ d * (n / d) := Nat.mul_le_mul_left d hpow
    _ ≤ n := Nat.mul_div_le n d

theorem keepBits_le {n d : Nat} (h : 2 ^ 52 ≤ n / d) :
    2 ^ 53 * (d * keepBits n d) ≤ (2 ^ 53 + 1) * n := by
  have hunit := unit_le h
  simp only [keepBits, Nat.pow_eq]
  generalize 2 ^ ((n / d).log2 + 1 - 53) = u at *
  have hnear := two_mul_divEven_le n (d * u)
  have hmul : d * (divEven n (d * u) * u) = d * u * divEven n (d * u) := by ring
  rw [hmul]
  omega

theorem le_keepBits {n d : Nat} (h : 2 ^ 52 ≤ n / d) :
    (2 ^ 53 - 1) * n ≤ 2 ^ 53 * (d * keepBits n d) := by
  have hunit := unit_le h
  have hd : 0 < d := by
    rcases Nat.eq_zero_or_pos d with rfl | hd
    · simp at h
    · exact hd
  have hpos : 0 < d * 2 ^ ((n / d).log2 + 1 - 53) := Nat.mul_pos hd (by positivity)
  simp only [keepBits, Nat.pow_eq]
  generalize 2 ^ ((n / d).log2 + 1 - 53) = u at *
  have hnear := two_mul_le_divEven n hpos
  have hmul : d * (divEven n (d * u) * u) = d * u * divEven n (d * u) := by ring
  rw [hmul]
  omega

/-- Also what is tiny is rounded to no more than twice of it, and one. -/
theorem mul_keepBits_le (n d : Nat) : d * keepBits n d ≤ 2 * n + d := by
  by_cases h : 2 ^ 52 ≤ n / d
  · have := keepBits_le h
    omega
  · have hlog : (n / d).log2 + 1 - 53 = 0 := by
      rcases Nat.eq_zero_or_pos (n / d) with hzero | hpos
      · rw [hzero]
        rfl
      · have := (Nat.log2_lt hpos.ne').2 (show n / d < 2 ^ 52 by omega)
        omega
    have hnear := two_mul_divEven_le n d
    rw [keepBits, hlog, Nat.pow_eq, Nat.pow_zero, Nat.mul_one, Nat.mul_one]
    omega

theorem keepBits_one_le (n : Nat) : 2 ^ 53 * keepBits n 1 ≤ (2 ^ 53 + 1) * n := by
  by_cases h : n < 2 ^ 53
  · rw [keepBits_of_small h]; omega
  · simpa using keepBits_le (n := n) (d := 1) (by rw [Nat.div_one]; omega)

theorem le_keepBits_one (n : Nat) : (2 ^ 53 - 1) * n ≤ 2 ^ 53 * keepBits n 1 := by
  by_cases h : n < 2 ^ 53
  · rw [keepBits_of_small h]; omega
  · simpa using le_keepBits (n := n) (d := 1) (by rw [Nat.div_one]; omega)

theorem keepBits_one_pos {n : Nat} (h : 0 < n) : 0 < keepBits n 1 := by
  have := le_keepBits_one n
  omega

namespace Scaled

theorem one_eq : one = 2 ^ 200 := rfl

theorem units_tenth : tenth.units = 3602879701896397 * 2 ^ 145 := rfl

/-- The rounded quotient of two whole numbers. -/
theorem units_div (c t : Nat) :
    ((ofNat c).div (ofNat t)).units = keepBits (keepBits c 1 * one * one) (keepBits t 1 * one) :=
  rfl

/-- A quotient that is not tiny has enough bits to be rounded. -/
theorem le_quotient {c t : Nat} (ht : 0 < t) (h : t ≤ 2 ^ 60 * c) :
    2 ^ 52 ≤ keepBits c 1 * one * one / (keepBits t 1 * one) := by
  have hc := le_keepBits_one c
  have ht' := keepBits_one_le t
  have hpos := keepBits_one_pos ht
  rw [Nat.mul_div_mul_right _ _ (by decide), Nat.le_div_iff_mul_le hpos]
  simp only [one_eq]
  omega

theorem units_div_le {c t : Nat} (ht : 0 < t) (h : t ≤ 2 ^ 60 * c) :
    2 ^ 53 * (2 ^ 53 - 1) * (t * ((ofNat c).div (ofNat t)).units) ≤
      (2 ^ 53 + 1) * (2 ^ 53 + 1) * (c * one) := by
  have hq := keepBits_le (le_quotient ht h)
  rw [← units_div] at hq
  generalize ((ofNat c).div (ofNat t)).units = q at *
  have hcancel : 2 ^ 53 * (keepBits t 1 * q) ≤ (2 ^ 53 + 1) * (keepBits c 1 * one) := by
    refine Nat.le_of_mul_le_mul_right ?_ (show 0 < one by decide)
    calc 2 ^ 53 * (keepBits t 1 * q) * one = 2 ^ 53 * (keepBits t 1 * one * q) := by ring
      _ ≤ (2 ^ 53 + 1) * (keepBits c 1 * one * one) := hq
      _ = (2 ^ 53 + 1) * (keepBits c 1 * one) * one := by ring
  calc 2 ^ 53 * (2 ^ 53 - 1) * (t * q) = 2 ^ 53 * ((2 ^ 53 - 1) * t) * q := by ring
    _ ≤ 2 ^ 53 * (2 ^ 53 * keepBits t 1) * q :=
        Nat.mul_le_mul_right q (Nat.mul_le_mul_left _ (le_keepBits_one t))
    _ = 2 ^ 53 * (2 ^ 53 * (keepBits t 1 * q)) := by ring
    _ ≤ 2 ^ 53 * ((2 ^ 53 + 1) * (keepBits c 1 * one)) := Nat.mul_le_mul_left _ hcancel
    _ = (2 ^ 53 + 1) * (2 ^ 53 * keepBits c 1) * one := by ring
    _ ≤ (2 ^ 53 + 1) * ((2 ^ 53 + 1) * c) * one :=
        Nat.mul_le_mul_right one (Nat.mul_le_mul_left _ (keepBits_one_le c))
    _ = (2 ^ 53 + 1) * (2 ^ 53 + 1) * (c * one) := by ring

theorem le_units_div {c t : Nat} (ht : 0 < t) (h : t ≤ 2 ^ 60 * c) :
    (2 ^ 53 - 1) * (2 ^ 53 - 1) * (c * one) ≤
      2 ^ 53 * (2 ^ 53 + 1) * (t * ((ofNat c).div (ofNat t)).units) := by
  have hq := le_keepBits (le_quotient ht h)
  rw [← units_div] at hq
  generalize ((ofNat c).div (ofNat t)).units = q at *
  have hcancel : (2 ^ 53 - 1) * (keepBits c 1 * one) ≤ 2 ^ 53 * (keepBits t 1 * q) := by
    refine Nat.le_of_mul_le_mul_right ?_ (show 0 < one by decide)
    calc (2 ^ 53 - 1) * (keepBits c 1 * one) * one = (2 ^ 53 - 1) * (keepBits c 1 * one * one) := by
          ring
      _ ≤ 2 ^ 53 * (keepBits t 1 * one * q) := hq
      _ = 2 ^ 53 * (keepBits t 1 * q) * one := by ring
  calc (2 ^ 53 - 1) * (2 ^ 53 - 1) * (c * one) = (2 ^ 53 - 1) * ((2 ^ 53 - 1) * c) * one := by ring
    _ ≤ (2 ^ 53 - 1) * (2 ^ 53 * keepBits c 1) * one :=
        Nat.mul_le_mul_right one (Nat.mul_le_mul_left _ (le_keepBits_one c))
    _ = 2 ^ 53 * ((2 ^ 53 - 1) * (keepBits c 1 * one)) := by ring
    _ ≤ 2 ^ 53 * (2 ^ 53 * (keepBits t 1 * q)) := Nat.mul_le_mul_left _ hcancel
    _ = 2 ^ 53 * (2 ^ 53 * keepBits t 1) * q := by ring
    _ ≤ 2 ^ 53 * ((2 ^ 53 + 1) * t) * q :=
        Nat.mul_le_mul_right q (Nat.mul_le_mul_left _ (keepBits_one_le t))
    _ = 2 ^ 53 * (2 ^ 53 + 1) * (t * q) := by ring

/-- The quotient of numbers that are exact is rounded once. -/
theorem units_div_le_of_small {c t : Nat} (ht : 0 < t) (ht' : t < 2 ^ 53) (hc : c < 2 ^ 53)
    (h : t ≤ 2 ^ 60 * c) :
    2 ^ 53 * (t * ((ofNat c).div (ofNat t)).units) ≤ (2 ^ 53 + 1) * (c * one) := by
  have hq := keepBits_le (le_quotient ht h)
  rw [← units_div, keepBits_of_small ht', keepBits_of_small hc] at hq
  generalize ((ofNat c).div (ofNat t)).units = q at *
  refine Nat.le_of_mul_le_mul_right ?_ (show 0 < one by decide)
  calc 2 ^ 53 * (t * q) * one = 2 ^ 53 * (t * one * q) := by ring
    _ ≤ (2 ^ 53 + 1) * (c * one * one) := hq
    _ = (2 ^ 53 + 1) * (c * one) * one := by ring

theorem le_units_div_of_small {c t : Nat} (ht : 0 < t) (ht' : t < 2 ^ 53) (hc : c < 2 ^ 53)
    (h : t ≤ 2 ^ 60 * c) :
    (2 ^ 53 - 1) * (c * one) ≤ 2 ^ 53 * (t * ((ofNat c).div (ofNat t)).units) := by
  have hq := le_keepBits (le_quotient ht h)
  rw [← units_div, keepBits_of_small ht', keepBits_of_small hc] at hq
  generalize ((ofNat c).div (ofNat t)).units = q at *
  refine Nat.le_of_mul_le_mul_right ?_ (show 0 < one by decide)
  calc (2 ^ 53 - 1) * (c * one) * one = (2 ^ 53 - 1) * (c * one * one) := by ring
    _ ≤ 2 ^ 53 * (t * one * q) := hq
    _ = 2 ^ 53 * (t * q) * one := by ring

/-- The rounded quotient of a multiple: `k` up to a half, whatever is divided by. -/
theorem round_div_mul {k t : Nat} (ht : 0 < t) (hk : 0 < k) (hk' : k ≤ 2 ^ 50 + 5) :
    ((ofNat (k * t)).div (ofNat t)).round = k := by
  have hle : t ≤ 2 ^ 60 * (k * t) := by nlinarith
  have hupper := units_div_le ht hle
  have hlower := le_units_div ht hle
  simp only [round]
  generalize ((ofNat (k * t)).div (ofNat t)).units = q at *
  have hupper' : 2 ^ 53 * (2 ^ 53 - 1) * q ≤ (2 ^ 53 + 1) * (2 ^ 53 + 1) * (k * one) := by
    refine Nat.le_of_mul_le_mul_right ?_ ht
    calc 2 ^ 53 * (2 ^ 53 - 1) * q * t = 2 ^ 53 * (2 ^ 53 - 1) * (t * q) := by ring
      _ ≤ (2 ^ 53 + 1) * (2 ^ 53 + 1) * (k * t * one) := hupper
      _ = (2 ^ 53 + 1) * (2 ^ 53 + 1) * (k * one) * t := by ring
  have hlower' : (2 ^ 53 - 1) * (2 ^ 53 - 1) * (k * one) ≤ 2 ^ 53 * (2 ^ 53 + 1) * q := by
    refine Nat.le_of_mul_le_mul_right ?_ ht
    calc (2 ^ 53 - 1) * (2 ^ 53 - 1) * (k * one) * t
        = (2 ^ 53 - 1) * (2 ^ 53 - 1) * (k * t * one) := by ring
      _ ≤ 2 ^ 53 * (2 ^ 53 + 1) * (t * q) := hlower
      _ = 2 ^ 53 * (2 ^ 53 + 1) * q * t := by ring
  simp only [one_eq] at *
  omega

/-- A quotient below one half is rounded to one below it. -/
theorem units_div_lt_half {c t : Nat} (hct : 2 * c < t) (hc : c < 2 ^ 50) :
    ((ofNat c).div (ofNat t)).units < one / 2 := by
  have ht : 0 < t := by omega
  by_contra hge
  have hhalf : t * (one / 2) ≤ t * ((ofNat c).div (ofNat t)).units :=
    Nat.mul_le_mul_left t (Nat.le_of_not_lt hge)
  rcases Nat.lt_or_ge (2 ^ 60 * c) t with htiny | hle
  · -- the quotient is next to nothing
    have hq := mul_keepBits_le (keepBits c 1 * one * one) (keepBits t 1 * one)
    rw [← units_div, keepBits_of_small (show c < 2 ^ 53 by omega)] at hq
    have hpos := le_keepBits_one t
    have hle' := Nat.mul_le_mul_left (keepBits t 1) (Nat.le_of_not_lt hge)
    generalize ((ofNat c).div (ofNat t)).units = q at *
    generalize keepBits t 1 = t' at *
    have hcancel : t' * q ≤ 2 * (c * one) + t' := by
      refine Nat.le_of_mul_le_mul_right ?_ (show 0 < one by decide)
      calc t' * q * one = t' * one * q := by ring
        _ ≤ 2 * (c * one * one) + t' * one := hq
        _ = (2 * (c * one) + t') * one := by ring
    simp only [one_eq] at *
    omega
  rcases Nat.lt_or_ge t (2 ^ 53) with hexact | hlarge
  · -- both numbers are exact, and the quotient is away from one half
    have hq := units_div_le_of_small ht hexact (show c < 2 ^ 53 by omega) hle
    generalize ((ofNat c).div (ofNat t)).units = q at *
    simp only [one_eq] at *
    omega
  · have hq := units_div_le ht hle
    generalize ((ofNat c).div (ofNat t)).units = q at *
    simp only [one_eq] at *
    omega

end Scaled

end IndentedSass
