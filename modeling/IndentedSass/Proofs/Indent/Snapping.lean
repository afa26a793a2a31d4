/-
  Block headers go to tab stops.

  The columns of a line and the tab stops are below `2 ^ 50`, so that the nearest tab
  stop can be told and differences of columns are exact.  A formatted line may be a few
  tab stops further right (`Exact`).

  * `snappedStops_mul`: the column of a tab stop has the tab stop as its nearest one;
  * `mul_snappedStops_le`: the nearest tab stop is at most one further right;
  * `snapColumn` is where a header goes: a tab stop (`dvd_snapColumn`), not to the
    right of the limit, where it stays from then on (`snapColumn_snapColumn`);
  * `snapOffset_eq`, `countDiff_eq`: moving a line by its offset takes it there;
  * `width_ofColumn`: the blanks written for a column are as wide as the column.
-/
import Mathlib
import IndentedSass.Indent.Column
import IndentedSass.Proofs.Numeric.Rounding

namespace IndentedSass

namespace Scaled

/-- Where numbers are exact, the quotient of a multiple is rounded once. -/
theorem units_div_mul {k t : Nat} (ht : 0 < t) (hk : 0 < k) (hkt : k * t < 2 ^ 53) :
    2 ^ 53 * ((ofNat (k * t)).div (ofNat t)).units ≤ (2 ^ 53 + 1) * (k * one) ∧
      (2 ^ 53 - 1) * (k * one) ≤ 2 ^ 53 * ((ofNat (k * t)).div (ofNat t)).units := by
  have hle : t ≤ k * t := Nat.le_mul_of_pos_left t hk
  have hupper := units_div_le_of_small ht (hle.trans_lt hkt) hkt (by omega)
  have hlower := le_units_div_of_small ht (hle.trans_lt hkt) hkt (by omega)
  generalize ((ofNat (k * t)).div (ofNat t)).units = q at *
  constructor
  · refine Nat.le_of_mul_le_mul_right ?_ ht
    calc 2 ^ 53 * q * t = 2 ^ 53 * (t * q) := by ring
      _ ≤ (2 ^ 53 + 1) * (k * t * one) := hupper
      _ = (2 ^ 53 + 1) * (k * one) * t := by ring
  · refine Nat.le_of_mul_le_mul_right ?_ ht
    calc (2 ^ 53 - 1) * (k * one) * t = (2 ^ 53 - 1) * (k * t * one) := by ring
      _ ≤ 2 ^ 53 * (t * q) := hlower
      _ = 2 ^ 53 * q * t := by ring

/-- A tenth less than a multiple is nearest to the multiple. -/
theorem round_sub_tenth_mul {k t : Nat} (ht : 0 < t) (hk : 0 < k) (hk' : k ≤ 2 ^ 50 + 5)
    (hkt : k * t < 2 ^ 53) : (((ofNat (k * t)).div (ofNat t)).sub tenth).round = k := by
  obtain ⟨hupper, hlower⟩ := units_div_mul ht hk hkt
  simp only [round, sub]
  generalize ((ofNat (k * t)).div (ofNat t)).units = q at *
  have hkeep := keepBits_one_le (q - tenth.units)
  have hkeep' := le_keepBits_one (q - tenth.units)
  generalize keepBits (q - tenth.units) 1 = x at *
  simp only [one_eq, units_tenth] at *
  omega

/-- A tenth less than a quotient is nearest to a number that is at most one larger. -/
theorem mul_round_sub_tenth_le {c t : Nat} (ht : 0 < t) (h : t ≤ 2 ^ 60 * c) (hc : c < 2 ^ 50) :
    t * (((ofNat c).div (ofNat t)).sub tenth).round ≤ c + t := by
  have hupper := units_div_le ht h
  simp only [round, sub]
  generalize ((ofNat c).div (ofNat t)).units = q at *
  have hkeep : 2 ^ 53 * (t * keepBits (q - tenth.units) 1) ≤ (2 ^ 53 + 1) * (t * q) := by
    calc 2 ^ 53 * (t * keepBits (q - tenth.units) 1)
        = t * (2 ^ 53 * keepBits (q - tenth.units) 1) := by ring
      _ ≤ t * ((2 ^ 53 + 1) * (q - tenth.units)) :=
          Nat.mul_le_mul_left t (keepBits_one_le (q - tenth.units))
      _ ≤ t * ((2 ^ 53 + 1) * q) :=
          Nat.mul_le_mul_left t (Nat.mul_le_mul_left _ (Nat.sub_le q tenth.units))
      _ = (2 ^ 53 + 1) * (t * q) := by ring
  generalize keepBits (q - tenth.units) 1 = x at *
  have hround : t * ((x + one / 2) / one) * one ≤ t * x + t * (one / 2) := by
    calc t * ((x + one / 2) / one) * one = t * ((x + one / 2) / one * one) := by ring
      _ ≤ t * (x + one / 2) := Nat.mul_le_mul_left t (Nat.div_mul_le_self _ _)
      _ = t * x + t * (one / 2) := by ring
  generalize t * ((x + one / 2) / one) = n at *
  generalize t * x = tx at *
  generalize t * q = tq at *
  simp only [one_eq] at *
  omega

end Scaled

namespace Indent

theorem snappedStops_mul {tab k : Nat} (ht : 0 < tab) (hk : 0 < k) (hk' : k ≤ 2 ^ 50 + 5)
    (hcolumn : k * tab < 2 ^ 53) : snappedStops tab (k * tab) = k := by
  rw [snappedStops, Nat.max_eq_left ht, Scaled.round_sub_tenth_mul ht hk hk' hcolumn, maxCount, UInt64.size]
  omega

/-- A column that can be told: that of a line, or one that lines are moved to. -/
def Exact (tab column : Nat) : Prop := column < 2 ^ 50 ∨ tab ∣ column ∧ column ≤ 2 ^ 50 + 4 * tab

theorem Exact.lt {tab column : Nat} (h : Exact tab column) (ht : tab < 2 ^ 50) :
    column < 2 ^ 53 := by
  rcases h with h | ⟨-, h⟩ <;> omega

theorem mul_snappedStops_le {tab column : Nat} (ht : 0 < tab) (ht' : tab < 2 ^ 50)
    (hpos : 0 < column) (hc : Exact tab column) : tab * snappedStops tab column ≤ column + tab := by
  rcases hc with hc | ⟨⟨k, rfl⟩, hle⟩
  · refine Nat.le_trans ?_
      (Scaled.mul_round_sub_tenth_le ht (show tab ≤ 2 ^ 60 * column by omega) hc)
    rw [snappedStops, Nat.max_eq_left ht]
    exact Nat.mul_le_mul_left tab (Nat.min_le_right _ _)
  · -- a tab stop is its own nearest one
    have hk : k ≤ 2 ^ 50 + 5 := by
      by_contra hlt
      have hmul : tab * (2 ^ 50 + 6) ≤ tab * k := Nat.mul_le_mul_left tab (by omega)
      omega
    rw [Nat.mul_comm tab k] at hpos hle ⊢
    rw [snappedStops_mul ht (Nat.pos_of_mul_pos_right hpos) hk (by omega), Nat.mul_comm]
    exact Nat.le_add_right ..

theorem countDiff_eq {a b : Nat} (ha : a < 2 ^ 63) (hb : b < 2 ^ 63) :
    countDiff a b = (a : Int) - b := by
  unfold countDiff UInt64.size
  exact Int.bmod_eq_of_le (by omega) (by omega)

/-- The column that a block header goes to. -/
def snapColumn (tab column limit : Nat) (reset : Bool) : Nat :=
  if column = 0 then 0
  else if limit < tab * snappedStops tab column ∧ reset = false then limit
  else tab * snappedStops tab column

variable {tab column limit : Nat} {reset : Bool}

theorem snapColumn_le (limit : Nat) (reset : Bool) (ht : 0 < tab) (ht' : tab < 2 ^ 50)
    (hc : Exact tab column) : snapColumn tab column limit reset ≤ column + tab := by
  unfold snapColumn
  split
  · omega
  · have hstops := mul_snappedStops_le ht ht' (by omega) hc
    split <;> omega

/-- A header goes as far as its offset says. -/
theorem snapOffset_eq (ht : 0 < tab) (ht' : tab < 2 ^ 50) (hc : Exact tab column)
    (hl : limit < 2 ^ 63) (reset : Bool) :
    snapOffset tab column limit reset = (snapColumn tab column limit reset : Int) - column := by
  unfold snapOffset snapColumn
  by_cases hzero : column = 0
  · rw [if_pos hzero, if_pos hzero]
    omega
  · have hstops := mul_snappedStops_le ht ht' (by omega) hc
    have hlt := hc.lt ht'
    have htarget : max tab 1 * snappedStops tab column % UInt64.size =
        tab * snappedStops tab column := by
      rw [Nat.max_eq_left ht]
      exact Nat.mod_eq_of_lt (by unfold UInt64.size; omega)
    rw [if_neg hzero, if_neg hzero]
    dsimp only
    rw [htarget]
    split
    · exact countDiff_eq hl (by omega)
    · exact countDiff_eq (by omega) (by omega)

/-- A header goes to a tab stop. -/
theorem dvd_snapColumn (column : Nat) (reset : Bool) (hl : tab ∣ limit) :
    tab ∣ snapColumn tab column limit reset := by
  unfold snapColumn
  split
  · exact Nat.dvd_zero tab
  · split
    · exact hl
    · exact Nat.dvd_mul_right ..

/-- A header does not go past the limit. -/
theorem snapColumn_le_limit (tab column limit : Nat) : snapColumn tab column limit false ≤ limit := by
  unfold snapColumn
  split
  · exact Nat.zero_le limit
  · split <;> simp_all

/-- A header on a tab stop within the limit stays there. -/
theorem snapColumn_of_dvd (ht : 0 < tab) (ht' : tab < 2 ^ 50) (hdvd : tab ∣ column)
    (hc : column ≤ 2 ^ 50 + 4 * tab) (hlimit : reset = false → column ≤ limit) :
    snapColumn tab column limit reset = column := by
  obtain ⟨k, rfl⟩ := hdvd
  cases k with
  | zero => rfl
  | succ j =>
    rw [Nat.mul_succ] at hc hlimit ⊢
    have hj : j ≤ tab * j := Nat.le_mul_of_pos_left j ht
    have hstops : tab * snappedStops tab (tab * j + tab) = tab * j + tab := by
      have hcolumn : tab * j + tab = (j + 1) * tab := by rw [Nat.succ_mul, Nat.mul_comm]
      have hstop : j + 1 ≤ 2 ^ 50 + 5 := by
        by_contra hlt
        have hmul : tab * (2 ^ 50 + 5) ≤ tab * j := Nat.mul_le_mul_left tab (by omega)
        omega
      rw [hcolumn, snappedStops_mul ht (show 0 < j + 1 by omega) hstop (by omega), Nat.mul_comm]
    rw [snapColumn, if_neg (by omega), hstops, if_neg]
    rintro ⟨hlt, hreset⟩
    have := hlimit hreset
    omega

/-- A header on a tab stop goes no further than the limit. -/
theorem snapColumn_min (limit : Nat) (ht : 0 < tab) (ht' : tab < 2 ^ 50) (hdvd : tab ∣ column)
    (hc : column ≤ 2 ^ 50 + 4 * tab) : snapColumn tab column limit false = min column limit := by
  rcases Nat.lt_or_ge limit column with hlt | hle
  · -- the nearest tab stop is behind the limit
    have hstops : snapColumn tab column limit true = column :=
      snapColumn_of_dvd ht ht' hdvd hc fun h => nomatch h
    have hcolumn : ¬column = 0 := by omega
    rw [snapColumn, if_neg hcolumn, if_neg (by simp)] at hstops
    rw [snapColumn, if_neg hcolumn, hstops, if_pos ⟨hlt, rfl⟩, Nat.min_eq_right (Nat.le_of_lt hlt)]
  · rw [snapColumn_of_dvd ht ht' hdvd hc fun _ => hle, Nat.min_eq_left hle]

/-- A header that stands where it goes to stays there. -/
theorem snapColumn_snapColumn (ht : 0 < tab) (ht' : tab < 2 ^ 50) (hc : column < 2 ^ 50)
    (hl : tab ∣ limit) :
    snapColumn tab (snapColumn tab column limit reset) limit reset =
      snapColumn tab column limit reset := by
  have hle := snapColumn_le limit reset ht ht' (.inl hc)
  refine snapColumn_of_dvd ht ht' (dvd_snapColumn column reset hl) (by omega) ?_
  rintro rfl
  exact snapColumn_le_limit tab column limit

/-! ## Written columns -/

theorem blanks_ofColumn (style : IndentStyle) (column : Nat) :
    ∀ c ∈ ofColumn style column, isBlank c = true := by
  intro c hc
  unfold ofColumn at hc
  split at hc
  · rw [List.eq_of_mem_replicate hc]
    decide
  · rcases List.mem_append.1 hc with htab | hspace
    · rw [List.eq_of_mem_replicate htab]
      decide
    · rw [List.eq_of_mem_replicate hspace]
      decide

theorem width_ofColumn (style : IndentStyle) (column : Nat) (t : Text) :
    width style.tabStop (ofColumn style column ++ t) = column + width style.tabStop t := by
  unfold ofColumn
  split
  · rw [width_spaces]
  · rw [List.append_assoc, width_tabs, width_spaces, ← Nat.add_assoc]
    congr 1
    rw [Nat.mul_comm]
    exact Nat.div_add_mod ..

end Indent

end IndentedSass
