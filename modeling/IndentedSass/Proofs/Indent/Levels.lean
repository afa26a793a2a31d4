/-
  The levels of columns.

  * `level_mul`: the column of a tab stop has the level of the tab stop, up to a few levels
    above `2 ^ 50` and for every tab size (`level_of_dvd`);
  * `level_pos`: a line that is indented by a tab stop or more is not at level
    zero; before the first tab stop the level is zero or one (`level_le_one`), and zero
    in the first half of it (`level_eq_zero`);
  * `level_width_le`: the level of a line is bounded by its length;
  * `width_ofLevel`: the blanks written for a level are as wide as its tab stop, unless
    they are spaces of a tab size of zero; `IndentStyle.Reaches` says which levels are reached,
    and `level_width_ofLevel_iff` that these are measured as they were written.
-/
import Mathlib
import IndentedSass.Indent.Column
import IndentedSass.Proofs.Numeric.Rounding

namespace IndentedSass.Indent

@[simp] theorem level_zero (tab : Nat) : level tab 0 = 0 := by
  have hdiv : (Scaled.ofNat 0).div (.ofNat (max tab 1)) = ⟨0⟩ := by
    simp [Scaled.ofNat, Scaled.div, keepBits, divEven, Scaled.one]
  rw [level, hdiv]
  decide

theorem level_mul {tab k : Nat} (ht : 0 < tab) (hk : k ≤ 2 ^ 50 + 5) :
    level tab (k * tab) = k := by
  rcases Nat.eq_zero_or_pos k with rfl | hpos
  · simp
  · rw [level, Nat.max_eq_left ht, Scaled.round_div_mul ht hpos hk, maxCount, UInt64.size]
    omega

theorem level_of_dvd {tab column : Nat} (ht : 0 < tab) (hdvd : tab ∣ column)
    (hle : column ≤ 2 ^ 50 + 4 * tab) : level tab column = column / tab := by
  obtain ⟨k, rfl⟩ := hdvd
  have hk : k ≤ 2 ^ 50 + 5 := by
    by_contra hlt
    have hmul : tab * (2 ^ 50 + 6) ≤ tab * k := Nat.mul_le_mul_left tab (by omega)
    omega
  rw [Nat.mul_div_cancel_left k ht, Nat.mul_comm, level_mul ht hk]

theorem level_pos {tab column : Nat} (ht : 0 < tab) (h : tab ≤ column) : 0 < level tab column := by
  have hlower := Scaled.le_units_div ht (show tab ≤ 2 ^ 60 * column by omega)
  rw [level, Nat.max_eq_left ht, Scaled.round]
  generalize ((Scaled.ofNat column).div (.ofNat tab)).units = q at *
  have hq : 2 ^ 199 ≤ q := by
    by_contra hlt
    have h1 : tab * q ≤ column * 2 ^ 199 := Nat.mul_le_mul h (by omega)
    simp only [Scaled.one_eq] at hlower
    omega
  simp only [Scaled.one_eq, maxCount, UInt64.size]
  omega

/-- A column in the first half of the first tab stop has level zero. -/
theorem level_eq_zero {tab column : Nat} (h : 2 * column < tab) (hsmall : column < 2 ^ 50) :
    level tab column = 0 := by
  have hhalf := Scaled.units_div_lt_half h hsmall
  rw [level, Nat.max_eq_left (show 1 ≤ tab by omega), Scaled.round]
  generalize ((Scaled.ofNat column).div (.ofNat tab)).units = q at *
  simp only [Scaled.one_eq] at *
  omega

/-- A column before the first tab stop has level zero or one. -/
theorem level_le_one {tab column : Nat} (h : column < tab) (hsmall : column < 2 ^ 50) :
    level tab column ≤ 1 := by
  rcases Nat.lt_or_ge (2 * column) tab with hhalf | hge
  · rw [level_eq_zero hhalf hsmall]
    exact Nat.zero_le 1
  have hupper := Scaled.units_div_le (show 0 < tab by omega) (show tab ≤ 2 ^ 60 * column by omega)
  rw [level, Nat.max_eq_left (show 1 ≤ tab by omega), Scaled.round]
  generalize ((Scaled.ofNat column).div (.ofNat tab)).units = q at *
  have hq : q < 2 ^ 200 + 2 ^ 199 := by
    by_contra hlt
    have hmul := Nat.mul_le_mul_left tab (Nat.le_of_not_lt hlt)
    simp only [Scaled.one_eq] at hupper
    omega
  simp only [Scaled.one_eq]
  omega

/-- A level is not much deeper than its column. -/
theorem mul_level_le {tab : Nat} (ht : 0 < tab) (column : Nat) :
    tab * level tab column ≤ 8 * column + tab := by
  have hcolumn := keepBits_one_le column
  have htab := le_keepBits_one tab
  have hq := mul_keepBits_le (keepBits column 1 * Scaled.one * Scaled.one)
    (keepBits tab 1 * Scaled.one)
  rw [← Scaled.units_div] at hq
  have hlevel : level tab column ≤ ((Scaled.ofNat column).div (.ofNat tab)).round := by
    rw [level, Nat.max_eq_left ht]
    exact Nat.min_le_right ..
  have hround : ((Scaled.ofNat column).div (.ofNat tab)).round * Scaled.one ≤
      ((Scaled.ofNat column).div (.ofNat tab)).units + Scaled.one / 2 := Nat.div_mul_le_self ..
  generalize ((Scaled.ofNat column).div (.ofNat tab)).units = q at *
  generalize ((Scaled.ofNat column).div (.ofNat tab)).round = k at *
  generalize keepBits column 1 = c at *
  generalize keepBits tab 1 = t at *
  have hquotient : t * q ≤ 2 * (c * Scaled.one) + t := by
    refine Nat.le_of_mul_le_mul_right ?_ (show 0 < Scaled.one by decide)
    calc t * q * Scaled.one = t * Scaled.one * q := by ring
      _ ≤ 2 * (c * Scaled.one * Scaled.one) + t * Scaled.one := hq
      _ = (2 * (c * Scaled.one) + t) * Scaled.one := by ring
  have hstops : t * k ≤ 2 * c + t := by
    refine Nat.le_of_mul_le_mul_right ?_ (show 0 < Scaled.one by decide)
    have hunits := Nat.mul_le_mul_left t hround
    have hhalf : t * (q + Scaled.one / 2) = t * q + t * (Scaled.one / 2) := Nat.mul_add ..
    calc t * k * Scaled.one = t * (k * Scaled.one) := by ring
      _ ≤ t * q + t * (Scaled.one / 2) := hhalf ▸ hunits
      _ ≤ (2 * c + t) * Scaled.one := by
        simp only [Scaled.one_eq] at *
        omega
  -- one of the levels may be the half that goes up
  rcases Nat.eq_zero_or_pos (level tab column) with hzero | hpos
  · rw [hzero]
    omega
  obtain ⟨m, hm⟩ : ∃ m, level tab column = m + 1 := ⟨_, (Nat.succ_pred_eq_of_pos hpos).symm⟩
  rw [hm] at hlevel ⊢
  have hdeep : t * (m + 1) ≤ 2 * c + t := (Nat.mul_le_mul_left t hlevel).trans hstops
  have hwide : tab * m ≤ 2 * t * m := Nat.mul_le_mul_right m (by omega)
  rw [Nat.mul_add, Nat.mul_one] at hdeep ⊢
  rw [Nat.mul_assoc] at hwide
  omega

theorem width_le (tab : Nat) (ht : 0 < tab) (line : Text) : width tab line ≤ tab * line.length := by
  induction line with
  | nil => exact Nat.zero_le _
  | cons c cs ih =>
    rw [width, List.length_cons, Nat.mul_add, Nat.mul_one]
    split_ifs <;> omega

/-- A level is not much deeper than a line is long. -/
theorem level_width_le (style : IndentStyle) (line : Text) :
    level style.tabStop (width style.tabStop line) ≤ 8 * line.length + 1 := by
  have hpos := style.tabStop_pos
  have hlevel := mul_level_le hpos (width style.tabStop line)
  have hwidth := width_le style.tabStop hpos line
  refine Nat.le_of_mul_le_mul_left ?_ hpos
  rw [Nat.mul_add, Nat.mul_one, Nat.mul_left_comm]
  omega

theorem width_ofLevel {style : IndentStyle} (h : style.insertSpaces = true → 0 < style.tabSize)
    (n : Nat) (t : Text) :
    width style.tabStop (ofLevel style n ++ t) = n * style.tabStop + width style.tabStop t := by
  unfold ofLevel
  split
  · rename_i hs
    have := h hs
    rw [width_spaces, IndentStyle.tabStop, Nat.max_eq_left this]
  · rw [width_tabs]

end IndentedSass.Indent

namespace IndentedSass

/-! ## Levels that are reached -/

/-- The indentation of a level is as wide as the level asks for. -/
def IndentStyle.Reaches (style : IndentStyle) (level : Nat) : Prop :=
  (style.insertSpaces = true → 0 < style.tabSize) ∨ level = 0

namespace Indent

variable {style : IndentStyle} {n : Nat}

theorem ofLevel_zero (style : IndentStyle) : ofLevel style 0 = [] := by
  rw [ofLevel, Nat.zero_mul]
  split <;> rfl

/-- Spaces of no width are no indentation. -/
theorem ofLevel_of_not_reaches {n : Nat} (h : ¬style.Reaches n) (level : Nat) :
    ofLevel style level = [] := by
  obtain ⟨hspaces, hzero⟩ := Classical.not_imp.1 (not_or.1 h).1
  rw [ofLevel, if_pos hspaces, Nat.eq_zero_of_not_pos hzero, Nat.mul_zero]
  rfl

theorem width_of_reaches (h : style.Reaches n) (t : Text) :
    width style.tabStop (ofLevel style n ++ t) = n * style.tabStop + width style.tabStop t := by
  rcases h with hstyle | rfl
  · exact width_ofLevel hstyle n t
  · rw [ofLevel_zero, Nat.zero_mul, Nat.zero_add, List.nil_append]

/-- The indentation of a level is measured as that level exactly where it reaches it. -/
theorem level_width_ofLevel_iff (h : n * style.tabStop < 2 ^ 50) :
    level style.tabStop (width style.tabStop (ofLevel style n)) = n ↔ style.Reaches n := by
  constructor
  · intro hlevel
    by_contra hnot
    rw [ofLevel_of_not_reaches hnot, width, level_zero] at hlevel
    exact hnot (.inr hlevel.symm)
  · intro hreaches
    have hwidth := width_of_reaches hreaches []
    rw [List.append_nil, width, Nat.add_zero] at hwidth
    have hle : n ≤ n * style.tabStop := Nat.le_mul_of_pos_right n style.tabStop_pos
    rw [hwidth, level_mul style.tabStop_pos (by omega)]

end Indent

end IndentedSass
