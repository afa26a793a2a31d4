/-
  Block headers settle on tab stops.

  The columns, the tab stops and the limit are below `2 ^ 50`, and the limit is on a tab stop.

  * `lt_mul_snappedStops`: the nearest tab stop is less than one further left;
  * `snapColumn_mono`: headers that stand further right do not go further left;
  * `snapOffset_settles`: a header goes to a tab stop that is near or at the limit, and stays.
-/
import Mathlib
import IndentedSass.Proofs.Indent.Snapping
import IndentedSass.Proofs.Numeric.Monotone

namespace IndentedSass

namespace Scaled

/-- A tenth less than a quotient is nearest to a number that is less than one smaller. -/
theorem lt_mul_round_sub_tenth {c t : Nat} (ht : 0 < t) (ht' : t < 2 ^ 50) (hc : 0 < c)
    (hc' : c < 2 ^ 50) : c < t * (((ofNat c).div (ofNat t)).sub tenth).round + t := by
  have hlower := le_units_div_of_small ht (by omega) (show c < 2 ^ 53 by omega) (by omega)
  simp only [round, sub]
  generalize ((ofNat c).div (ofNat t)).units = q at *
  have hkeep : (2 ^ 53 - 1) * (t * q - t * tenth.units) ≤
      2 ^ 53 * (t * keepBits (q - tenth.units) 1) := by
    calc (2 ^ 53 - 1) * (t * q - t * tenth.units)
        = t * ((2 ^ 53 - 1) * (q - tenth.units)) := by rw [← Nat.mul_sub]; ring
      _ ≤ t * (2 ^ 53 * keepBits (q - tenth.units) 1) :=
          Nat.mul_le_mul_left t (le_keepBits_one (q - tenth.units))
      _ = 2 ^ 53 * (t * keepBits (q - tenth.units) 1) := by ring
  generalize keepBits (q - tenth.units) 1 = x at *
  have hround : t * x + t * (one / 2) < t * ((x + one / 2) / one) * one + t * one := by
    have hlt := Nat.lt_div_mul_add (a := x + one / 2) (b := one) (by decide)
    calc t * x + t * (one / 2) = t * (x + one / 2) := by ring
      _ < t * ((x + one / 2) / one * one + one) := Nat.mul_lt_mul_of_pos_left hlt ht
      _ = t * ((x + one / 2) / one) * one + t * one := by ring
  generalize t * ((x + one / 2) / one) = n at *
  generalize t * x = tx at *
  generalize t * q = tq at *
  simp only [one_eq, units_tenth] at *
  omega

end Scaled

namespace Indent

variable {tab column column' limit : Nat} {reset : Bool}

theorem lt_mul_snappedStops (ht : 0 < tab) (ht' : tab < 2 ^ 50) (hpos : 0 < column)
    (hc : column < 2 ^ 50) : column < tab * snappedStops tab column + tab := by
  have hlower := Scaled.lt_mul_round_sub_tenth ht ht' hpos hc
  have hupper := Scaled.mul_round_sub_tenth_le ht (show tab ≤ 2 ^ 60 * column by omega) hc
  rw [snappedStops, Nat.max_eq_left ht]
  generalize (((Scaled.ofNat column).div (.ofNat tab)).sub .tenth).round = k at *
  have hk : k ≤ maxCount := by
    have hle := Nat.le_mul_of_pos_left k ht
    unfold maxCount UInt64.size
    omega
  rwa [Nat.min_eq_right hk]

theorem snappedStops_mono (tab : Nat) (h : column ≤ column') :
    snappedStops tab column ≤ snappedStops tab column' := by
  unfold snappedStops
  exact min_le_min_left _ (Scaled.round_mono (Scaled.units_sub_mono
    (Scaled.units_div_mono (Scaled.units_ofNat_mono h) _) _))

/-- Headers that stand further right do not go further left. -/
theorem snapColumn_mono (tab limit : Nat) (reset : Bool) (h : column ≤ column') :
    snapColumn tab column limit reset ≤ snapColumn tab column' limit reset := by
  have hstops := Nat.mul_le_mul_left tab (snappedStops_mono tab h)
  unfold snapColumn
  cases reset with
  | true =>
    simp only [Bool.true_eq_false, and_false, if_false]
    split_ifs <;> omega
  | false =>
    simp only [and_true]
    split_ifs <;> omega

/-- A header is near the column that it goes to, unless it is stopped at the limit. -/
theorem le_snapColumn (limit : Nat) (reset : Bool) (ht : 0 < tab) (ht' : tab < 2 ^ 50)
    (hc : column < 2 ^ 50) :
    column ≤ snapColumn tab column limit reset + tab ∨
      reset = false ∧ limit < tab * snappedStops tab column ∧
        snapColumn tab column limit reset = limit := by
  unfold snapColumn
  rcases Nat.eq_zero_or_pos column with hzero | hpos
  · exact .inl (by omega)
  rw [if_neg hpos.ne']
  split
  · rename_i hstopped
    exact .inr ⟨hstopped.2, hstopped.1, rfl⟩
  · exact .inl (lt_mul_snappedStops ht ht' hpos hc).le

/-- A header that is moved by its offset stands on a tab stop, not behind the limit unless it
    is reset, and at most a tab stop away from where it stood unless the limit stops it.  It is
    not moved again, and headers keep their order. -/
theorem snapOffset_settles (reset : Bool) (ht : 0 < tab) (ht' : tab < 2 ^ 50)
    (hc : column < 2 ^ 50) (hl : limit < 2 ^ 50) (hdvd : tab ∣ limit) :
    ∃ target : Nat, (column : Int) + snapOffset tab column limit reset = target ∧
      tab ∣ target ∧ (reset = false → target ≤ limit) ∧ target ≤ column + tab ∧
      (column ≤ target + tab ∨
        reset = false ∧ limit < tab * snappedStops tab column ∧ target = limit) ∧
      snapOffset tab target limit reset = 0 ∧
      ∀ column', column ≤ column' → column' < 2 ^ 50 →
        (target : Int) ≤ column' + snapOffset tab column' limit reset := by
  have hl' : limit < 2 ^ 63 := by omega
  have hle := snapColumn_le limit reset ht ht' (.inl hc)
  have htarget := dvd_snapColumn column reset hdvd
  have hexact : Exact tab (snapColumn tab column limit reset) := .inr ⟨htarget, by omega⟩
  refine ⟨snapColumn tab column limit reset, ?_, htarget, ?_, hle,
    le_snapColumn limit reset ht ht' hc, ?_, fun column' hcolumn hc' => ?_⟩
  · rw [snapOffset_eq ht ht' (.inl hc) hl']
    omega
  · rintro rfl
    exact snapColumn_le_limit tab column limit
  · rw [snapOffset_eq ht ht' hexact hl', snapColumn_snapColumn ht ht' hc hdvd]
    omega
  · have hmono := snapColumn_mono tab limit reset hcolumn
    rw [snapOffset_eq ht ht' (.inl hc') hl']
    omega

/-- A header two thirds of a tab stop behind one, with and without a limit further left. -/
theorem snapOffset_settles_far :
    let column := 2 ^ 50 - 2
    let limit := 3 * 2 ^ 48
    (0 < 3 ∧ 3 < 2 ^ 50) ∧ (column < 2 ^ 50 ∧ limit < 2 ^ 50 ∧ 3 ∣ limit) ∧
      snapOffset 3 (column + 1) limit true = 0 ∧ snapOffset 3 limit limit false = 0 ∧
      (column + 1 : Int) ≤ (column + 1 : Nat) + snapOffset 3 (column + 1) limit true := by
  intro column limit
  have hc : column < 2 ^ 50 := by decide
  have hl : limit < 2 ^ 50 := by decide
  have hdvd : 3 ∣ limit := ⟨_, rfl⟩
  obtain ⟨target, htarget, -, -, -, -, hstays, hmono⟩ :=
    snapOffset_settles true (by decide) (by decide) hc hl hdvd
  obtain ⟨stopped, hstopped, -, -, -, -, hremains, -⟩ :=
    snapOffset_settles false (by decide) (by decide) hc hl hdvd
  have hup : (column : Int) + snapOffset 3 column limit true = (column + 1 : Nat) := by
    decide +kernel
  have hback : (column : Int) + snapOffset 3 column limit false = limit := by decide +kernel
  have hnext := hmono (column + 1) (by omega) (by decide)
  rw [hup] at htarget
  rw [hback] at hstopped
  rw [← Int.natCast_inj.1 htarget] at hstays hnext
  rw [← Int.natCast_inj.1 hstopped] at hremains
  exact ⟨by decide, ⟨hc, hl, hdvd⟩, hstays, hremains, by simpa using hnext⟩

end Indent

end IndentedSass
