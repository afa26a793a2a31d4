/-
  The lines of a text.

  * `unlines_lines`: writing the lines of a text one after the other gives the text
    back;
  * `lines_unlines`: and the other way round, for texts without line feeds;
  * `not_mem_of_mem_lines`, `lines_of_not_mem`: a line is a text without line feeds;
  * `splitOn_append_cons`, `splitOn_intercalate`: splitting at any separator, piece by piece;
  * `sum_length_lines_le`: the lines are not longer than the text.
-/
import Mathlib
import IndentedSass.Text.Basic

namespace IndentedSass.Text

theorem splitOn_cons (sep c : Char) (t : Text) :
    ∃ piece pieces, splitOn sep t = piece :: pieces ∧
      splitOn sep (c :: t) = if c = sep then [] :: piece :: pieces else (c :: piece) :: pieces := by
  cases h : splitOn sep t with
  | nil => exact absurd h (splitOn_ne_nil sep t)
  | cons piece pieces => exact ⟨piece, pieces, rfl, by simp [splitOn, h]⟩

theorem not_mem_of_mem_splitOn {sep : Char} {t piece : Text} (h : piece ∈ splitOn sep t) :
    sep ∉ piece := by
  induction t generalizing piece with
  | nil => simp_all [splitOn]
  | cons c t ih =>
    obtain ⟨first, rest, hsplit, hcons⟩ := splitOn_cons sep c t
    rw [hcons] at h
    rw [hsplit] at ih
    split at h
    · rcases List.mem_cons.1 h with rfl | hmem
      · simp
      · exact ih hmem
    · rename_i hne
      rcases List.mem_cons.1 h with rfl | hmem
      · have := ih (List.mem_cons_self ..)
        simp [this, Ne.symm hne]
      · exact ih (List.mem_cons_of_mem _ hmem)

theorem mem_of_mem_splitOn {sep c : Char} {t piece : Text} (h : piece ∈ splitOn sep t)
    (hc : c ∈ piece) : c ∈ t := by
  induction t generalizing piece with
  | nil => simp_all [splitOn]
  | cons d t ih =>
    obtain ⟨first, rest, hsplit, hcons⟩ := splitOn_cons sep d t
    rw [hcons] at h
    rw [hsplit] at ih
    split at h
    · rcases List.mem_cons.1 h with rfl | hmem
      · cases hc
      · exact List.mem_cons_of_mem _ (ih hmem hc)
    · rcases List.mem_cons.1 h with rfl | hmem
      · rcases List.mem_cons.1 hc with rfl | hc
        · exact List.mem_cons_self ..
        · exact List.mem_cons_of_mem _ (ih (List.mem_cons_self ..) hc)
      · exact List.mem_cons_of_mem _ (ih (List.mem_cons_of_mem _ hmem) hc)

/-- A line holds no line feed. -/
theorem not_mem_of_mem_lines {t line : Text} (h : line ∈ lines t) : '\n' ∉ line :=
  not_mem_of_mem_splitOn h

@[simp] theorem unlines_singleton (t : Text) : unlines [t] = t := by
  simp [unlines, List.intercalate]

theorem unlines_cons_cons (first second : Text) (rest : List Text) :
    unlines (first :: second :: rest) = first ++ '\n' :: unlines (second :: rest) := by
  simp [unlines, List.intercalate, List.intersperse]

theorem unlines_lines (t : Text) : unlines (lines t) = t := by
  unfold lines
  induction t with
  | nil => rfl
  | cons c t ih =>
    obtain ⟨first, rest, hsplit, hcons⟩ := splitOn_cons '\n' c t
    rw [hsplit] at ih
    rw [hcons]
    split
    · rename_i hc
      rw [unlines_cons_cons, ih, hc]
      rfl
    · rw [← ih]
      cases rest with
      | nil => simp [unlines, List.intercalate, List.intersperse]
      | cons second rest => rw [unlines_cons_cons, unlines_cons_cons, List.cons_append]

theorem splitOn_of_not_mem {sep : Char} {t : Text} (h : sep ∉ t) : splitOn sep t = [t] := by
  induction t with
  | nil => rfl
  | cons c t ih =>
    obtain ⟨first, rest, hsplit, hcons⟩ := splitOn_cons sep c t
    rw [ih fun hmem => h (List.mem_cons_of_mem _ hmem)] at hsplit
    cases hsplit
    have hne : c ≠ sep := fun hc => h (by rw [hc]; exact List.mem_cons_self ..)
    rw [hcons, if_neg hne]

theorem lines_of_not_mem {t : Text} (h : '\n' ∉ t) : lines t = [t] := splitOn_of_not_mem h

theorem splitOn_append_cons (sep : Char) (s t : Text) :
    splitOn sep (s ++ sep :: t) = splitOn sep s ++ splitOn sep t := by
  induction s with
  | nil =>
    obtain ⟨first, rest, hsplit, hcons⟩ := splitOn_cons sep sep t
    rw [List.nil_append, hcons, if_pos rfl, ← hsplit]
    rfl
  | cons c s ih =>
    obtain ⟨first, rest, hsplit, hcons⟩ := splitOn_cons sep c (s ++ sep :: t)
    obtain ⟨first', rest', hsplit', hcons'⟩ := splitOn_cons sep c s
    rw [hsplit, hsplit', List.cons_append, List.cons.injEq] at ih
    rw [List.cons_append, hcons, hcons', ih.1, ih.2]
    split <;> rfl

theorem lines_append_feed (s t : Text) : lines (s ++ '\n' :: t) = lines s ++ lines t :=
  splitOn_append_cons '\n' s t

/-- Texts that are put together with a separator are split again, each on its own. -/
theorem splitOn_intercalate {sep : Char} {ts : List Text} (hne : ts ≠ []) :
    splitOn sep (List.intercalate [sep] ts) = ts.flatMap (splitOn sep) := by
  induction ts with
  | nil => exact absurd rfl hne
  | cons t rest ih =>
    cases rest with
    | nil => simp
    | cons t' rest =>
      rw [List.intercalate_cons_cons, List.append_assoc, List.singleton_append, splitOn_append_cons,
        ih (by simp)]
      rfl

theorem splitOn_intercalate_of_not_mem {sep : Char} {ts : List Text} (hne : ts ≠ [])
    (h : ∀ t ∈ ts, sep ∉ t) : splitOn sep (List.intercalate [sep] ts) = ts := by
  rw [splitOn_intercalate hne, List.flatMap_congr fun t ht => splitOn_of_not_mem (h t ht)]
  simp

/-- The lines of texts that are put below each other. -/
theorem lines_unlines_flatMap {ls : List Text} (hne : ls ≠ []) :
    lines (unlines ls) = ls.flatMap lines := splitOn_intercalate hne

theorem lines_unlines {ls : List Text} (hne : ls ≠ []) (h : ∀ l ∈ ls, '\n' ∉ l) :
    lines (unlines ls) = ls := splitOn_intercalate_of_not_mem hne h

theorem sum_length_lines_le (t : Text) : ((lines t).map List.length).sum ≤ t.length := by
  unfold lines
  induction t with
  | nil => simp [splitOn]
  | cons c t ih =>
    obtain ⟨first, rest, hsplit, hcons⟩ := splitOn_cons '\n' c t
    rw [hsplit] at ih
    rw [hcons]
    split <;> simp_all <;> omega

theorem length_dropReturn_le (t : Text) : t.dropReturn.length ≤ t.length := by
  unfold dropReturn
  split
  · rw [List.length_dropLast]
    omega
  · exact Nat.le_refl _

theorem length_le_size (t : Text) : t.length ≤ t.size := by
  induction t with
  | nil => exact Nat.le_refl _
  | cons c t ih =>
    have := c.utf8Size_pos
    rw [List.length_cons, size_cons]
    omega

/-- The characters of the lines of a text, without their line ends. -/
theorem sum_length_dropReturn_le (t : Text) :
    (((lines t).map dropReturn).map List.length).sum ≤ t.length := by
  refine Nat.le_trans ?_ (sum_length_lines_le t)
  generalize lines t = ls
  induction ls with
  | nil => exact Nat.le_refl _
  | cons line rest ih =>
    have := length_dropReturn_le line
    simp only [List.map_cons, List.sum_cons]
    omega

end IndentedSass.Text
