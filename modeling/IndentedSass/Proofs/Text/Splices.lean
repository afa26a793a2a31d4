/-
  Edits that are applied at once.

  A list of edits refers to the unedited text, but it is applied one edit after the other.
  Since it goes from the end of the text to its start, an edit finds its range where it was,
  as long as the ranges are apart.

  * `Splice.Apart` are ranges that do not overlap, `Splice.Fits` the ranges that a text has;
  * `Splice.Replaces` is the replacement of all ranges at once;
  * `Splice.foldr_apply`: it is what the replacements do one by one from the last to the first;
    `Splice.fits_foldl`: each of them fits the text that it is applied to;
  * `Text.applyEdits_replaces`: all this of a list of edits, whatever its order is.
-/
import Mathlib
import IndentedSass.Proofs.Text.Positions

namespace IndentedSass

namespace Splice

variable {s : Splice} {splices done todo : List Splice} {t pre post : Text}

/-- The ranges do not start at the same place and do not overlap.  A new text that is put
    inside another range overlaps it. -/
def Apart (a b : Splice) : Prop := a.start ≠ b.start ∧ (a.stop ≤ b.start ∨ b.stop ≤ a.start)

instance : DecidableRel Apart := fun a b =>
  inferInstanceAs (Decidable (a.start ≠ b.start ∧ (a.stop ≤ b.start ∨ b.stop ≤ a.start)))

theorem Apart.symm {a b : Splice} (h : a.Apart b) : b.Apart a := ⟨h.1.symm, h.2.symm⟩

/-- The range is one of the text: it does not end before it starts, and both ends are between
    characters. -/
structure Fits (t : Text) (s : Splice) : Prop where
  start_le_stop : s.start ≤ s.stop
  start : t.IsBoundary s.start
  stop : t.IsBoundary s.stop

/-- A text that starts at a byte offset, with all ranges replaced at once: the pieces between
    the ranges are kept, and every new text stands in the place of its range. -/
inductive Replaces : (offset : Nat) → List Splice → (before after : Text) → Prop
  | done (offset : Nat) (t : Text) : Replaces offset [] t t
  | next {offset : Nat} {s : Splice} {splices : List Splice} {t t' : Text} (kept old : Text)
      (hstart : s.start = offset + kept.size) (hstop : s.stop = s.start + old.size)
      (h : Replaces s.stop splices t t') :
      Replaces offset (s :: splices) (kept ++ (old ++ t)) (kept ++ (s.newText ++ t'))

/-! ## One after the other -/

theorem apply_of_size {mid : Text} (hstart : s.start = pre.size)
    (hstop : s.stop = pre.size + mid.size) :
    s.apply (pre ++ (mid ++ post)) = pre ++ (s.newText ++ post) := by
  obtain ⟨start, stop, new⟩ := s
  subst hstart hstop
  exact Text.splice_apply pre mid post new

/-- Ranges in the order of the text, replaced from the last to the first: what is before the
    end of one of them is still the unedited text when it is replaced. -/
theorem foldr_apply (hfits : ∀ s ∈ splices, s.Fits (pre ++ t))
    (hstart : ∀ s ∈ splices, pre.size ≤ s.start)
    (hordered : splices.Pairwise fun a b => a.stop ≤ b.start) :
    ∃ t', Replaces pre.size splices t t' ∧ splices.foldr apply (pre ++ t) = pre ++ t' := by
  induction splices generalizing pre t with
  | nil => exact ⟨t, .done .., rfl⟩
  | cons s rest ih =>
    have hs := hfits s (List.mem_cons_self ..)
    have hle := hstart s (List.mem_cons_self ..)
    obtain ⟨hlater, hordered⟩ := List.pairwise_cons.1 hordered
    have hforward := hs.start_le_stop
    obtain ⟨kept, old, behind, rfl, hkept, hold⟩ := (hs.start.of_append hle).exists_cut
      (hs.stop.of_append (hle.trans hforward)) (Nat.sub_le_sub_right hforward _)
    have hstop : Text.size (pre ++ (kept ++ old)) = s.stop := by
      rw [Text.size_append, Text.size_append]
      omega
    have hsplit : pre ++ (kept ++ (old ++ behind)) = (pre ++ (kept ++ old)) ++ behind := by
      simp only [List.append_assoc]
    rw [hsplit] at hfits ⊢
    obtain ⟨t', hreplaces, hfold⟩ := ih (fun d hd => hfits d (List.mem_cons_of_mem s hd))
      (fun d hd => by rw [hstop]; exact hlater d hd) hordered
    rw [hstop] at hreplaces
    refine ⟨kept ++ (s.newText ++ t'), .next kept old (by omega) (by omega) hreplaces, ?_⟩
    have hcut : s.apply ((pre ++ kept) ++ (old ++ t')) = (pre ++ kept) ++ (s.newText ++ t') :=
      apply_of_size (by rw [Text.size_append]; omega) (by rw [Text.size_append]; omega)
    rw [List.foldr_cons, hfold]
    simpa only [List.append_assoc] using hcut

theorem takeBytes_append {n : Nat} (h : pre.size ≤ n) :
    Text.takeBytes n (pre ++ t) = pre ++ Text.takeBytes (n - pre.size) t := by
  induction pre generalizing n with
  | nil => rfl
  | cons c pre ih =>
    rw [Text.size_cons] at h
    rw [List.cons_append, Text.takeBytes, if_pos (by omega), ih (by omega), Text.size_cons,
      Nat.sub_add_eq, List.cons_append]

/-- Replacements leave what is before all of them. -/
theorem foldl_apply_append (h : ∀ d ∈ done, pre.size ≤ d.start) (post : Text) :
    ∃ post', done.foldl (fun r d => d.apply r) (pre ++ post) = pre ++ post' := by
  induction done generalizing post with
  | nil => exact ⟨post, rfl⟩
  | cons d done ih =>
    rw [List.foldl_cons, apply, takeBytes_append (h d (List.mem_cons_self ..)), List.append_assoc,
      List.append_assoc]
    exact ih (fun d' hd' => h d' (List.mem_cons_of_mem d hd')) _

/-- A range fits also when later ones have been replaced. -/
theorem fits_foldl (hfits : s.Fits t) (h : ∀ d ∈ done, s.stop ≤ d.start) :
    s.Fits (done.foldl (fun r d => d.apply r) t) := by
  obtain ⟨pre, ⟨post, rfl⟩, hpre⟩ := hfits.stop
  obtain ⟨post', hpost⟩ := foldl_apply_append (fun d hd => hpre ▸ h d hd) post
  rw [hpost]
  exact ⟨hfits.start_le_stop, hfits.start.congr (hpre ▸ hfits.start_le_stop),
    hfits.stop.congr hpre.ge⟩

/-! ## The order of a list of edits -/

theorem nodup_start (h : splices.Pairwise Apart) : (splices.map start).Nodup :=
  List.pairwise_map.2 (h.imp fun hab => hab.1)

/-- Ranges that are apart are replaced one before the other. -/
theorem pairwise_mergeSort_of_apart (hfits : ∀ s ∈ splices, s.Fits t)
    (hapart : splices.Pairwise Apart) :
    (splices.mergeSort notAfter).Pairwise fun a b => b.stop ≤ a.start := by
  have hsorted := (pairwise_mergeSort splices).and
    (hapart.perm (List.mergeSort_perm splices notAfter).symm fun h => h.symm)
  refine hsorted.imp_of_mem fun ha hb hab => ?_
  have hforward := (hfits _ (List.mem_mergeSort.1 ha)).start_le_stop
  obtain ⟨hafter, hne, hapart⟩ := hab
  rw [notAfter_iff] at hafter
  omega

end Splice

namespace Edit

variable {t : Text} {e : Edit} {s : Splice} {edits : List Edit}

theorem splice?_eq_some_iff : e.splice? t = some s ↔ ∃ start stop,
    e.range.start.offset? t = some start ∧ e.range.stop.offset? t = some stop ∧
      ⟨start, max stop start, e.newText⟩ = s := by
  simp [splice?, Option.bind_eq_some_iff]

theorem splice?_eq_none_iff : e.splice? t = none ↔
    t.lines.length ≤ e.range.start.line ∨ t.lines.length ≤ e.range.stop.line := by
  rw [← Position.offset?_eq_none_iff, ← Position.offset?_eq_none_iff, splice?]
  cases e.range.start.offset? t with
  | none => simp
  | some start => cases e.range.stop.offset? t <;> simp

/-- The range of an edit is one of the text. -/
theorem fits_splice? (h : e.splice? t = some s) : s.Fits t := by
  obtain ⟨start, stop, hstart, hstop, rfl⟩ := splice?_eq_some_iff.1 h
  have hbefore := Position.isBoundary_offset? hstart
  exact ⟨le_max_right _ _, hbefore, (Position.isBoundary_offset? hstop).max hbefore⟩

theorem fits_of_mem (h : s ∈ edits.filterMap (splice? t)) : s.Fits t := by
  obtain ⟨e, -, he⟩ := List.mem_filterMap.1 h
  exact fits_splice? he

/-- Edits with a line past the end of the text are not among the replacements. -/
theorem filterMap_filter (t : Text) (edits : List Edit) :
    (edits.filter fun e => decide (e.range.start.line < t.lines.length ∧
      e.range.stop.line < t.lines.length)).filterMap (splice? t) =
      edits.filterMap (splice? t) := by
  rw [List.filterMap_filter]
  refine List.filterMap_congr fun e _ => ?_
  split
  · rfl
  · rename_i h
    refine (splice?_eq_none_iff.2 ?_).symm
    rw [decide_eq_true_eq] at h
    omega

end Edit

/-- A list of edits replaces all their ranges at once, when these are apart: the pieces of the
    text between them are kept, and the new texts stand in their places.  The order of the
    list does not matter, an edit with a line past the end of the text does nothing, and every
    range fits the text that it is cut out of. -/
theorem Text.applyEdits_replaces (t : Text) (edits : List Edit)
    (hapart : (edits.filterMap (Edit.splice? t)).Pairwise Splice.Apart) :
    (∃ splices, splices.Perm (edits.filterMap (Edit.splice? t)) ∧
      Splice.Replaces 0 splices t (t.applyEdits edits)) ∧
    (∀ edits' : List Edit, edits'.Perm edits → t.applyEdits edits' = t.applyEdits edits) ∧
    t.applyEdits (edits.filter fun e => decide (e.range.start.line < t.lines.length ∧
      e.range.stop.line < t.lines.length)) = t.applyEdits edits ∧
    ∀ done s todo,
      (edits.filterMap (Edit.splice? t)).mergeSort Splice.notAfter = done ++ s :: todo →
        s.Fits (done.foldl (fun r d => d.apply r) t) := by
  have hfits : ∀ s ∈ edits.filterMap (Edit.splice? t), s.Fits t := fun s => Edit.fits_of_mem
  have hordered := Splice.pairwise_mergeSort_of_apart hfits hapart
  have hperm := List.mergeSort_perm (edits.filterMap (Edit.splice? t)) Splice.notAfter
  refine ⟨?_, fun edits' hedits => ?_, ?_, fun done s todo hsplit => ?_⟩
  · have hfits' : ∀ s ∈ ((edits.filterMap (Edit.splice? t)).mergeSort Splice.notAfter).reverse,
        s.Fits ([] ++ t) :=
      fun s hs => hfits s (hperm.mem_iff.1 (List.mem_reverse.1 hs))
    obtain ⟨t', hreplaces, hfold⟩ := Splice.foldr_apply hfits' (fun s _ => Nat.zero_le _)
      (List.pairwise_reverse.2 hordered)
    refine ⟨_, (List.reverse_perm _).trans hperm, ?_⟩
    rw [List.foldr_reverse, List.nil_append, List.nil_append] at hfold
    rw [applyEdits, hfold]
    exact hreplaces
  · have hsame := hedits.filterMap (Edit.splice? t)
    rw [applyEdits, applyEdits, Splice.mergeSort_eq ((hsame.map Splice.start).nodup_iff.2
      (Splice.nodup_start hapart)) (hsame.trans hperm.symm) (Splice.pairwise_mergeSort _)]
  · rw [applyEdits, applyEdits, Edit.filterMap_filter]
  · rw [hsplit] at hordered
    have hs : s ∈ edits.filterMap (Edit.splice? t) := by
      rw [← hperm.mem_iff, hsplit]
      simp
    exact Splice.fits_foldl (hfits s hs) fun d hd =>
      (List.pairwise_append.1 hordered).2.2 d hd s (List.mem_cons_self ..)

/-- A range over a line break, an insertion where it ends, an edit past the end of the text and
    a line feed that is removed. -/
theorem Text.applyEdits_replaces_neighbours :
    let t : Text := "aé\r\nbü\n".toList
    let edits : List Edit :=
      [⟨⟨⟨0, 1⟩, ⟨1, 1⟩⟩, ['x']⟩, ⟨⟨⟨1, 1⟩, ⟨1, 1⟩⟩, ['ß']⟩, ⟨⟨⟨1, 2⟩, ⟨5, 0⟩⟩, ['y']⟩,
        ⟨⟨⟨1, 2⟩, ⟨2, 0⟩⟩, []⟩]
    (edits.filterMap (Edit.splice? t)).Pairwise Splice.Apart ∧
      (∃ splices, splices.Perm (edits.filterMap (Edit.splice? t)) ∧
        Splice.Replaces 0 splices t "axßü".toList) ∧
      t.applyEdits edits.reverse = "axßü".toList ∧
      (⟨6, 6, ['ß']⟩ : Splice).Fits ((⟨8, 9, []⟩ : Splice).apply t) := by
  intro t edits
  have hsplices : edits.filterMap (Edit.splice? t) =
      [⟨1, 6, ['x']⟩, ⟨6, 6, ['ß']⟩, ⟨8, 9, []⟩] := by decide +kernel
  have hapart : (edits.filterMap (Edit.splice? t)).Pairwise Splice.Apart := by
    rw [hsplices]
    decide
  have hsorted : (edits.filterMap (Edit.splice? t)).mergeSort Splice.notAfter =
      [⟨8, 9, []⟩, ⟨6, 6, ['ß']⟩, ⟨1, 6, ['x']⟩] := by
    rw [hsplices]
    exact Splice.mergeSort_eq (by decide) (List.reverse_perm _).symm (by decide)
  have hresult : t.applyEdits edits = "axßü".toList := by
    rw [applyEdits, hsorted]
    decide +kernel
  obtain ⟨hreplaces, hperm, -, hfits⟩ := applyEdits_replaces t edits hapart
  rw [hresult] at hreplaces
  exact ⟨hapart, hreplaces, (hperm _ (List.reverse_perm _)).trans hresult,
    hfits [⟨8, 9, []⟩] ⟨6, 6, ['ß']⟩ [⟨1, 6, ['x']⟩] hsorted⟩

end IndentedSass
