/-
  Edits of whole lines.

  Formatting replaces lines and removes lines.  Such edits, given by their positions
  in the text and applied from its end to its start, do to the lines what each of
  them says.

  * `Splice.mergeSort_eq`: the order in which replacements are applied;
  * `offset?_line`: the byte offset of a position, from the lines before it;
  * `LineEdit` is what happens to a line, `LineEdit.edits` the edits of the lines of a
    text, `LineEdit.splices` the same edits at their offsets;
  * `applyEdits_lines`: the text after the edits, line by line;
  * `LineEdit.foldr_edits`: the same text comes out when the edits are reported one by one,
    the last line first;
  * `LineEdit.pairwise_edits`, `coversLine_of_mem_edits`: their ranges.
-/
import Mathlib
import IndentedSass.Proofs.Text.Lines
import IndentedSass.Text.Edit

namespace IndentedSass

/-! ## Cutting at a byte offset -/

namespace Text

@[simp] theorem takeBytes_size (s t : Text) : takeBytes s.size (s ++ t) = s := by
  induction s with
  | nil =>
    cases t with
    | nil => rfl
    | cons c t =>
      have hpos := c.utf8Size_pos
      simp only [size_nil, List.nil_append, takeBytes]
      rw [if_neg (by omega)]
  | cons c s ih =>
    simp only [List.cons_append, size_cons, takeBytes]
    rw [if_pos (by omega), Nat.add_sub_cancel_left, ih]

@[simp] theorem dropBytes_size (s t : Text) : dropBytes s.size (s ++ t) = t := by
  have hcut := takeBytes_append_dropBytes s.size (s ++ t)
  rw [takeBytes_size] at hcut
  exact List.append_cancel_left hcut

/-- A cut between two parts replaces what stands between them. -/
theorem splice_apply (pre mid post new : Text) :
    Splice.apply ⟨pre.size, pre.size + mid.size, new⟩ (pre ++ (mid ++ post)) =
      pre ++ (new ++ post) := by
  have hdrop : dropBytes (pre.size + mid.size) (pre ++ (mid ++ post)) = post := by
    rw [← List.append_assoc, ← size_append, dropBytes_size]
  rw [Splice.apply, takeBytes_size, hdrop, List.append_assoc]

/-! ## The lines of joined lines -/

/-- The bytes of lines, with the line feed behind each of them. -/
def sizeLines (ls : List Text) : Nat := (ls.map fun l => l.size + 1).sum

theorem ne_feed_of_not_mem {l : Text} (h : '\n' ∉ l) : ∀ c ∈ l, decide (c ≠ '\n') = true :=
  fun _ hc => decide_eq_true fun hfeed => h (hfeed ▸ hc)

theorem unlines_cons (l : Text) {rest : List Text} (hne : rest ≠ []) :
    unlines (l :: rest) = l ++ ['\n'] ++ unlines rest := by
  obtain ⟨l', more, rfl⟩ := List.exists_cons_of_ne_nil hne
  rw [unlines_cons_cons, List.append_assoc]
  rfl

end Text

/-! ## The order of replacements -/

namespace Splice

theorem notAfter_iff {a b : Splice} :
    a.notAfter b = true ↔ b.start < a.start ∨ a.start = b.start ∧ b.stop ≤ a.stop := by
  simp [notAfter]

theorem pairwise_mergeSort (splices : List Splice) :
    (splices.mergeSort notAfter).Pairwise fun a b => a.notAfter b = true := by
  refine List.pairwise_mergeSort ?_ ?_ splices
  · intro a b c hab hbc
    rw [notAfter_iff] at *
    omega
  · intro a b
    rw [Bool.or_eq_true, notAfter_iff, notAfter_iff]
    omega

/-- Replacements that start at different places are in order in one way only. -/
theorem mergeSort_eq {splices ordered : List Splice} (hstarts : (splices.map start).Nodup)
    (hperm : splices.Perm ordered) (hordered : ordered.Pairwise fun a b => a.notAfter b = true) :
    splices.mergeSort notAfter = ordered := by
  refine List.Perm.eq_of_pairwise ?_ (pairwise_mergeSort splices) hordered
    ((List.mergeSort_perm _ _).trans hperm)
  intro a b ha hb hab hba
  refine List.inj_on_of_nodup_map hstarts (List.mem_mergeSort.1 ha) (hperm.mem_iff.2 hb) ?_
  rw [notAfter_iff] at hab hba
  omega

end Splice

/-! ## Positions -/

namespace Position

theorem lineStart?_unlines {before after : List Text} {line : Text}
    (h : ∀ l ∈ before, '\n' ∉ l) :
    lineStart? before.length (Text.unlines (before ++ line :: after)) =
      some (Text.sizeLines before, Text.unlines (line :: after)) := by
  induction before with
  | nil => rfl
  | cons l before ih =>
    have hl := Text.ne_feed_of_not_mem (h l (List.mem_cons_self ..))
    obtain ⟨l', more, hmore⟩ := List.exists_cons_of_ne_nil
      (List.append_ne_nil_of_right_ne_nil before (List.cons_ne_nil line after))
    rw [List.cons_append, hmore, Text.unlines_cons_cons, ← hmore, List.length_cons, lineStart?,
      List.dropWhile_append_of_pos hl, List.takeWhile_append_of_pos hl,
      List.dropWhile_cons_of_neg (by decide), List.takeWhile_cons_of_neg (by decide),
      List.append_nil]
    dsimp only
    rw [ih fun m hm => h m (List.mem_cons_of_mem l hm)]
    simp [Text.sizeLines]

/-- The byte offset of the start of a line. -/
theorem offset?_start {before : List Text} (line : Text) (after : List Text)
    (h : ∀ l ∈ before, '\n' ∉ l) :
    offset? (Text.unlines (before ++ line :: after)) ⟨before.length, 0⟩ =
      some (Text.sizeLines before) := by
  simp only [offset?, lineStart?_unlines h, Option.map_some, List.take_zero, Text.size_nil,
    Nat.add_zero]

/-- The byte offset of a column of a line. -/
theorem offset?_line {before : List Text} {line : Text} (after : List Text) (column : Nat)
    (h : ∀ l ∈ before, '\n' ∉ l) (hline : '\n' ∉ line) :
    offset? (Text.unlines (before ++ line :: after)) ⟨before.length, column⟩ =
      some (Text.sizeLines before + Text.size (line.dropReturn.take column)) := by
  have htake : (Text.unlines (line :: after)).takeWhile (· ≠ '\n') = line := by
    have hall := Text.ne_feed_of_not_mem hline
    cases after with
    | nil =>
      have hone : Text.unlines [line] = line ++ [] := by
        simp [Text.unlines, List.intercalate, List.intersperse]
      rw [hone, List.takeWhile_append_of_pos hall]
      simp
    | cons l after =>
      rw [Text.unlines_cons_cons, List.takeWhile_append_of_pos hall]
      simp
  simp only [offset?, lineStart?_unlines h, Option.map_some, htake]

end Position

/-! ## What happens to lines -/

/-- The carriage return that ends a line, if one does. -/
def Text.ending (t : Text) : Text := if t.getLast? = some '\r' then ['\r'] else []

theorem Text.dropReturn_append_ending (t : Text) : t.dropReturn ++ t.ending = t := by
  unfold Text.dropReturn Text.ending
  split
  · rename_i h
    exact List.dropLast_append_getLast? _ h
  · exact List.append_nil t

theorem Text.take_dropReturn (t : Text) : t.take t.dropReturn.length = t.dropReturn :=
  (List.prefix_iff_eq_take.1 ⟨t.ending, t.dropReturn_append_ending⟩).symm

/-- The last two carriage returns of a line, as far as it ends in them.  A range that
    covers a line leaves one out, and so does the line that it is taken from. -/
def Text.endings (t : Text) : Text := t.dropReturn.ending ++ t.ending

theorem Text.dropReturn_append_endings (t : Text) : t.dropReturn.dropReturn ++ t.endings = t := by
  rw [endings, ← List.append_assoc, dropReturn_append_ending, dropReturn_append_ending]

/-- A line that ended in one carriage return at most. -/
theorem Text.endings_eq {t : Text} (h : t.dropReturn.dropReturn = t.dropReturn) :
    t.endings = t.ending := by
  have hnone := t.dropReturn.dropReturn_append_ending
  rw [h] at hnone
  rw [endings, List.append_right_eq_self.1 hnone, List.nil_append]

/-- What happens to a line. -/
inductive LineEdit where
  | keep
  | replace (newText : Text)
  | remove
  deriving DecidableEq, Repr

namespace LineEdit

/-- The edit of the line at an index. -/
def edit? (index : Nat) (line : Text) : LineEdit → Option Edit
  | keep => none
  | replace newText => some ⟨.wholeLine index line.dropReturn, newText⟩
  | remove => some ⟨.lineAndBreak index, []⟩

/-- The edit of the line that starts at a byte offset. -/
def splice? (start : Nat) (line : Text) : LineEdit → Option Splice
  | keep => none
  | replace newText => some ⟨start, start + line.dropReturn.dropReturn.size, newText⟩
  | remove => some ⟨start, start + (line.size + 1), []⟩

/-- The line afterwards, if it is still there; its endings stay. -/
def apply (line : Text) : LineEdit → Option Text
  | keep => some line
  | replace newText => some (newText ++ line.endings)
  | remove => none

/-- The edits of lines, the first of which is at an index. -/
def edits (index : Nat) : List (Text × LineEdit) → List Edit
  | [] => []
  | (line, e) :: rest => (e.edit? index line).toList ++ edits (index + 1) rest

/-- The edits of lines, the first of which starts at a byte offset. -/
def splices (start : Nat) : List (Text × LineEdit) → List Splice
  | [] => []
  | (line, e) :: rest => (e.splice? start line).toList ++ splices (start + (line.size + 1)) rest

/-- The lines afterwards. -/
def applyAll (changes : List (Text × LineEdit)) : List Text :=
  changes.filterMap fun (l, e) => e.apply l

/-- The last line is not removed: there is a line break behind every line that is. -/
def KeepsLast (changes : List (Text × LineEdit)) : Prop :=
  ∀ change ∈ changes.getLast?, change.2 ≠ .remove

variable {line : Text} {e : LineEdit} {changes : List (Text × LineEdit)}

theorem KeepsLast.tail {change : Text × LineEdit} (h : KeepsLast (change :: changes)) :
    KeepsLast changes := by
  intro last hlast
  refine h last ?_
  cases changes with
  | nil => cases hlast
  | cons c rest => simpa using hlast

theorem applyAll_cons (line : Text) (e : LineEdit) (changes : List (Text × LineEdit)) :
    applyAll ((line, e) :: changes) = (e.apply line).toList ++ applyAll changes := by
  rw [applyAll, List.filterMap_cons]
  dsimp only
  cases e.apply line <;> rfl

theorem KeepsLast.cons (h : KeepsLast changes) (he : changes = [] → e ≠ .remove) :
    KeepsLast ((line, e) :: changes) := by
  intro change hchange
  cases changes with
  | nil =>
    cases Option.mem_some_iff.1 hchange
    exact he rfl
  | cons first rest =>
    rw [List.getLast?_cons_cons] at hchange
    exact h change hchange

theorem applyAll_ne_nil (hne : changes ≠ []) (h : KeepsLast changes) : applyAll changes ≠ [] := by
  obtain ⟨first, ⟨line, e⟩, rfl⟩ := (List.eq_nil_or_concat changes).resolve_left hne
  have hlast : e ≠ .remove := h (line, e) (by simp)
  rw [applyAll, List.concat_eq_append, List.filterMap_append]
  refine List.append_ne_nil_of_right_ne_nil _ ?_
  cases e with
  | keep => simp [apply]
  | replace newText => simp [apply]
  | remove => exact absurd rfl hlast

/-- An edit is at the offset of its line, whatever comes behind the line. -/
theorem splice?_edit? {before : List Text} (after : List Text)
    (hlines : ∀ l ∈ before ++ [line], '\n' ∉ l)
    (hcount : before.length < positionLimit) (hlength : line.dropReturn.length < positionLimit)
    (hlast : e = .remove → after ≠ [] ∧ before.length + 1 < positionLimit) :
    (e.edit? before.length line).bind (Edit.splice? (Text.unlines (before ++ line :: after))) =
      e.splice? (Text.sizeLines before) line := by
  have hbefore : ∀ l ∈ before, '\n' ∉ l := fun l hl => hlines l (List.mem_append_left _ hl)
  have hindex : before.length % positionLimit = before.length := Nat.mod_eq_of_lt hcount
  have hstart := Position.offset?_start line after hbefore
  cases e with
  | keep => rfl
  | replace newText =>
    have hstop := Position.offset?_line after line.dropReturn.dropReturn.length hbefore
      (hlines line (by simp))
    have hcolumn : line.dropReturn.dropReturn.length < positionLimit :=
      Nat.lt_of_le_of_lt (Text.length_dropReturn_le _) hlength
    simp only [edit?, Option.bind_some, Edit.splice?, Range.wholeLine, Range.within,
      Position.ofCounts, hindex, Nat.zero_mod, Nat.mod_eq_of_lt hcolumn, hstart, hstop,
      Text.take_dropReturn, Option.bind_eq_bind, splice?, Option.pure_def]
    congr 2
    omega
  | remove =>
    obtain ⟨hne, hnext⟩ := hlast rfl
    obtain ⟨next, after, rfl⟩ := List.exists_cons_of_ne_nil hne
    have hnext : (before.length + 1) % positionLimit = (before ++ [line]).length := by
      rw [Nat.mod_eq_of_lt hnext, List.length_append]
      rfl
    have hstop := Position.offset?_start next after hlines
    rw [List.append_assoc] at hstop
    simp only [edit?, Option.bind_some, Edit.splice?, Range.lineAndBreak, Position.ofCounts, hindex,
      Nat.zero_mod, hnext, hstart, Option.bind_eq_bind, splice?, Option.pure_def]
    rw [show [line] ++ next :: after = line :: next :: after from rfl] at hstop
    rw [hstop]
    simp only [Option.bind_some, Text.sizeLines, List.map_append,
      List.sum_append, List.map_cons, List.map_nil, List.sum_cons, List.sum_nil]
    congr 2
    omega

/-- The edits of the lines of a text are at the offsets of the lines. -/
theorem filterMap_edits {before : List Text}
    (hlines : ∀ l ∈ before ++ changes.map Prod.fst, '\n' ∉ l)
    (hcount : before.length + changes.length ≤ positionLimit)
    (hlength : ∀ change ∈ changes, change.1.dropReturn.length < positionLimit)
    (hlast : KeepsLast changes) :
    (edits before.length changes).filterMap
        (Edit.splice? (Text.unlines (before ++ changes.map Prod.fst))) =
      splices (Text.sizeLines before) changes := by
  induction changes generalizing before with
  | nil => rfl
  | cons change rest ih =>
    obtain ⟨line, e⟩ := change
    rw [List.map_cons] at hlines ⊢
    rw [List.length_cons] at hcount
    have hkept : e = .remove → rest.map Prod.fst ≠ [] ∧ before.length + 1 < positionLimit := by
      rintro rfl
      have hsome : rest ≠ [] := by
        rintro rfl
        exact hlast (line, .remove) rfl rfl
      have hpos := List.length_pos_iff.2 hsome
      exact ⟨fun hnil => hsome (List.map_eq_nil_iff.1 hnil), by omega⟩
    have hfirst := splice?_edit? (rest.map Prod.fst)
      (fun l hl => hlines l (by rw [List.append_cons]; exact List.mem_append_left _ hl))
      (by omega) (hlength (line, e) (List.mem_cons_self ..)) hkept
    have hrest := @ih (before ++ [line]) (by simpa using hlines)
      (by rw [List.length_append, List.length_singleton]; omega)
      (fun change hmem => hlength change (List.mem_cons_of_mem _ hmem)) hlast.tail
    have hsize : Text.sizeLines (before ++ [line]) = Text.sizeLines before + (line.size + 1) := by
      simp [Text.sizeLines]
    rw [List.length_append, List.append_assoc, hsize] at hrest
    rw [edits, List.filterMap_append, splices, ← hfirst]
    refine congrArg₂ (· ++ ·) ?_ hrest
    cases e.edit? before.length line with
    | none => rfl
    | some edit => simp [List.filterMap_cons]; cases Edit.splice? _ edit <;> rfl

/-! ## Edits in their order -/

theorem le_start {start : Nat} : ∀ s ∈ splices start changes, start ≤ s.start := by
  induction changes generalizing start with
  | nil => intro s hs; cases hs
  | cons change rest ih =>
    obtain ⟨line, e⟩ := change
    intro s hs
    rcases List.mem_append.1 hs with hfirst | hrest
    · cases e with
      | keep => cases hfirst
      | replace | remove =>
        rw [List.mem_singleton.1 hfirst]
    · have := ih s hrest
      omega

/-- The edits of a text start one behind the other. -/
theorem splices_pairwise {start : Nat} :
    (splices start changes).Pairwise fun s s' => s.start < s'.start := by
  induction changes generalizing start with
  | nil => exact .nil
  | cons change rest ih =>
    obtain ⟨line, e⟩ := change
    refine List.pairwise_append.2 ⟨?_, ih, ?_⟩
    · cases e.splice? start line with
      | none => exact .nil
      | some s => exact List.pairwise_singleton ..
    · intro s hs s' hs'
      have hlater := le_start s' hs'
      cases e with
      | keep => cases hs
      | replace | remove =>
        rw [List.mem_singleton.1 hs]
        dsimp only
        omega

/-- They are applied from the last to the first. -/
theorem mergeSort_splices {start : Nat} :
    (splices start changes).mergeSort Splice.notAfter = (splices start changes).reverse := by
  refine Splice.mergeSort_eq ?_ (List.reverse_perm _).symm ?_
  · refine (List.pairwise_map.2 splices_pairwise).imp ?_
    intro a b hab
    exact Nat.ne_of_lt hab
  · refine List.pairwise_reverse.2 (splices_pairwise.imp ?_)
    intro a b hab
    exact Splice.notAfter_iff.2 (.inl hab)

/-- A line is edited between what stands before it and the lines behind it. -/
theorem apply_splice? (pre : Text) {after : List Text} {s : Splice}
    (hsplice : e.splice? pre.size line = some s) (hlast : e = .remove → after ≠ []) :
    s.apply (pre ++ Text.unlines (line :: after)) =
      pre ++ Text.unlines ((e.apply line).toList ++ after) := by
  cases e with
  | keep => cases hsplice
  | replace newText =>
    cases hsplice
    -- the line as it is written, with what follows it
    obtain ⟨behind, hbehind⟩ : ∃ behind, ∀ l, Text.unlines (l :: after) = l ++ behind := by
      cases after with
      | nil => exact ⟨[], fun l => by rw [Text.unlines_singleton, List.append_nil]⟩
      | cons l' after => exact ⟨_, fun l => Text.unlines_cons_cons l l' after⟩
    have hcut := Text.splice_apply pre line.dropReturn.dropReturn (line.endings ++ behind) newText
    rw [← List.append_assoc line.dropReturn.dropReturn, Text.dropReturn_append_endings,
      ← hbehind] at hcut
    rw [hcut, apply, Option.toList_some, List.singleton_append, hbehind, List.append_assoc]
  | remove =>
    cases hsplice
    have hcut := Text.splice_apply pre (line ++ ['\n']) (Text.unlines after) []
    rw [Text.size_append, show Text.size ['\n'] = 1 from rfl] at hcut
    rw [Text.unlines_cons line (hlast rfl)]
    exact hcut

/-- One edit after the other, from the last line to the first, behind what stands
    before the lines. -/
theorem foldr_splices (pre : Text) (hne : changes ≠ []) (hlast : KeepsLast changes) :
    (splices pre.size changes).foldr Splice.apply (pre ++ Text.unlines (changes.map Prod.fst)) =
      pre ++ Text.unlines (applyAll changes) := by
  induction changes generalizing pre with
  | nil => exact absurd rfl hne
  | cons change rest ih =>
    obtain ⟨line, e⟩ := change
    -- the lines behind this one have been edited already
    have hbehind : (splices (pre.size + (line.size + 1)) rest).foldr Splice.apply
        (pre ++ Text.unlines (line :: rest.map Prod.fst)) =
          pre ++ Text.unlines (line :: applyAll rest) := by
      by_cases hrest : rest = []
      · subst hrest
        rfl
      · have hafter := ih (pre ++ (line ++ ['\n'])) hrest hlast.tail
        rw [Text.unlines_cons line (fun h => hrest (List.map_eq_nil_iff.1 h)),
          Text.unlines_cons line (applyAll_ne_nil hrest hlast.tail),
          ← List.append_assoc pre (line ++ ['\n']), ← List.append_assoc pre (line ++ ['\n'])]
        rwa [Text.size_append, Text.size_append, show Text.size ['\n'] = 1 from rfl] at hafter
    rw [List.map_cons, splices, List.foldr_append, hbehind, applyAll_cons]
    cases hsplice : e.splice? pre.size line with
    | none =>
      cases e with
      | keep => rfl
      | replace | remove => cases hsplice
    | some s =>
      refine apply_splice? pre hsplice ?_
      rintro rfl
      refine applyAll_ne_nil ?_ hlast.tail
      rintro rfl
      exact hlast (line, .remove) rfl rfl

end LineEdit

/-- The text after edits of its lines. -/
theorem Text.applyEdits_lines {t : Text} {changes : List (Text × LineEdit)}
    (hlines : t.lines = changes.map Prod.fst) (hcount : t.lines.length ≤ positionLimit)
    (hlength : ∀ line ∈ t.lines, line.dropReturn.length < positionLimit)
    (hlast : LineEdit.KeepsLast changes) :
    t.applyEdits (LineEdit.edits 0 changes) = Text.unlines (LineEdit.applyAll changes) := by
  have hcount' : changes.length ≤ positionLimit := by rwa [hlines, List.length_map] at hcount
  have hlength' : ∀ change ∈ changes, change.1.dropReturn.length < positionLimit :=
    fun change hchange => hlength change.1 (hlines ▸ List.mem_map_of_mem hchange)
  have hne : changes ≠ [] := by
    rintro rfl
    exact Text.lines_ne_nil t hlines
  have htext : t = Text.unlines (changes.map Prod.fst) := by rw [← hlines, Text.unlines_lines]
  have hfeed : ∀ l ∈ [] ++ changes.map Prod.fst, '\n' ∉ l := by
    intro l hl
    rw [List.nil_append, ← hlines] at hl
    exact Text.not_mem_of_mem_lines hl
  have hsplices := LineEdit.filterMap_edits hfeed (by rw [List.length_nil]; omega) hlength' hlast
  have hfold := LineEdit.foldr_splices [] hne hlast
  rw [List.nil_append, ← htext] at hsplices
  rw [← htext] at hfold
  rw [Text.applyEdits,
    show LineEdit.edits 0 changes = LineEdit.edits ([] : List Text).length changes from rfl,
    hsplices, LineEdit.mergeSort_splices, List.foldl_reverse]
  exact hfold

/-- The lines of the text after edits that bring no line break. -/
theorem Text.lines_applyEdits {t : Text} {changes : List (Text × LineEdit)}
    (hlines : t.lines = changes.map Prod.fst) (hcount : t.lines.length ≤ positionLimit)
    (hlength : ∀ line ∈ t.lines, line.dropReturn.length < positionLimit)
    (hlast : LineEdit.KeepsLast changes)
    (hfeed : ∀ line ∈ LineEdit.applyAll changes, '\n' ∉ line) :
    (t.applyEdits (LineEdit.edits 0 changes)).lines = LineEdit.applyAll changes := by
  have hne : changes ≠ [] := by
    rintro rfl
    exact Text.lines_ne_nil t hlines
  rw [applyEdits_lines hlines hcount hlength hlast,
    lines_unlines (LineEdit.applyAll_ne_nil hne hlast) hfeed]

/-! ## One edit after the other -/

/-- The change that an edit makes. -/
def Edit.change (e : Edit) : Change := ⟨some e.range, e.newText⟩

/-- Lines are put behind other lines. -/
theorem Text.unlines_append (before : List Text) {rest : List Text} (hne : rest ≠ []) :
    unlines (before ++ rest) = before.flatMap (· ++ ['\n']) ++ unlines rest := by
  induction before with
  | nil => rfl
  | cons l before ih =>
    rw [List.cons_append, unlines_cons l (List.append_ne_nil_of_right_ne_nil before hne), ih,
      List.flatMap_cons, List.append_assoc _ _ (unlines rest)]

theorem Text.size_flatMap (before : List Text) :
    size (before.flatMap (· ++ ['\n'])) = sizeLines before := by
  induction before with
  | nil => rfl
  | cons l before ih =>
    rw [List.flatMap_cons, size_append, size_append, ih]
    rfl

/-- A change does what the edit does at its offsets. -/
theorem Edit.applyChange_of_splice? {t : Text} {e : Edit} {s : Splice} (h : e.splice? t = some s) :
    t.applyChange e.change = s.apply t := by
  simp only [Edit.splice?, Option.bind_eq_bind, Option.bind_eq_some_iff, Option.pure_def,
    Option.some.injEq] at h
  obtain ⟨start, hstart, stop, hstop, rfl⟩ := h
  simp only [Text.applyChange, Edit.change, hstart, hstop, Option.getD_some]

namespace LineEdit

variable {line : Text} {e : LineEdit} {changes : List (Text × LineEdit)}

/-- The edit of a line does the same when the lines behind it have been edited already,
    whatever these are now. -/
theorem applyChange_edit? {before after : List Text} {edit : Edit}
    (hedit : e.edit? before.length line = some edit) (hlines : ∀ l ∈ before ++ [line], '\n' ∉ l)
    (hcount : before.length + 1 < positionLimit) (hlength : line.dropReturn.length < positionLimit)
    (hlast : e = .remove → after ≠ []) :
    Text.applyChange (Text.unlines (before ++ line :: after)) edit.change =
      Text.unlines (before ++ ((e.apply line).toList ++ after)) := by
  have hsplice := splice?_edit? after hlines (Nat.lt_of_succ_lt hcount) hlength
    fun he => ⟨hlast he, hcount⟩
  have hne : (e.apply line).toList ++ after ≠ [] := by
    cases e with
    | keep => exact List.cons_ne_nil _ _
    | replace => exact List.cons_ne_nil _ _
    | remove => exact hlast rfl
  obtain ⟨s, hs⟩ : ∃ s, e.splice? (Text.sizeLines before) line = some s := by
    cases e with
    | keep => cases hedit
    | replace | remove => exact ⟨_, rfl⟩
  rw [hedit, hs, Option.bind_some] at hsplice
  rw [← Text.size_flatMap] at hs
  rw [Edit.applyChange_of_splice? hsplice, Text.unlines_append before (List.cons_ne_nil _ _),
    Text.unlines_append before hne]
  exact apply_splice? _ hs hlast

/-- The edits of lines, reported one by one from the last to the first. -/
theorem foldr_edits (before : List Text)
    (hlines : ∀ l ∈ before ++ changes.map Prod.fst, '\n' ∉ l)
    (hcount : before.length + changes.length < positionLimit)
    (hlength : ∀ change ∈ changes, change.1.dropReturn.length < positionLimit)
    (hlast : KeepsLast changes) :
    (edits before.length changes).foldr (fun edit t => t.applyChange edit.change)
        (Text.unlines (before ++ changes.map Prod.fst)) =
      Text.unlines (before ++ applyAll changes) := by
  induction changes generalizing before with
  | nil => rfl
  | cons change rest ih =>
    obtain ⟨line, e⟩ := change
    rw [List.map_cons] at hlines ⊢
    rw [List.length_cons] at hcount
    have hrest := ih (before ++ [line]) (by simpa using hlines)
      (by rw [List.length_append, List.length_singleton]; omega)
      (fun change hmem => hlength change (List.mem_cons_of_mem _ hmem)) hlast.tail
    rw [List.length_append, List.length_singleton, List.append_assoc, List.singleton_append,
      List.append_assoc, List.singleton_append] at hrest
    rw [edits, List.foldr_append, hrest, applyAll_cons]
    cases hedit : e.edit? before.length line with
    | none =>
      cases e with
      | keep => rfl
      | replace | remove => cases hedit
    | some edit =>
      refine applyChange_edit? hedit
        (fun l hl => hlines l (by rw [List.append_cons]; exact List.mem_append_left _ hl))
        (by omega) (hlength (line, e) (List.mem_cons_self ..)) ?_
      rintro rfl
      refine applyAll_ne_nil ?_ hlast.tail
      rintro rfl
      exact hlast (line, .remove) rfl rfl

end LineEdit

/-! ## The ranges of edits -/

/-- An edit of an earlier line, with a range that ends before the other one begins. -/
def Edit.Before (e e' : Edit) : Prop :=
  e.range.start.line < e'.range.start.line ∧
    (e.range.stop.line < e'.range.start.line ∨
      e.range.stop.line = e'.range.start.line ∧ e.range.stop.character ≤ e'.range.start.character)

/-- The range of the edit is one of the lines without its line break, or one of the lines
    with its line break, which then goes. -/
def Edit.CoversLine (lines : List Text) (e : Edit) : Prop :=
  ∃ i line, lines[i]? = some line ∧
    (e.range = ⟨⟨i, 0⟩, ⟨i, line.dropReturn.length⟩⟩ ∨
      e.range = ⟨⟨i, 0⟩, ⟨i + 1, 0⟩⟩ ∧ e.newText = [] ∧ i + 1 < lines.length)

/-- What is left of the line at an index: it goes with an edit that ends on a later line,
    otherwise its text is replaced and its carriage return stays. -/
def Edit.replaced (edits : List Edit) (index : Nat) (line : Text) : Option Text :=
  match edits.find? fun e => e.range.start.line == index with
  | none => some line
  | some e => if e.range.stop.line = index then some (e.newText ++ line.ending) else none

/-- A text of which the lines are replaced or dropped where they stand. -/
def Text.replaceLines (edits : List Edit) (t : Text) : Text :=
  unlines (t.lines.zipIdx.filterMap fun (line, index) => Edit.replaced edits index line)

namespace LineEdit

variable {line : Text} {e : LineEdit} {changes : List (Text × LineEdit)} {index : Nat} {edit : Edit}

/-- The range of the edit of a line. -/
theorem range_edit? (hedit : e.edit? index line = some edit) (hindex : index + 1 < positionLimit)
    (hlength : line.dropReturn.length < positionLimit) :
    edit.range.start = ⟨index, 0⟩ ∧
      (e = .replace edit.newText ∧ edit.range.stop = ⟨index, line.dropReturn.dropReturn.length⟩ ∨
        e = .remove ∧ edit.newText = [] ∧ edit.range.stop = ⟨index + 1, 0⟩) := by
  have hmod : index % positionLimit = index := Nat.mod_eq_of_lt (by omega)
  have hcolumn : line.dropReturn.dropReturn.length % positionLimit =
      line.dropReturn.dropReturn.length :=
    Nat.mod_eq_of_lt (Nat.lt_of_le_of_lt (Text.length_dropReturn_le _) hlength)
  have hzero : 0 % positionLimit = 0 := rfl
  cases e with
  | keep => cases hedit
  | replace newText =>
    cases hedit
    simp only [Range.wholeLine, Range.within, Position.ofCounts, hmod, hzero, hcolumn]
    exact ⟨trivial, .inl ⟨trivial, trivial⟩⟩
  | remove =>
    cases hedit
    simp only [Range.lineAndBreak, Position.ofCounts, hmod, hzero, Nat.mod_eq_of_lt hindex]
    exact ⟨trivial, .inr ⟨trivial, trivial, trivial⟩⟩

theorem mem_edits (h : edit ∈ edits index changes) :
    ∃ i line, ∃ e : LineEdit, changes[i]? = some (line, e) ∧
      e.edit? (index + i) line = some edit := by
  induction changes generalizing index with
  | nil => cases h
  | cons change rest ih =>
    obtain ⟨line, e⟩ := change
    rcases List.mem_append.1 h with hfirst | hrest
    · exact ⟨0, line, e, rfl, Option.mem_toList.1 hfirst⟩
    · obtain ⟨i, line', e', hget, hedit⟩ := ih hrest
      exact ⟨i + 1, line', e', hget, by rwa [Nat.add_assoc, Nat.add_comm 1] at hedit⟩

section

variable (hcount : index + changes.length < positionLimit)
  (hlength : ∀ change ∈ changes, change.1.dropReturn.length < positionLimit)

include hcount hlength

/-- The line of an edit. -/
theorem start_of_mem_edits (h : edit ∈ edits index changes) : index ≤ edit.range.start.line := by
  obtain ⟨i, line, e, hget, hedit⟩ := mem_edits h
  obtain ⟨hi, -⟩ := List.getElem?_eq_some_iff.1 hget
  have hstart := (range_edit? hedit (by omega) (hlength _ (List.mem_of_getElem? hget))).1
  rw [hstart]
  exact Nat.le_add_right index i

/-- No line before them has an edit among them. -/
theorem find?_edits_of_lt {i : Nat} (hi : i < index) :
    ((edits index changes).find? fun edit => edit.range.start.line == i) = none := by
  refine List.find?_eq_none.2 fun edit hedit => ?_
  have hstart := start_of_mem_edits hcount hlength hedit
  rw [beq_iff_eq]
  omega

/-- There is one edit for a line at most, and no two of them overlap. -/
theorem pairwise_edits : (edits index changes).Pairwise Edit.Before := by
  induction changes generalizing index with
  | nil => exact .nil
  | cons change rest ih =>
    obtain ⟨line, e⟩ := change
    rw [List.length_cons] at hcount
    have hlength' : ∀ change ∈ rest, change.1.dropReturn.length < positionLimit :=
      fun change hchange => hlength change (List.mem_cons_of_mem _ hchange)
    refine List.pairwise_append.2 ⟨?_, ih (by omega) hlength', ?_⟩
    · cases e.edit? index line with
      | none => exact .nil
      | some s => exact List.pairwise_singleton ..
    · intro edit hedit edit' hedit'
      have hlater : index + 1 ≤ edit'.range.start.line :=
        start_of_mem_edits (by omega) hlength' hedit'
      obtain ⟨hstart, hstop⟩ := range_edit? (Option.mem_toList.1 hedit) (by omega)
        (hlength (line, e) (List.mem_cons_self ..))
      rw [Edit.Before, hstart]
      rcases hstop with ⟨-, hstop⟩ | ⟨-, -, hstop⟩ <;> rw [hstop] <;> dsimp only <;> omega

/-- An edit covers its line. -/
theorem coversLine_of_mem_edits (hindex : index = 0)
    (hreturn : ∀ change ∈ changes, change.1.dropReturn.dropReturn = change.1.dropReturn)
    (hlast : KeepsLast changes) (h : edit ∈ edits index changes) :
    edit.CoversLine (changes.map Prod.fst) := by
  obtain ⟨i, line, e, hget, hedit⟩ := mem_edits h
  obtain ⟨hi, helem⟩ := List.getElem?_eq_some_iff.1 hget
  have hmem := List.mem_of_getElem? hget
  rw [hindex, Nat.zero_add] at hedit
  obtain ⟨hstart, hstop⟩ := range_edit? hedit (by omega) (hlength _ hmem)
  refine ⟨i, line, by rw [List.getElem?_map, hget]; rfl, ?_⟩
  rcases hstop with ⟨-, hstop⟩ | ⟨rfl, hnew, hstop⟩
  · rw [hreturn _ hmem] at hstop
    exact .inl (by rw [← hstart, ← hstop])
  · refine .inr ⟨by rw [← hstart, ← hstop], hnew, ?_⟩
    -- the last line is not removed
    rw [List.length_map]
    by_contra hend
    refine hlast (line, .remove) ?_ rfl
    rw [List.getLast?_eq_getElem?, show changes.length - 1 = i by omega]
    exact hget

/-- Each line is replaced or dropped where it stands. -/
theorem filterMap_replaced
    (hreturn : ∀ change ∈ changes, change.1.dropReturn.dropReturn = change.1.dropReturn) :
    ((changes.map Prod.fst).zipIdx index).filterMap
        (fun (line, i) => Edit.replaced (edits index changes) i line) = applyAll changes := by
  induction changes generalizing index with
  | nil => rfl
  | cons change rest ih =>
    obtain ⟨line, e⟩ := change
    rw [List.length_cons] at hcount
    have hline := hlength (line, e) (List.mem_cons_self ..)
    have hlength' : ∀ change ∈ rest, change.1.dropReturn.length < positionLimit :=
      fun change hchange => hlength change (List.mem_cons_of_mem _ hchange)
    have hrest := @ih (index + 1) (by omega) hlength'
      fun change hchange => hreturn change (List.mem_cons_of_mem _ hchange)
    -- the first edit is not that of a later line, and the later ones are not that of the first
    have hfirst : Edit.replaced (edits index ((line, e) :: rest)) index line = e.apply line := by
      rw [Edit.replaced, edits]
      cases hedit : e.edit? index line with
      | none =>
        cases e with
        | keep =>
          rw [Option.toList_none, List.nil_append,
            find?_edits_of_lt (by omega) hlength' (by omega)]
          rfl
        | replace | remove => cases hedit
      | some edit =>
        obtain ⟨hstart, hstop⟩ := range_edit? hedit (by omega) hline
        rw [Option.toList_some, List.singleton_append, List.find?_cons_of_pos (by simp [hstart])]
        dsimp only
        rcases hstop with ⟨rfl, hstop⟩ | ⟨rfl, -, hstop⟩
        · rw [hstop, if_pos rfl, apply, Text.endings_eq (hreturn _ (List.mem_cons_self ..))]
        · rw [hstop, if_neg (Nat.succ_ne_self index)]
          rfl
    have hlater : ∀ p ∈ (rest.map Prod.fst).zipIdx (index + 1),
        Edit.replaced (edits index ((line, e) :: rest)) p.2 p.1 =
          Edit.replaced (edits (index + 1) rest) p.2 p.1 := by
      intro p hp
      have hp := List.le_snd_of_mem_zipIdx hp
      rw [Edit.replaced, edits]
      cases hedit : e.edit? index line with
      | none => rfl
      | some edit =>
        have hstart := (range_edit? hedit (by omega) hline).1
        rw [Option.toList_some, List.singleton_append,
          List.find?_cons_of_neg (by rw [hstart]; simp; omega)]
        rfl
    rw [List.map_cons, List.zipIdx_cons, applyAll_cons, ← hrest, List.filterMap_cons]
    dsimp only
    rw [hfirst, List.filterMap_congr hlater]
    cases e.apply line <;> rfl

end

end LineEdit

end IndentedSass
