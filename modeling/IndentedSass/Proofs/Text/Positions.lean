/-
  Positions and byte offsets.

  Lines and columns count characters, offsets count bytes.  A position stands for what is
  before it in the text, which is a beginning of the text; its offset is the size of that
  beginning.

  * `Text.IsBoundary` are the offsets between two characters (`IsBoundary.exists_cut`: two of
    them cut the text in three);
  * `Position.before` is the beginning of a text up to a position: `offset?_before`,
    `prefix_of_before`, and `before_mono` for a later position;
  * `Position.offset?_eq_none_iff`: the positions that have no offset;
  * `Position.behind` is the position behind a beginning of a text (`offset?_behind`);
  * `Position.offset?_resolves`: offsets are ordered as the positions are, every offset has a
    position, and a change of any range is a change between two offsets.
-/
import Mathlib
import IndentedSass.Proofs.Text.LineEdits

namespace IndentedSass

namespace Text

variable {t : Text} {a b n : Nat}

/-! ## Offsets between characters -/

/-- An offset that is not inside a character, nor behind the text. -/
def IsBoundary (t : Text) (n : Nat) : Prop := ∃ pre : Text, pre <+: t ∧ pre.size = n

theorem isBoundary_size (t : Text) : t.IsBoundary t.size := ⟨t, List.prefix_rfl, rfl⟩

theorem size_mono {pre : Text} (h : pre <+: t) : pre.size ≤ t.size := by
  obtain ⟨post, rfl⟩ := h
  rw [size_append]
  exact Nat.le_add_right ..

theorem IsBoundary.le_size (h : t.IsBoundary n) : n ≤ t.size := by
  obtain ⟨pre, hpre, rfl⟩ := h
  exact size_mono hpre

/-- Of two beginnings of a text the one that is not larger is a beginning of the other. -/
theorem prefix_of_size_le {s pre : Text} (hs : s <+: t) (hpre : pre <+: t)
    (hle : s.size ≤ pre.size) : s <+: pre := by
  rcases List.prefix_or_prefix_of_prefix hs hpre with h | ⟨rest, rfl⟩
  · exact h
  · -- they have the same size, so nothing is between them
    have hpos := length_le_size rest
    rw [size_append] at hle
    rw [List.eq_nil_of_length_eq_zero (show rest.length = 0 by omega), List.append_nil]

theorem IsBoundary.max (ha : t.IsBoundary a) (hb : t.IsBoundary b) : t.IsBoundary (max a b) := by
  rcases max_choice a b with h | h <;> rw [h] <;> assumption

/-- Two boundaries cut the text in three parts. -/
theorem IsBoundary.exists_cut (ha : t.IsBoundary a) (hb : t.IsBoundary b) (hle : a ≤ b) :
    ∃ pre mid post, t = pre ++ (mid ++ post) ∧ pre.size = a ∧ pre.size + mid.size = b := by
  obtain ⟨pre, hpre, rfl⟩ := ha
  obtain ⟨whole, hwhole, rfl⟩ := hb
  obtain ⟨mid, rfl⟩ := prefix_of_size_le hpre hwhole hle
  obtain ⟨post, rfl⟩ := hwhole
  exact ⟨pre, mid, post, List.append_assoc .., rfl, (size_append ..).symm⟩

/-- A boundary of a text is one of the text that follows a beginning of it. -/
theorem IsBoundary.of_append {pre : Text} (h : (pre ++ t).IsBoundary n) (hle : pre.size ≤ n) :
    t.IsBoundary (n - pre.size) := by
  obtain ⟨whole, hwhole, rfl⟩ := h
  obtain ⟨mid, rfl⟩ := prefix_of_size_le (List.prefix_append pre t) hwhole hle
  refine ⟨mid, (List.prefix_append_right_inj pre).1 hwhole, ?_⟩
  rw [size_append]
  omega

/-- What is a boundary of a text depends on the text before it only. -/
theorem IsBoundary.congr {pre s : Text} (h : (pre ++ t).IsBoundary n) (hle : n ≤ pre.size) :
    (pre ++ s).IsBoundary n := by
  obtain ⟨start, hstart, rfl⟩ := h
  have hpre := prefix_of_size_le hstart (List.prefix_append pre t) hle
  exact ⟨start, hpre.trans (List.prefix_append pre s), rfl⟩

/-! ## The lines before a line -/

/-- The text before a line: the lines before it, each with its line feed. -/
def linesBefore (t : Text) (n : Nat) : Text := (t.lines.take n).flatMap (· ++ ['\n'])

theorem linesBefore_mono (t : Text) {m n : Nat} (h : m ≤ n) :
    t.linesBefore m <+: t.linesBefore n := by
  obtain ⟨more, hmore⟩ := List.take_prefix_take_left (l := t.lines) h
  rw [linesBefore, linesBefore, ← hmore, List.flatMap_append]
  exact List.prefix_append ..

theorem linesBefore_succ {line : Text} (h : t.lines[n]? = some line) :
    t.linesBefore (n + 1) = t.linesBefore n ++ (line ++ ['\n']) := by
  rw [linesBefore, List.take_add_one, h, List.flatMap_append]
  simp [linesBefore]

/-- A text around one of its lines. -/
theorem exists_line (h : n < t.lines.length) :
    ∃ line after, t.lines[n]? = some line ∧ t.lines = t.lines.take n ++ line :: after ∧
      t = t.linesBefore n ++ unlines (line :: after) := by
  refine ⟨t.lines[n], t.lines.drop (n + 1), List.getElem?_eq_getElem h, ?_, ?_⟩
  · rw [List.getElem_cons_drop, List.take_append_drop]
  · rw [List.getElem_cons_drop, linesBefore, ← unlines_append, List.take_append_drop, unlines_lines]
    simpa using h

theorem prefix_unlines (line : Text) (after : List Text) : line <+: unlines (line :: after) := by
  cases after with
  | nil => rw [unlines_singleton]
  | cons l after => exact ⟨_, (unlines_cons_cons line l after).symm⟩

/-- The lines of a text that begins inside a line. -/
theorem lines_append_of_not_mem {s tail : Text} {after : List Text} (h : '\n' ∉ s)
    (ht : t.lines = tail :: after) : (s ++ t).lines = (s ++ tail) :: after := by
  induction s with
  | nil => exact ht
  | cons c s ih =>
    have hrest := ih fun hmem => h (List.mem_cons_of_mem c hmem)
    obtain ⟨piece, pieces, hsplit, hcons⟩ := splitOn_cons '\n' c (s ++ t)
    rw [lines, hsplit, List.cons.injEq] at hrest
    have hc : c ≠ '\n' := fun hc => h (hc ▸ List.mem_cons_self ..)
    rw [List.cons_append, lines, hcons, if_neg hc, hrest.1, hrest.2]
    rfl

end Text

/-! ## What is before a position -/

/-- Positions come in the order of their lines, and on one line in that of their columns. -/
instance : LE Position :=
  ⟨fun p q => p.line < q.line ∨ p.line = q.line ∧ p.character ≤ q.character⟩

namespace Position

variable {t : Text} {p q : Position}

theorem le_def : p ≤ q ↔ p.line < q.line ∨ p.line = q.line ∧ p.character ≤ q.character := Iff.rfl

/-- The beginning of a text up to a position: its line is cut at the column, before the
    carriage return that may end it. -/
def before (t : Text) (p : Position) : Text :=
  t.linesBefore p.line ++ ((t.lines[p.line]?).getD []).dropReturn.take p.character

theorem lineStart?_eq_none_iff {n : Nat} : lineStart? n t = none ↔ t.lines.length ≤ n := by
  induction n generalizing t with
  | zero =>
    have hpos := List.length_pos_iff.2 t.lines_ne_nil
    simp only [lineStart?, reduceCtorEq, false_iff]
    omega
  | succ n ih =>
    rw [lineStart?]
    cases hrest : t.dropWhile (· ≠ '\n') with
    | nil =>
      -- there is one line
      have hfeed : '\n' ∉ t := by simpa using List.dropWhile_eq_nil_iff.1 hrest '\n'
      simp [Text.lines_of_not_mem hfeed]
    | cons c rest =>
      have hc : c = '\n' := by
        have hhead := List.head?_dropWhile_not (· ≠ '\n') t
        rw [hrest] at hhead
        simpa using hhead
      have hsplit := List.takeWhile_append_dropWhile (p := (· ≠ '\n')) (l := t)
      have hfeed : '\n' ∉ t.takeWhile (· ≠ '\n') := fun hmem => by
        simpa using List.mem_takeWhile_imp hmem
      rw [hrest, hc] at hsplit
      conv_rhs => rw [← hsplit, Text.lines_append_feed, Text.lines_of_not_mem hfeed]
      dsimp only
      rw [Option.map_eq_none_iff, ih]
      simp

/-- A position has no offset when its line is past the end of the text. -/
theorem offset?_eq_none_iff : p.offset? t = none ↔ t.lines.length ≤ p.line := by
  rw [offset?, Option.map_eq_none_iff, lineStart?_eq_none_iff]

/-- The offset of a position is the size of what is before it. -/
theorem offset?_before (h : p.line < t.lines.length) :
    p.offset? t = some (p.before t).size := by
  obtain ⟨line, after, hline, hlines, -⟩ := Text.exists_line h
  have hfeed : ∀ l ∈ t.lines, '\n' ∉ l := fun l hl => Text.not_mem_of_mem_lines hl
  have hlength : (t.lines.take p.line).length = p.line := List.length_take_of_le h.le
  have hbefore : ∀ l ∈ t.lines.take p.line, '\n' ∉ l :=
    fun l hl => hfeed l (List.mem_of_mem_take hl)
  have hoffset := offset?_line after p.character hbefore (hfeed line (List.mem_of_getElem? hline))
  rw [← hlines, Text.unlines_lines, hlength] at hoffset
  rw [before, hline, Option.getD_some, Text.size_append, Text.linesBefore, Text.size_flatMap]
  exact hoffset

theorem offset?_eq_some_iff {n : Nat} :
    p.offset? t = some n ↔ p.line < t.lines.length ∧ (p.before t).size = n := by
  rcases Nat.lt_or_ge p.line t.lines.length with h | h
  · simp [offset?_before h, h]
  · simp [offset?_eq_none_iff.2 h, Nat.not_lt.2 h]

/-- A cut line is a beginning of the line. -/
theorem prefix_of_take_dropReturn (line : Text) (column : Nat) :
    line.dropReturn.take column <+: line :=
  (List.take_prefix ..).trans ⟨line.ending, line.dropReturn_append_ending⟩

/-- What is before a position does not reach the next line. -/
theorem prefix_linesBefore (h : p.line < t.lines.length) :
    p.before t <+: t.linesBefore (p.line + 1) := by
  obtain ⟨line, after, hline, -, -⟩ := Text.exists_line h
  rw [before, hline, Option.getD_some, Text.linesBefore_succ hline]
  exact (List.prefix_append_right_inj _).2
    ((prefix_of_take_dropReturn line p.character).trans (List.prefix_append ..))

/-- What is before a position is a beginning of the text. -/
theorem prefix_of_before (h : p.line < t.lines.length) : p.before t <+: t := by
  obtain ⟨line, after, hline, -, ht⟩ := Text.exists_line h
  conv_rhs => rw [ht]
  rw [before, hline, Option.getD_some]
  exact (List.prefix_append_right_inj _).2
    ((prefix_of_take_dropReturn line p.character).trans (Text.prefix_unlines line after))

/-- A later position has more before it. -/
theorem before_mono (hle : p ≤ q) (h : q.line < t.lines.length) : p.before t <+: q.before t := by
  rcases le_def.1 hle with hline | ⟨hline, hcolumn⟩
  · calc p.before t <+: t.linesBefore (p.line + 1) := prefix_linesBefore (hline.trans h)
      _ <+: t.linesBefore q.line := t.linesBefore_mono hline
      _ <+: q.before t := List.prefix_append ..
  · rw [before, before, hline]
    exact (List.prefix_append_right_inj _).2 (List.take_prefix_take_left hcolumn)

theorem isBoundary_offset? {n : Nat} (h : p.offset? t = some n) : t.IsBoundary n := by
  obtain ⟨hline, hsize⟩ := offset?_eq_some_iff.1 h
  exact ⟨p.before t, prefix_of_before hline, hsize⟩

/-! ## The position of an offset -/

/-- The position right behind a beginning of a text: its line feeds, and its characters
    after the last one. -/
def behind (pre : Text) : Position :=
  ⟨pre.count '\n', (pre.reverse.takeWhile (· ≠ '\n')).length⟩

/-- A text ends in a line that holds no line feed. -/
theorem exists_lastLine (pre : Text) :
    ∃ (above : List Text) (last : Text), (∀ l ∈ above, '\n' ∉ l) ∧ '\n' ∉ last ∧
      pre = above.flatMap (· ++ ['\n']) ++ last := by
  obtain ⟨above, last, hlines⟩ := (List.eq_nil_or_concat pre.lines).resolve_left pre.lines_ne_nil
  rw [List.concat_eq_append] at hlines
  have hfeed : ∀ l ∈ above ++ [last], '\n' ∉ l :=
    fun l hl => Text.not_mem_of_mem_lines (hlines ▸ hl)
  refine ⟨above, last, fun l hl => hfeed l (List.mem_append_left _ hl), hfeed last (by simp), ?_⟩
  rw [← Text.unlines_singleton last, ← Text.unlines_append above (List.cons_ne_nil _ _), ← hlines,
    Text.unlines_lines]

theorem count_flatMap_feed {above : List Text} (h : ∀ l ∈ above, '\n' ∉ l) :
    (above.flatMap (· ++ ['\n'])).count '\n' = above.length := by
  induction above with
  | nil => rfl
  | cons l above ih =>
    rw [List.flatMap_cons, List.count_append, List.count_append,
      List.count_eq_zero.2 (h l (List.mem_cons_self ..)),
      ih fun m hm => h m (List.mem_cons_of_mem l hm)]
    simp [Nat.add_comm]

theorem behind_lines {above : List Text} {last : Text} (habove : ∀ l ∈ above, '\n' ∉ l)
    (hlast : '\n' ∉ last) :
    behind (above.flatMap (· ++ ['\n']) ++ last) = ⟨above.length, last.length⟩ := by
  have hall := Text.ne_feed_of_not_mem (l := last.reverse) (by simpa using hlast)
  have hstop : (above.flatMap (· ++ ['\n'])).reverse.takeWhile (· ≠ '\n') = [] := by
    rcases List.eq_nil_or_concat above with rfl | ⟨above, l, rfl⟩
    · rfl
    · simp [List.concat_eq_append, List.flatMap_append]
  rw [behind, List.count_append, count_flatMap_feed habove, List.count_eq_zero.2 hlast, List.reverse_append,
    List.takeWhile_append_of_pos hall, hstop, List.append_nil, List.length_reverse, Nat.add_zero]

/-- A line is cut behind its beginning, except behind the carriage return that ends it. -/
theorem size_take_dropReturn_iff {last tail : Text} :
    Text.size ((last ++ tail).dropReturn.take last.length) = last.size ↔
      ¬(last.getLast? = some '\r' ∧ tail = []) := by
  rcases List.eq_nil_or_concat tail with rfl | ⟨tail, c, rfl⟩
  · rw [List.append_nil, List.take_of_length_le (Text.length_dropReturn_le last)]
    have hsplit := congrArg Text.size last.dropReturn_append_ending
    rw [Text.size_append, Text.ending] at hsplit
    split at hsplit
    · rename_i hreturn
      have hone : Text.size ['\r'] = 1 := by decide
      simp only [hreturn, and_self, not_true_eq_false, iff_false]
      omega
    · rename_i hreturn
      simp only [hreturn, false_and, not_false_eq_true, iff_true]
      rw [Text.dropReturn, if_neg hreturn]
  · -- what is cut off is in the rest of the line
    have hkept : last <+: (last ++ tail.concat c).dropReturn := by
      rw [List.concat_eq_append, ← List.append_assoc, Text.dropReturn]
      split
      · rw [List.dropLast_concat]
        exact List.prefix_append ..
      · exact (List.prefix_append ..).trans (List.prefix_append ..)
    rw [← List.prefix_iff_eq_take.1 hkept]
    simp

theorem getLast?_flatMap_feed_ne (above : List Text) :
    (above.flatMap (· ++ ['\n'])).getLast? ≠ some '\r' := by
  rcases List.eq_nil_or_concat above with rfl | ⟨above, l, rfl⟩
  · simp
  · simp [List.concat_eq_append, List.flatMap_append]

/-- The position right behind a beginning of a text has its size as offset, except right
    behind the carriage return that ends a line. -/
theorem offset?_behind (pre post : Text) :
    (behind pre).offset? (pre ++ post) = some pre.size ↔
      ¬(pre.getLast? = some '\r' ∧ ∀ c ∈ post.head?, c = '\n') := by
  obtain ⟨above, last, habove, hlast, rfl⟩ := exists_lastLine pre
  obtain ⟨tail, after, htail⟩ := List.exists_cons_of_ne_nil post.lines_ne_nil
  have hline := Text.lines_append_of_not_mem hlast htail
  have htext : above.flatMap (· ++ ['\n']) ++ last ++ post =
      Text.unlines (above ++ (last ++ tail) :: after) := by
    rw [Text.unlines_append above (List.cons_ne_nil _ _), ← hline, Text.unlines_lines,
      List.append_assoc]
  have hfeed : '\n' ∉ last ++ tail :=
    Text.not_mem_of_mem_lines (t := last ++ post) (hline ▸ List.mem_cons_self ..)
  have hreturn : (above.flatMap (· ++ ['\n']) ++ last).getLast? = some '\r' ↔
      last.getLast? = some '\r' := by
    cases last with
    | nil => simpa using getLast?_flatMap_feed_ne above
    | cons c last => rw [List.getLast?_append_of_ne_nil _ (List.cons_ne_nil _ _)]
  have hends : (∀ c ∈ post.head?, c = '\n') ↔ tail = [] := by
    cases post with
    | nil =>
      cases htail
      simp
    | cons c post =>
      obtain ⟨piece, pieces, -, hcons⟩ := Text.splitOn_cons '\n' c post
      rw [Text.lines, hcons] at htail
      split at htail
      all_goals
        rename_i hc
        cases htail
        simp [hc]
  rw [behind_lines habove hlast, htext, offset?_line after last.length habove hfeed,
    Text.size_append, Text.size_flatMap, Option.some.injEq, Nat.add_left_cancel_iff,
    size_take_dropReturn_iff, hreturn, hends]

end Position

/-! ## Changes -/

/-- The boundary that a position stands for in a change: the end of the text when its line is
    past the end. -/
theorem Position.isBoundary_getD (t : Text) (p : Position) :
    t.IsBoundary ((p.offset? t).getD t.size) := by
  cases hoffset : p.offset? t with
  | none => exact t.isBoundary_size
  | some n => exact isBoundary_offset? hoffset

/-- A change of a range replaces what is between two boundaries. -/
theorem Text.exists_applyChange (t : Text) (range : Range) (new : Text) :
    ∃ pre old post, t = pre ++ (old ++ post) ∧
      t.applyChange ⟨some range, new⟩ = pre ++ (new ++ post) ∧
      pre.size = (range.start.offset? t).getD t.size ∧
      pre.size + old.size = max ((range.stop.offset? t).getD t.size) pre.size := by
  have hstart := range.start.isBoundary_getD t
  have hstop := (range.stop.isBoundary_getD t).max hstart
  obtain ⟨pre, old, post, ht, hpre, hold⟩ := hstart.exists_cut hstop (le_max_right _ _)
  refine ⟨pre, old, post, ht, ?_, hpre, by rw [hold, hpre]⟩
  rw [applyChange]
  dsimp only
  rw [← hold, ← hpre]
  conv_lhs => rw [ht]
  exact splice_apply pre old post new

/-- Positions and offsets of a text.  A position that comes before one with an offset has an
    offset too, no larger one, and both are between characters.  The position behind any
    beginning of the text has the size of the beginning as its offset, except right behind a
    carriage return that ends a line.  A change of whatever range replaces what is between two
    offsets and leaves the rest. -/
theorem Position.offset?_resolves (t : Text) :
    (∀ (p q : Position) (b : Nat), p ≤ q → q.offset? t = some b →
      ∃ a, p.offset? t = some a ∧ a ≤ b ∧ b ≤ t.size ∧ t.IsBoundary a ∧ t.IsBoundary b) ∧
    (∀ pre post, t = pre ++ post →
      ((behind pre).offset? t = some pre.size ↔
        ¬(pre.getLast? = some '\r' ∧ ∀ c ∈ post.head?, c = '\n'))) ∧
    ∀ (range : Range) (new : Text), ∃ pre old post, t = pre ++ (old ++ post) ∧
      t.applyChange ⟨some range, new⟩ = pre ++ (new ++ post) ∧
      pre.size = (range.start.offset? t).getD t.size ∧
      pre.size + old.size = max ((range.stop.offset? t).getD t.size) pre.size := by
  refine ⟨fun p q b hle hq => ?_, ?_, t.exists_applyChange⟩
  · obtain ⟨hline, rfl⟩ := offset?_eq_some_iff.1 hq
    have hfirst : p.line < t.lines.length := by
      rcases le_def.1 hle with h | ⟨h, -⟩ <;> omega
    have hp := offset?_before hfirst
    exact ⟨_, hp, Text.size_mono (before_mono hle hline),
      (isBoundary_offset? hq).le_size, isBoundary_offset? hp, isBoundary_offset? hq⟩
  · rintro pre post rfl
    exact offset?_behind pre post

/-- A column past the end of its line, the start of the line behind a carriage return, and a
    range that is reversed and ends past the text. -/
theorem Position.offset?_resolves_returns :
    let t : Text := "aé\r\n\tb".toList
    (⟨0, 9⟩ : Position) ≤ ⟨1, 1⟩ ∧ (⟨1, 1⟩ : Position).offset? t = some 6 ∧
      (∃ a, (⟨0, 9⟩ : Position).offset? t = some a ∧ a ≤ 6 ∧ t.IsBoundary a) ∧
      (behind "aé\r\n".toList).offset? t = some 5 ∧
      (behind "aé\r".toList).offset? t ≠ some 4 ∧
      ∃ pre old post, t = pre ++ (old ++ post) ∧ pre.size = 7 ∧ old.size = 0 ∧
        t.applyChange ⟨some ⟨⟨7, 0⟩, ⟨0, 1⟩⟩, ['c']⟩ = pre ++ ('c' :: post) := by
  intro t
  obtain ⟨hordered, hbehind, hchange⟩ := offset?_resolves t
  have hle : (⟨0, 9⟩ : Position) ≤ ⟨1, 1⟩ := .inl (by decide)
  have hoffset : (⟨1, 1⟩ : Position).offset? t = some 6 := by decide
  obtain ⟨a, ha, hab, -, hbound, -⟩ := hordered _ _ _ hle hoffset
  have hfeed := hbehind "aé\r\n".toList "\tb".toList (by decide)
  have hreturn := hbehind "aé\r".toList "\n\tb".toList (by decide)
  obtain ⟨pre, old, post, ht, hchanged, hpre, hold⟩ := hchange ⟨⟨7, 0⟩, ⟨0, 1⟩⟩ ['c']
  have hend : ((⟨7, 0⟩ : Position).offset? t).getD t.size = 7 := by decide
  have hstop : ((⟨0, 1⟩ : Position).offset? t).getD t.size = 1 := by decide
  rw [hend] at hpre
  rw [hstop, hpre] at hold
  exact ⟨hle, hoffset, ⟨a, ha, hab, hbound⟩, hfeed.2 (by decide),
    fun h => hreturn.1 h ⟨by decide, by simp⟩, pre, old, post, ht, hpre, by omega, hchanged⟩

end IndentedSass
