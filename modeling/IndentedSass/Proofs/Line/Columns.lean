/-
  Where the parts of a line stand.

  * `Text.StandsAt` says that a piece stands in a text at a column, `Text.Pieces` that
    several do, one behind the other;
  * `Pieces.flatMap`: pieces of pieces are pieces of the whole;
  * `splitDeclaration?_standsAt`: the value of a declaration stands at its column;
  * `MixinClause.pieces_parameters`: so do the parameters of a mixin.
-/
import Mathlib
import IndentedSass.Proofs.Line.Indented
import IndentedSass.Proofs.Text.Trailing
import IndentedSass.Reader.Clause

namespace IndentedSass

namespace Text

variable {t piece before after : Text} {column start : Nat}

/-! ## Pieces -/

/-- A piece stands in a text at a column. -/
def StandsAt (t : Text) (column : Nat) (piece : Text) : Prop :=
  ∃ before after, t = before ++ (piece ++ after) ∧ before.length = column

theorem StandsAt.le_length (h : t.StandsAt column piece) : column + piece.length ≤ t.length := by
  obtain ⟨before, after, rfl, rfl⟩ := h
  simp only [List.length_append]
  omega

theorem StandsAt.cut_eq (h : t.StandsAt column piece) :
    (t.take (column + piece.length)).drop column = piece := by
  obtain ⟨before, after, rfl, rfl⟩ := h
  rw [← List.append_assoc, ← List.length_append, List.take_left, List.drop_left]

theorem StandsAt.append (h : t.StandsAt column piece) (more : Text) :
    (t ++ more).StandsAt column piece := by
  obtain ⟨before, after, rfl, hlen⟩ := h
  exact ⟨before, after ++ more, by simp, hlen⟩

theorem StandsAt.trans (h : t.StandsAt column piece) {inner : Text} (hinner : piece.StandsAt start inner) :
    t.StandsAt (column + start) inner := by
  obtain ⟨before, after, rfl, rfl⟩ := h
  obtain ⟨before', after', rfl, rfl⟩ := hinner
  exact ⟨before ++ before', after' ++ after, by simp, by simp⟩

/-- Pieces of a text, each with its column, one behind the other. -/
structure Pieces (t : Text) (pieces : List (Text × Nat)) : Prop where
  stands : ∀ p ∈ pieces, t.StandsAt p.2 p.1
  ordered : pieces.Pairwise fun p q => p.2 + p.1.length ≤ q.2

/-- A piece of a piece, in the whole. -/
def shift (column : Nat) (p : Text × Nat) : Text × Nat := (p.1, column + p.2)

theorem Pieces.nil (t : Text) : t.Pieces [] := ⟨(fun _ h => nomatch h), .nil⟩

theorem Pieces.append (h : t.Pieces pieces) (more : Text) : (t ++ more).Pieces pieces :=
  ⟨fun p hp => (h.stands p hp).append more, h.ordered⟩

/-- A further piece at the end of the text. -/
theorem Pieces.snoc (h : t.Pieces pieces) (piece : Text) :
    (t ++ piece).Pieces (pieces ++ [(piece, t.length)]) := by
  refine ⟨fun p hp => ?_, List.pairwise_append.2 ⟨h.ordered, List.pairwise_singleton .., ?_⟩⟩
  · rcases List.mem_append.1 hp with hold | hnew
    · exact (h.stands p hold).append piece
    · rw [List.mem_singleton.1 hnew]
      exact ⟨t, [], by simp, rfl⟩
  · intro p hp q hq
    rw [List.mem_singleton.1 hq]
    exact (h.stands p hp).le_length

theorem Pieces.shift {pieces : List (Text × Nat)} (h : piece.Pieces pieces) (hpiece : t.StandsAt column piece) :
    t.Pieces (pieces.map (Text.shift column)) := by
  refine ⟨fun p hp => ?_, ?_⟩
  · obtain ⟨q, hq, rfl⟩ := List.mem_map.1 hp
    exact hpiece.trans (h.stands q hq)
  · refine List.pairwise_map.2 (h.ordered.imp fun hle => ?_)
    dsimp only [Text.shift]
    omega

/-- Pieces of pieces are pieces of the whole. -/
theorem Pieces.flatMap {outer : List (Text × Nat)} {inner : Text × Nat → List (Text × Nat)}
    (h : t.Pieces outer) (hinner : ∀ p ∈ outer, p.1.Pieces (inner p)) :
    t.Pieces (outer.flatMap fun p => (inner p).map (Text.shift p.2)) := by
  induction outer with
  | nil => exact .nil t
  | cons p rest ih =>
    obtain ⟨hfirst, hrest⟩ := List.pairwise_cons.1 h.ordered
    have hp : t.StandsAt p.2 p.1 := h.stands p List.mem_cons_self
    have hhead := (hinner p List.mem_cons_self).shift hp
    have htail := ih ⟨fun q hq => h.stands q (List.mem_cons_of_mem p hq), hrest⟩
      fun q hq => hinner q (List.mem_cons_of_mem p hq)
    rw [List.flatMap_cons]
    refine ⟨fun q hq => ?_, List.pairwise_append.2 ⟨hhead.ordered, htail.ordered, ?_⟩⟩
    · exact (List.mem_append.1 hq).elim (hhead.stands q) (htail.stands q)
    · -- a piece of the first one ends before the next one begins
      intro a ha b hb
      obtain ⟨a', ha', rfl⟩ := List.mem_map.1 ha
      obtain ⟨q, hq, hb⟩ := List.mem_flatMap.1 hb
      obtain ⟨b', -, rfl⟩ := List.mem_map.1 hb
      have hinside := ((hinner p List.mem_cons_self).stands a' ha').le_length
      have hbehind := hfirst q hq
      dsimp only [Text.shift]
      omega

end Text

/-! ## Declarations -/

/-- The value of a declaration stands at its column. -/
theorem Line.splitDeclaration?_standsAt {t : Text} {d : Line.Declaration}
    (h : Line.splitDeclaration? t = some d) : t.StandsAt d.column d.value := by
  obtain ⟨⟨before, value⟩, hsplit, rfl⟩ := Option.map_eq_some_iff.1 h
  have ht := Line.splitColon?_eq_some hsplit
  exact ⟨before ++ [':'], [], by simp [ht], by simp⟩

/-! ## Parameters of mixins -/

/-- The arguments of a list stand where their columns say, behind what stands `before` the
    current one. -/
theorem pieces_splitArguments (t : Text) : ∀ (before current : Text) (start depth : Nat) (q : Quote)
    (column : Nat), (current ≠ [] → start = before.length) → column = (before ++ current).length →
    (before ++ (current ++ t)).Pieces (splitArguments current start depth q column t) ∧
      ∀ p ∈ splitArguments current start depth q column t, before.length ≤ p.2 := by
  -- the current argument is a piece as soon as it ends
  have hpiece : ∀ before current t : Text,
      (before ++ (current ++ t)).StandsAt before.length current.trimEnd := by
    intro before current t
    obtain ⟨ws, -, hsplit⟩ := current.exists_white
    refine ⟨before, ws ++ t, ?_, rfl⟩
    rw [← List.append_assoc current.trimEnd, ← hsplit]
  induction t with
  | nil =>
    intro before current start depth q column hstart hcolumn
    unfold splitArguments
    split
    · exact ⟨.nil _, fun p hp => absurd hp List.not_mem_nil⟩
    · rename_i hvisible
      have hne : current ≠ [] := by
        rintro rfl
        exact hvisible rfl
      rw [hstart hne]
      refine ⟨⟨fun p hp => ?_, List.pairwise_singleton ..⟩, fun p hp => ?_⟩
      · rw [List.mem_singleton.1 hp]
        exact hpiece before current []
      · rw [List.mem_singleton.1 hp]
  | cons c cs ih =>
    intro before current start depth q column hstart hcolumn
    unfold splitArguments
    split
    · -- a blank before an argument
      rename_i hskip
      obtain rfl : current = [] := List.isEmpty_iff.1 (Bool.and_eq_true_iff.1 hskip).1
      obtain ⟨hpieces, hbehind⟩ := ih (before ++ [c]) [] start depth q (column + 1)
        (fun h => absurd rfl h) (by simp [hcolumn])
      refine ⟨by simpa using hpieces, fun p hp => ?_⟩
      have := hbehind p hp
      rw [List.length_append] at this
      omega
    have hbegins : (if current.isEmpty then column else start) = before.length := by
      split
      · rename_i hempty
        rw [hcolumn, List.isEmpty_iff.1 hempty, List.append_nil]
      · rename_i hempty
        exact hstart fun h => hempty (List.isEmpty_iff.2 h)
    dsimp only
    rw [hbegins]
    split
    · -- a comma ends the argument
      obtain ⟨hpieces, hbehind⟩ := ih (before ++ current ++ [c]) [] before.length depth q (column + 1)
        (fun h => absurd rfl h) (by simp [hcolumn]; omega)
      have hfirst := hpiece before current (c :: cs)
      have hlength : current.trimEnd.length ≤ current.length := by
        obtain ⟨ws, -, hsplit⟩ := current.exists_white
        conv_rhs => rw [hsplit, List.length_append]
        exact Nat.le_add_right _ _
      have hnext : ∀ p ∈ splitArguments [] before.length depth q (column + 1) cs,
          before.length + current.trimEnd.length ≤ p.2 := by
        intro p hp
        have := hbehind p hp
        simp only [List.length_append] at this
        omega
      refine ⟨⟨fun p hp => ?_, List.pairwise_cons.2 ⟨hnext, hpieces.ordered⟩⟩, fun p hp => ?_⟩
      · rcases List.mem_cons.1 hp with rfl | hp
        · exact hfirst
        · simpa using hpieces.stands p hp
      · rcases List.mem_cons.1 hp with rfl | hp
        · exact Nat.le_refl _
        · exact Nat.le_trans (Nat.le_add_right _ _) (hnext p hp)
    · obtain ⟨hpieces, hbehind⟩ := ih before (current ++ [c]) before.length (Line.parenDepth q depth c)
        (q.step .never c) (column + 1) (fun _ => rfl) (by simp [hcolumn]; omega)
      exact ⟨by simpa using hpieces, hbehind⟩

/-- The text up to the last parenthesis begins the text. -/
theorem MixinClause.exists_upToLastParen (t : Text) : ∃ after, t = upToLastParen t ++ after := by
  unfold upToLastParen
  split
  · rename_i c before hdrop
    have hsplit := List.takeWhile_append_dropWhile (p := (· ≠ ')')) (l := t.reverse)
    have ht := congrArg List.reverse hsplit
    rw [hdrop, List.reverse_append, List.reverse_reverse, List.reverse_cons, List.append_assoc] at ht
    exact ⟨_, ht.symm⟩
  · exact ⟨[], (List.append_nil t).symm⟩

/-- The parameters of a mixin stand where their columns say. -/
theorem MixinClause.pieces_parameters (line : Text) :
    line.Pieces (MixinClause.ofLine line).parameters := by
  unfold MixinClause.ofLine
  dsimp only
  generalize (if line.trimStart.startsWith "@mixin".toList then
    ((Spelling.keyword, 6) : Spelling × Nat) else (.sigil, 1)) = spelled
  split
  · rename_i paren inner hinner
    -- the line is cut five times: at its indentation, behind the keyword, before and behind the
    -- list, and at the end
    have hstart : line.takeWhile isWhite ++ line.trimStart = line := List.takeWhile_append_dropWhile
    have hkeyword := List.take_append_drop spelled.2 line.trimStart
    obtain ⟨ws, -, hend⟩ := Text.exists_white (line.trimStart.drop spelled.2)
    have hname := List.takeWhile_append_dropWhile (p := (· ≠ '('))
      (l := Text.trimEnd (line.trimStart.drop spelled.2))
    obtain ⟨after, hlist⟩ := exists_upToLastParen inner
    rw [hinner] at hname
    have hlength : (line.trimStart.take spelled.2).length = spelled.2 := by
      rw [List.length_take, Nat.min_eq_left]
      by_contra hlt
      rw [List.drop_of_length_le (by omega)] at hinner
      cases hinner
    generalize line.trimStart.take spelled.2 = keyword at hkeyword hlength
    generalize Text.trimEnd (line.trimStart.drop spelled.2) = body at hend hname ⊢
    generalize body.takeWhile (· ≠ '(') = name at hname ⊢
    generalize line.takeWhile isWhite = indent at hstart
    have hline : line = indent ++ keyword ++ name ++ [paren] ++ (upToLastParen inner ++ (after ++ ws)) := by
      conv_lhs => rw [← hstart, ← hkeyword, hend, ← hname, hlist]
      simp
    have hcolumn : line.length - line.trimStart.length + spelled.2 + name.length + 1 =
        (indent ++ keyword ++ name ++ [paren] ++ []).length := by
      have hsum := congrArg List.length hstart
      simp only [List.length_append, List.length_singleton, List.length_nil, hlength] at hsum ⊢
      omega
    obtain ⟨hpieces, -⟩ := pieces_splitArguments (upToLastParen inner)
      (indent ++ keyword ++ name ++ [paren]) [] _ 0 .outside _ (fun h => absurd rfl h) hcolumn
    have hwhole := hpieces.append (after ++ ws)
    rw [List.nil_append, List.append_assoc, ← hline] at hwhole
    exact hwhole
  · exact .nil line

end IndentedSass
