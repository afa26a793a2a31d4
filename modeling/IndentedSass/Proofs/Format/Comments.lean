/-
  Block comments and ignore marks in a run of the formatter.

  The formatter keeps two things in mind that protect lines: an open block comment,
  which ends at the first `*/`, and an ignore mark on the line before.  Nothing that it
  does to a line of code touches either.

  * `Line.opener` is the line whose block comment is open after some lines, and
    `Line.endsMarked` tells whether the last of them is an ignore mark, both by the texts
    of the lines alone;
  * `Format.stateBefore` is the state in which the formatter meets a line of a text;
  * `formatCode_marks`: a line of code changes neither of the two;
  * `FollowsMarks.formatLine`, `stateBefore_followsMarks`: the formatter has in mind what
    the texts of the lines say, unless an ignore mark hides a line that matters;
  * `stateBefore_inBlockComment`: so it has where there are no ignore marks.
-/
import Mathlib
import IndentedSass.Format.Document
import IndentedSass.Proofs.Line.Traits

namespace IndentedSass

namespace Line

/-- The line whose block comment is open after a line; `opened` is the one whose comment
    is open before it. -/
def openedBy (opened : Option Text) (line : Text) : Option Text :=
  match opened with
  | some first => if closesBlockComment line then none else some first
  | none => if opensBlockComment line && leavesCommentOpen line then some line else none

/-- The line whose block comment is open after some lines. -/
def opener (done : List Text) : Option Text := done.foldl openedBy none

theorem opener_snoc (done : List Text) (line : Text) :
    opener (done ++ [line]) = openedBy (opener done) line := by
  rw [opener, List.foldl_append]
  rfl

/-- Whether the last of some lines is an ignore mark, outside of block comments. -/
def endsMarked (done : List Text) : Bool :=
  match done.getLast? with
  | some last => (opener done.dropLast).isNone && isIgnoreMark last
  | none => false

theorem endsMarked_snoc (done : List Text) (line : Text) :
    endsMarked (done ++ [line]) = ((opener done).isNone && isIgnoreMark line) := by
  simp [endsMarked]

theorem openedBy_of_isIgnoreMark {line : Text} (h : isIgnoreMark line = true) :
    openedBy none line = none := by
  simp [openedBy, opensBlockComment_of_isMark h]

/-- After an ignore mark no block comment is open. -/
theorem opener_of_endsMarked {done : List Text} (h : endsMarked done = true) :
    opener done = none := by
  obtain rfl | ⟨first, last, rfl⟩ := List.eq_nil_or_concat done
  · rfl
  · rw [List.concat_eq_append] at h ⊢
    rw [endsMarked_snoc, Bool.and_eq_true, Option.isNone_iff_eq_none] at h
    rw [opener_snoc, h.1, openedBy_of_isIgnoreMark h.2]

/-- No line right behind an ignore mark is one itself or leaves a block comment open. -/
def HidesNothing (done : List Text) : Prop :=
  ∀ i : Fin done.length, endsMarked (done.take i) = true →
    isIgnoreMark done[i] = false ∧ openedBy none done[i] = none

instance (done : List Text) : Decidable (HidesNothing done) :=
  inferInstanceAs (Decidable (∀ i : Fin done.length, endsMarked (done.take i) = true →
    isIgnoreMark done[i] = false ∧ openedBy none done[i] = none))

theorem HidesNothing.snoc {done : List Text} {line : Text} (h : HidesNothing (done ++ [line])) :
    HidesNothing done ∧ (endsMarked done = true →
      isIgnoreMark line = false ∧ openedBy none line = none) := by
  refine ⟨fun i hi => ?_, fun hmarked => ?_⟩
  · have hlt : i.1 < (done ++ [line]).length := by
      rw [List.length_append]
      exact Nat.lt_add_right _ i.2
    have hold := h ⟨i.1, hlt⟩
    simp only [Fin.getElem_fin, List.getElem_append_left i.2,
      List.take_append_of_le_length (Nat.le_of_lt i.2)] at hold
    exact hold hi
  · have hlast := h ⟨done.length, by simp⟩
    simp only [Fin.getElem_fin, List.getElem_concat_length, List.take_left] at hlast
    exact hlast hmarked

theorem hidesNothing_of_noMarks {done : List Text}
    (h : ∀ line ∈ done, isIgnoreMark line = false) : HidesNothing done := by
  intro i hi
  obtain hnil | ⟨first, last, hlast⟩ := List.eq_nil_or_concat (done.take i)
  · rw [hnil] at hi
    cases hi
  · rw [hlast, List.concat_eq_append, endsMarked_snoc, Bool.and_eq_true] at hi
    have hmem : last ∈ done := List.mem_of_mem_take (i := i.1) (by rw [hlast]; simp)
    rw [h last hmem] at hi
    cases hi.2

end Line

namespace Format

variable {config : FormatConfig} {style : IndentStyle} {st : FormatState} {index : Nat}
  {line : Text} {next? : Option Text}

/-- The state in which the formatter meets the line `i` of a text. -/
def stateBefore (config : FormatConfig) (style : IndentStyle) (text : Text) (i : Nat) :
    FormatState :=
  (((results config style text).take i).getLast?.map LineResult.state).getD {}

/-! ## One line -/

/-- Two states with the same open comment and the same ignore mark. -/
def SameMarks (st st' : FormatState) : Prop :=
  st'.inBlockComment = st.inBlockComment ∧ st'.ignoreNext = st.ignoreNext

theorem trimLine_state : (trimLine config st index line).state = st := by
  unfold trimLine
  split <;> rfl

theorem formatBlank_state : (formatBlank config st index line next?).state = st := by
  unfold formatBlank
  split
  · rfl
  · split <;> rfl

theorem formatBraces_marks : SameMarks st (formatBraces config st index line next?).state := by
  unfold formatBraces
  dsimp only
  split
  · split <;> exact ⟨rfl, rfl⟩
  · exact ⟨rfl, rfl⟩

theorem formatHeader_marks (role : LineRole) :
    SameMarks st (formatHeader config style role st index line).state := by
  unfold formatHeader
  dsimp only
  split <;> exact ⟨rfl, rfl⟩

theorem formatProperty_marks (role : LineRole) :
    SameMarks st (formatProperty config style role st index line).state := by
  unfold formatProperty
  dsimp only
  -- a global variable only changes the expected columns
  have hglobal : SameMarks st (if Line.isVariable line && Indent.width style.tabStop line == 0 then
      { st with propertyColumn := 0, headerLimit := 0 } else st) := by
    split <;> exact ⟨rfl, rfl⟩
  generalize (if Line.isVariable line && Indent.width style.tabStop line == 0 then
    { st with propertyColumn := 0, headerLimit := 0 } else st) = st' at hglobal
  split <;> exact hglobal

/-- A line of code opens and closes no comment and is no ignore mark. -/
theorem formatCode_marks (config : FormatConfig) (style : IndentStyle) (st : FormatState)
    (index : Nat) (line : Text) (next? : Option Text) :
    SameMarks st (formatCode config style st index line next?).state := by
  have hrole : SameMarks st (LineRole.ofLine style.tabStop st line).2 := ⟨rfl, rfl⟩
  unfold formatCode
  dsimp only
  generalize LineRole.ofLine style.tabStop st line = p at hrole
  obtain ⟨role, st'⟩ := p
  dsimp only at hrole ⊢
  have hkeep : SameMarks st
      (if Line.isSpaceMark line then { st' with keepBlanks := true } else st') := by
    split <;> exact hrole
  generalize (if Line.isSpaceMark line then { st' with keepBlanks := true } else st') = st'' at hkeep
  have htrans : ∀ {r : FormatState}, SameMarks st'' r → SameMarks st r :=
    fun h => ⟨h.1.trans hkeep.1, h.2.trans hkeep.2⟩
  split
  · exact htrans (formatHeader_marks role)
  split
  · exact htrans (formatProperty_marks role)
  split
  · rw [formatBlank_state]
    exact hkeep
  split
  · exact htrans formatBraces_marks
  · rw [trimLine_state]
    exact hkeep

/-- The formatter has in mind what the lines so far leave open, unless a mark has hidden
    a line that matters from it. -/
def FollowsMarks (done : List Text) (st : FormatState) : Prop :=
  Line.HidesNothing done →
    st.inBlockComment = (Line.opener done).isSome ∧ st.ignoreNext = Line.endsMarked done

/-- The open comment and the ignore mark change as the text of the line tells. -/
theorem FollowsMarks.formatLine {done : List Text} (h : FollowsMarks done st) (config : FormatConfig)
    (style : IndentStyle) (index : Nat) (line : Text) (next? : Option Text) :
    FollowsMarks (done ++ [line]) (formatLine config style st index line next?).state := by
  intro hhides
  obtain ⟨hbefore, hhidden⟩ := hhides.snoc
  obtain ⟨hcomment, hignore⟩ := h hbefore
  rw [Line.opener_snoc, Line.endsMarked_snoc]
  unfold Format.formatLine
  by_cases hmarked : Line.endsMarked done = true
  · -- the line is left alone, and does not matter
    obtain ⟨hmark, hopens⟩ := hhidden hmarked
    have hnone := Line.opener_of_endsMarked hmarked
    rw [if_pos (hignore.trans hmarked), hnone, hopens, hmark, Bool.and_false]
    rw [hnone] at hcomment
    exact ⟨hcomment, rfl⟩
  rw [if_neg (by rwa [hignore])]
  rw [Bool.not_eq_true] at hmarked
  cases hopened : Line.opener done with
  | some first =>
    rw [if_pos (by rw [hcomment, hopened]; rfl), trimLine_state]
    refine ⟨?_, hignore.trans hmarked⟩
    cases hcloses : Line.closesBlockComment line <;> simp [Line.openedBy, hcloses]
  | none =>
    rw [if_neg (by rw [hcomment, hopened]; exact Bool.false_ne_true)]
    by_cases hopens : Line.opensBlockComment line = true
    · have hmark : Line.isIgnoreMark line = false := by
        refine Bool.eq_false_iff.2 fun hmark => ?_
        rw [Line.opensBlockComment_of_isMark hmark] at hopens
        cases hopens
      rw [if_pos hopens, trimLine_state, hmark]
      refine ⟨?_, hignore.trans hmarked⟩
      cases hleaves : Line.leavesCommentOpen line <;> simp [Line.openedBy, hopens, hleaves]
    have hstays : (Line.openedBy none line).isSome = false := by simp [Line.openedBy, hopens]
    rw [if_neg hopens, hstays]
    by_cases hmark : Line.isIgnoreMark line = true
    · rw [if_pos hmark, trimLine_state, hmark]
      exact ⟨by rw [hcomment, hopened]; rfl, rfl⟩
    · obtain ⟨hsame, hnext⟩ := formatCode_marks config style st index line next?
      rw [if_neg hmark, hsame, hnext, hcomment, hopened, hignore, hmarked, Bool.eq_false_iff.2 hmark]
      exact ⟨rfl, rfl⟩

/-! ## A run -/

theorem formatLines_followsMarks (config : FormatConfig) (style : IndentStyle) {lines : List Text} :
    ∀ (done : List Text) (st : FormatState) (index : Nat), FollowsMarks done st →
      ∀ i ≤ lines.length, FollowsMarks (done ++ lines.take i)
        ((((formatLines config style st index lines).take i).getLast?.map
          LineResult.state).getD st) := by
  induction lines with
  | nil =>
    intro done st index hst i _
    simpa [formatLines] using hst
  | cons line rest ih =>
    intro done st index hst i hi
    cases i with
    | zero => simpa using hst
    | succ i =>
      have hrest := ih (done ++ [line]) _ (index + 1)
        (hst.formatLine config style index line rest.head?) i (Nat.le_of_succ_le_succ hi)
      rw [List.append_assoc, List.singleton_append] at hrest
      rw [formatLines, List.take_succ_cons, List.take_succ_cons, List.getLast?_cons]
      cases hlast : ((formatLines config style (Format.formatLine config style st index line
        rest.head?).state (index + 1) rest).take i).getLast? with
      | none => rwa [hlast] at hrest
      | some last => rwa [hlast] at hrest

theorem followsMarks_start : FollowsMarks [] {} := fun _ => ⟨rfl, rfl⟩

/-- In the state before a line the formatter has in mind what the lines before it leave
    open. -/
theorem stateBefore_followsMarks (style : IndentStyle) {text : Text} {i : Nat}
    (henabled : config.enabled = true) (hi : i ≤ (text.lines.map Text.dropReturn).length) :
    FollowsMarks ((text.lines.map Text.dropReturn).take i) (stateBefore config style text i) := by
  rw [stateBefore, results, if_pos henabled]
  exact formatLines_followsMarks config style [] {} 0 followsMarks_start i hi

/-- Where no line is an ignore mark, a block comment is open before a line when the lines
    before it left one open. -/
theorem stateBefore_inBlockComment (style : IndentStyle) {text : Text} {i : Nat}
    (henabled : config.enabled = true)
    (hmarks : ∀ line ∈ text.lines.map Text.dropReturn, Line.isIgnoreMark line = false)
    (hi : i ≤ (text.lines.map Text.dropReturn).length) :
    (stateBefore config style text i).inBlockComment =
      (Line.opener ((text.lines.map Text.dropReturn).take i)).isSome := by
  refine (stateBefore_followsMarks style henabled hi ?_).1
  exact Line.hidesNothing_of_noMarks fun line hline => hmarks line (List.mem_of_mem_take hline)

end Format

end IndentedSass
