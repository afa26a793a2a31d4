/-
  Lines that stand where the formatter puts them.

  A line stays where it is, or it is placed as a header or as a property.

  * `Format.treatment` tells which, `Format.destination` is the column that the line goes to;
    `advance_snd`: they decide what is written for it;
  * `Format.Agrees`: two states put a line at the same place, and write the same for it;
  * `Format.AllStand`: lines stand where they go to, one after the other; what is written for
    them are the lines (`advanceAll_of_allStand`).
-/
import Mathlib
import IndentedSass.Proofs.Format.Advance

namespace IndentedSass.Format

variable {config : FormatConfig} {style : IndentStyle} {st s : FormatState} {line : Text}

/-! ## Treatments -/

/-- What the formatter takes a line for. -/
inductive Treatment where
  /-- It stays where it is. -/
  | stays
  /-- It opens a block, or is a reset mark. -/
  | header
  /-- It goes to the column of the properties. -/
  | property
  deriving DecidableEq, Repr

/-- What the formatter takes a line for, in a state. -/
def treatment (style : IndentStyle) (st : FormatState) (line : Text) : Treatment :=
  let role := (LineRole.ofLine style.tabStop st line).1
  if st.ignoreNext || st.inBlockComment || Line.opensBlockComment line || Line.isIgnoreMark line then
    .stays
  else if role.isHeader line then .header
  else if role.isPropertyLike line then .property
  else .stays

variable (config) in
theorem advance_of_header (h : treatment style st line = .header) :
    (LineRole.ofLine style.tabStop st line).1.isHeader line = true ∧
      advance config style st line = header config style (LineRole.ofLine style.tabStop st line).1
        (codeState style st line) line := by
  unfold treatment at h
  dsimp only at h
  split_ifs at h with hstays hheader
  simp only [Bool.or_eq_true, not_or, Bool.not_eq_true] at hstays
  refine ⟨hheader, ?_⟩
  rw [advance, hstays.1.1.1, hstays.1.1.2, hstays.1.2, hstays.2]
  simp only [Bool.false_eq_true, if_false]
  exact if_pos hheader

variable (config) in
theorem advance_of_property (h : treatment style st line = .property) :
    (LineRole.ofLine style.tabStop st line).1.isPropertyLike line = true ∧
      advance config style st line = property config style (LineRole.ofLine style.tabStop st line).1
        (codeState style st line) line := by
  unfold treatment at h
  dsimp only at h
  split_ifs at h with hstays hheader hproperty
  simp only [Bool.or_eq_true, not_or, Bool.not_eq_true] at hstays
  refine ⟨hproperty, ?_⟩
  rw [advance, hstays.1.1.1, hstays.1.1.2, hstays.1.2, hstays.2]
  simp only [Bool.false_eq_true, if_false]
  exact (if_neg hheader).trans (if_pos hproperty)

/-- States that expect lines at the same columns. -/
structure SameColumns (st st' : FormatState) : Prop where
  headers : st'.headerLimit = st.headerLimit
  properties : st'.propertyColumn = st.propertyColumn
  points : st'.keyframeColumn = st.keyframeColumn

variable (config) in
/-- A line that stays leaves the columns as they are. -/
theorem advance_of_stays (h : treatment style st line = .stays) :
    SameColumns st (advance config style st line).1 ∧
      (advance config style st line).2 = if st.ignoreNext then line else trimmed config line := by
  unfold treatment at h
  dsimp only at h
  unfold advance
  by_cases hignore : st.ignoreNext = true
  · rw [if_pos hignore, if_pos hignore]
    exact ⟨⟨rfl, rfl, rfl⟩, rfl⟩
  rw [if_neg hignore, if_neg hignore]
  by_cases hcomment : st.inBlockComment = true
  · rw [if_pos hcomment]
    exact ⟨⟨rfl, rfl, rfl⟩, rfl⟩
  rw [if_neg hcomment]
  by_cases hopens : Line.opensBlockComment line = true
  · rw [if_pos hopens]
    exact ⟨⟨rfl, rfl, rfl⟩, rfl⟩
  rw [if_neg hopens]
  by_cases hmark : Line.isIgnoreMark line = true
  · rw [if_pos hmark]
    exact ⟨⟨rfl, rfl, rfl⟩, rfl⟩
  rw [if_neg hmark]
  rw [if_neg (by simp [hignore, hcomment, hopens, hmark])] at h
  split_ifs at h with hheader hproperty
  obtain ⟨hlimit, -, -, -, hpoints⟩ := codeState_frame style st line
  simp only [LineRole.isPropertyLike, Bool.or_eq_true, not_or, Bool.not_eq_true] at hproperty
  have hplain := codeState_of_isPlain hproperty.2 hproperty.1.2
  unfold advanceCode
  dsimp only
  rw [if_neg hheader, if_neg (by simp [LineRole.isPropertyLike, hproperty])]
  exact ⟨⟨hlimit, hplain, hpoints⟩, rfl⟩

/-- The column that a line goes to. -/
def destination (style : IndentStyle) (st : FormatState) (line : Text) : Nat :=
  match treatment style st line with
  | .stays => Indent.width style.tabStop line
  | .header => Indent.snapColumn style.tabStop (Indent.width style.tabStop line) st.headerLimit
      (Line.isResetMark line)
  | .property => (propertyState style (codeState style st line) line).propertyColumn

/-- What is written for a line. -/
theorem advance_snd (config : FormatConfig) (style : IndentStyle) (st : FormatState) (line : Text) :
    (advance config style st line).2 =
      if treatment style st line = .stays then if st.ignoreNext then line else trimmed config line
      else placed config style (destination style st line)
        (spaced config (LineRole.ofLine style.tabStop st line).1 line) := by
  unfold destination
  cases h : treatment style st line with
  | stays => exact (advance_of_stays config h).2
  | header =>
    obtain ⟨hheader, hadvance⟩ := advance_of_header config h
    obtain ⟨hlimit, -⟩ := codeState_frame style st line
    have hdeclaration : (LineRole.ofLine style.tabStop st line).1.isDeclaration = false := by
      simp only [LineRole.isHeader, Bool.and_eq_true, Bool.not_eq_true', Bool.or_eq_false_iff]
        at hheader
      exact hheader.1.1.1
    rw [hadvance, header, hlimit, spaced, hdeclaration]
    rfl
  | property =>
    rw [(advance_of_property config h).2]
    rfl

/-! ## Two states -/

/-- Two states put a line at the same place, and drop the same blank lines. -/
@[mk_iff] structure Agrees (style : IndentStyle) (st s : FormatState) (line : Text) : Prop where
  ignore : s.ignoreNext = st.ignoreNext
  comment : s.inBlockComment = st.inBlockComment
  blanks : s.keepBlanks = st.keepBlanks
  treatment : treatment style s line = treatment style st line
  destination : destination style s line = destination style st line

instance : Decidable (Agrees style st s line) := decidable_of_iff' _ (agrees_iff ..)

variable (config) in
theorem Agrees.advance_snd (h : Agrees style st s line) :
    (advance config style s line).2 = (advance config style st line).2 := by
  rw [Format.advance_snd, Format.advance_snd, h.treatment, h.destination, h.ignore]
  rfl

variable (config) in
theorem Agrees.drops (h : Agrees style st s line) (next? : Option Text) :
    drops config s line next? = drops config st line next? := by
  have hredundant : isRedundantBefore config s = isRedundantBefore config st := by
    funext next
    rw [isRedundantBefore, isRedundantBefore, h.blanks]
  rw [Format.drops, Format.drops, h.ignore, h.comment, hredundant]

/-! ## Lines that stand in their places -/

/-- A line without brace syntax stands where it goes to. -/
@[mk_iff] structure Stands (config : FormatConfig) (style : IndentStyle) (st : FormatState)
    (line : Text) : Prop where
  place : destination style st line = Indent.width style.tabStop line
  spaced : spaced config (LineRole.ofLine style.tabStop st line).1 line = line
  braces : Line.isBraceSyntax line false = false

instance : Decidable (Stands config style st line) := decidable_of_iff' _ (stands_iff ..)

/-- A line is written in the way that the settings ask for, wherever it stands. -/
structure Neat (config : FormatConfig) (style : IndentStyle) (line : Text) : Prop where
  trim : line.trimEnd = line
  placed : placed config style (Indent.width style.tabStop line) line = line

/-- Such a line is written as it is. -/
theorem Stands.advance_snd (h : Stands config style st line) (hneat : Neat config style line) :
    (advance config style st line).2 = line := by
  rw [Format.advance_snd, h.spaced, h.place, hneat.placed, trimmed_eq_self config hneat.trim]
  split
  · exact ite_self line
  · rfl

/-- Steps through lines: the state after them and the new lines. -/
def advanceAll (config : FormatConfig) (style : IndentStyle) :
    FormatState → List Text → FormatState × List Text
  | st, [] => (st, [])
  | st, line :: rest =>
    let (next, new) := advance config style st line
    let (last, news) := advanceAll config style next rest
    (last, new :: news)

/-- Each of the lines stands where it goes to, behind those before it. -/
def AllStand (config : FormatConfig) (style : IndentStyle) : FormatState → List Text → Prop
  | _, [] => True
  | st, line :: rest => Stands config style st line ∧
    AllStand config style (advance config style st line).1 rest

instance decidableAllStand (config : FormatConfig) (style : IndentStyle) :
    ∀ (st : FormatState) (lines : List Text), Decidable (AllStand config style st lines)
  | _, [] => inferInstanceAs (Decidable True)
  | st, line :: rest =>
    have := decidableAllStand config style (advance config style st line).1 rest
    inferInstanceAs (Decidable (_ ∧ _))

theorem AllStand.braces {lines : List Text} (h : AllStand config style st lines) :
    ∀ line ∈ lines, Line.isBraceSyntax line false = false := by
  induction lines generalizing st with
  | nil => exact fun line hline => nomatch hline
  | cons line rest ih => exact List.forall_mem_cons.2 ⟨h.1.braces, ih h.2⟩

theorem advanceAll_of_allStand {lines : List Text} (h : AllStand config style st lines)
    (hneat : ∀ line ∈ lines, Neat config style line) :
    (advanceAll config style st lines).2 = lines := by
  induction lines generalizing st with
  | nil => rfl
  | cons line rest ih =>
    obtain ⟨hline, hrest⟩ := List.forall_mem_cons.1 hneat
    exact congrArg₂ (· :: ·) (h.1.advance_snd hline) (ih h.2 hrest)

end IndentedSass.Format
