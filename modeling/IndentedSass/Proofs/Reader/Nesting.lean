/-
  Files whose lines nest properly.

  The depth of a line is its indentation in tab stops.  In a well nested file every
  line stands on a tab stop, and at most one deeper than the last line that is not
  blank if that one opens a block, at most as deep otherwise.

  * `Line.WellNested` is that condition, `Line.deepestOf` the depth that the next
    line may have;
  * `Reader.Nested` is the invariant: the open blocks down to that depth are the
    last branch of the tree, so that a line is added at its end
    (`Nested.atDepth`);
  * `Reading.readLines_nested` is the induction over the lines of such a file.
-/
import Mathlib
import IndentedSass.Proofs.Reader.Run
import IndentedSass.Proofs.Tree.Spine

namespace IndentedSass

namespace Line

/-- The depth of a line, in tab stops. -/
def depth (tab : Nat) (line : Text) : Nat := Indent.width tab line / tab

/-- A line may come where lines down to depth `deepest` may come: it is blank, or it
    stands on a tab stop that is not deeper and does not go on with a comment. -/
def NestsAt (tab : Nat) (opened : Option Nat) (deepest : Nat) (line : Text) : Prop :=
  kind tab opened line = .blank ∨
    (kind tab opened line ≠ .blockCommentContent ∧ tab ∣ Indent.width tab line ∧
      depth tab line ≤ deepest)

/-- The depth that the line after a line may have. -/
def deepestAfter (tab : Nat) (opened : Option Nat) (deepest : Nat) (line : Text) : Nat :=
  if kind tab opened line = .blank then deepest
  else if (kind tab opened line).opensBlock then depth tab line + 1 else depth tab line

/-- The lines nest properly, when the first of them may have depth `deepest`. -/
def WellNested (tab : Nat) : (deepest : Nat) → (opened : Option Nat) → List Text → Prop
  | _, _, [] => True
  | deepest, opened, line :: rest =>
    NestsAt tab opened deepest line ∧
      WellNested tab (deepestAfter tab opened deepest line) (commentAfter tab opened line) rest

/-- The depth that the line after lines may have. -/
def deepestOf (tab : Nat) : (deepest : Nat) → (opened : Option Nat) → List Text → Nat
  | deepest, _, [] => deepest
  | deepest, opened, line :: rest =>
    deepestOf tab (deepestAfter tab opened deepest line) (commentAfter tab opened line) rest

instance (tab deepest : Nat) (opened : Option Nat) (line : Text) :
    Decidable (NestsAt tab opened deepest line) := inferInstanceAs (Decidable (_ ∨ _))

instance decidableWellNested (tab : Nat) : (deepest : Nat) → (opened : Option Nat) →
    (lines : List Text) → Decidable (WellNested tab deepest opened lines)
  | _, _, [] => isTrue trivial
  | deepest, opened, line :: rest =>
    @instDecidableAnd _ _ inferInstance (decidableWellNested tab
      (deepestAfter tab opened deepest line) (commentAfter tab opened line) rest)

variable {tab deepest : Nat} {opened : Option Nat}

theorem wellNested_append {first rest : List Text} :
    WellNested tab deepest opened (first ++ rest) ↔ WellNested tab deepest opened first ∧
      WellNested tab (deepestOf tab deepest opened first)
        (first.foldl (commentAfter tab) opened) rest := by
  induction first generalizing deepest opened with
  | nil => simp [WellNested, deepestOf]
  | cons line first ih => simp [WellNested, deepestOf, ih, and_assoc]

theorem deepestOf_append (first rest : List Text) :
    deepestOf tab deepest opened (first ++ rest) =
      deepestOf tab (deepestOf tab deepest opened first)
        (first.foldl (commentAfter tab) opened) rest := by
  induction first generalizing deepest opened with
  | nil => rfl
  | cons line first ih => exact ih

theorem width_le (tab : Nat) (t : Text) : Indent.width tab t ≤ max tab 1 * t.length := by
  induction t with
  | nil => exact Nat.zero_le _
  | cons c cs ih =>
    rw [List.length_cons, Nat.mul_succ]
    simp only [Indent.width]
    split
    · omega
    · split <;> omega

theorem depth_le_length (tab : Nat) (htab : 0 < tab) (line : Text) :
    depth tab line ≤ line.length := by
  have hwidth := width_le tab line
  rw [Nat.max_eq_left htab] at hwidth
  exact Nat.div_le_of_le_mul hwidth

/-- To go down to a depth, a file needs lines of all depths above it, each as long
    as it is deep; `total` characters stood before. -/
theorem depth_mul_le {total : Nat} {lines : List Text} (htab : 0 < tab)
    (h : WellNested tab deepest opened lines) (htotal : deepest * (deepest - 1) ≤ 2 * total) :
    ∀ line ∈ lines, isBlankLine line = false →
      depth tab line * (depth tab line - 1) ≤ 2 * (total + (lines.map List.length).sum) := by
  induction lines generalizing deepest opened total with
  | nil => intro line hline; cases hline
  | cons first rest ih =>
    obtain ⟨hfirst, hrest⟩ := h
    have hlength := depth_le_length tab htab first
    -- what the lines before allow, and the length of the line, carry over to the next line
    have hstep : kind tab opened first ≠ .blank → depth tab first * (depth tab first - 1) ≤
        2 * total := by
      intro hblank
      obtain ⟨-, -, hle⟩ := hfirst.resolve_left hblank
      exact Nat.le_trans (Nat.mul_le_mul hle (Nat.sub_le_sub_right hle 1)) htotal
    have hnext : deepestAfter tab opened deepest first *
        (deepestAfter tab opened deepest first - 1) ≤ 2 * (total + first.length) := by
      unfold deepestAfter
      by_cases hblank : kind tab opened first = .blank
      · rw [if_pos hblank]
        omega
      · have hdeep := hstep hblank
        rw [if_neg hblank]
        split
        · obtain hzero | ⟨n, hn⟩ : depth tab first = 0 ∨ ∃ n, depth tab first = n + 1 := by
            cases depth tab first with
            | zero => exact .inl rfl
            | succ n => exact .inr ⟨n, rfl⟩
          · simp [hzero]
          · rw [hn, Nat.add_sub_cancel] at hdeep ⊢
            rw [hn] at hlength
            calc (n + 1 + 1) * (n + 1) = (n + 1) * n + 2 * (n + 1) := by ring
              _ ≤ 2 * total + 2 * first.length := by omega
              _ = 2 * (total + first.length) := by ring
        · omega
    intro line hline hvisible
    rw [List.map_cons, List.sum_cons, ← Nat.add_assoc]
    rcases List.mem_cons.1 hline with rfl | hmem
    · have hblank : kind tab opened line ≠ .blank := fun hk => by
        rw [kind_eq_blank_iff.1 hk] at hvisible
        cases hvisible
      have hdeep := hstep hblank
      omega
    · exact ih hrest hnext line hmem hvisible

end Line

namespace Reader

variable {find : Nat → Finder} {r r' : Reader} {uri : Uri} {style : IndentStyle}
  {done : List Text} {info : LineInfo} {line : Text} {kind : LineKind} {nodes : List Node} {d e : Nat}

/-- The open blocks down to depth `d` are the last branch of the tree. -/
structure Nested (d : Nat) (r : Reader) : Prop where
  depth : d ≤ r.scope.blocks.length
  spine : ∀ (k : Nat) block, k < d → r.scope.blocks[k]? = some block →
    block.path.length = k + 1 ∧ Tree.Spine r.nodes block.path

/-- A line is at depth `e`, and its body is on the last branch. -/
structure AtDepth (e : Nat) (info : LineInfo) (r : Reader) : Prop where
  level : r.levelOf info = e
  length : (r.target info).1.length = e
  spine : Tree.Spine r.nodes (r.target info).1

theorem nested_start : Nested 0 (start uri style) :=
  ⟨Nat.zero_le _, fun k _ hk => absurd hk (Nat.not_lt_zero k)⟩

/-- A line that stands on a tab stop is added at the end of the last branch. -/
theorem Nested.atDepth (hn : r.Nested d) (he : e ≤ d)
    (hcolumn : info.column = e * r.style.tabStop) (hlevel : info.rawLevel = e) :
    AtDepth e info r := by
  have htab := r.style.tabStop_pos
  have hdepth := hn.depth
  have hlevelOf : r.levelOf info = e := by
    rw [levelOf, hlevel]
    omega
  rcases Nat.eq_zero_or_pos e with rfl | hpos
  · have htarget : (r.target info).1 = [] := by
      have htop : info.column < r.style.tabStop ∨ r.scope.blocks.length = 0 := by omega
      simp only [target, if_pos htop]
    exact ⟨hlevelOf, by rw [htarget]; rfl, by rw [htarget]; exact .here⟩
  · have hmul : r.style.tabStop ≤ e * r.style.tabStop := Nat.le_mul_of_pos_left _ hpos
    have htop : ¬(info.column < r.style.tabStop ∨ r.scope.blocks.length = 0) := by omega
    have hdeep : ¬r.scope.blocks.length < info.rawLevel := by omega
    have hlt : e - 1 < r.scope.blocks.length := by omega
    have htarget : (r.target info).1 = r.scope.blocks[e - 1].path := by
      simp only [target, if_neg htop, if_neg hdeep]
      rw [hlevel, List.getElem?_eq_getElem hlt]
      rfl
    obtain ⟨hlen, hspine⟩ := hn.spine (e - 1) _ (by omega) (List.getElem?_eq_getElem hlt)
    exact ⟨hlevelOf, by rw [htarget, hlen]; omega, by rw [htarget]; exact hspine⟩

/-- The blocks above a line stay the last branch when nodes are added to its body. -/
theorem AtDepth.spine_graft (ha : AtDepth e info r) (added : List Node) {path : TreePath}
    (hp : Tree.Spine r.nodes path) (hle : path.length ≤ e) :
    Tree.Spine (r.grown info added) path := by
  rw [hp.eq_take ha.spine (by rw [ha.length]; exact hle)]
  exact (ha.spine.graft added).take _

theorem Nested.settled (hn : r.Nested d) (he : e ≤ d) (ha : AtDepth e info r) :
    (r.settled info).Nested e := by
  refine ⟨Nat.le_trans he hn.depth, fun k block hk hb => ?_⟩
  obtain ⟨hlen, hspine⟩ := hn.spine k block (by omega) hb
  exact ⟨hlen, ha.spine_graft _ hspine (by omega)⟩

theorem AtDepth.settled (ha : AtDepth e info r) : AtDepth e info (r.settled info) :=
  ⟨ha.level, ha.length, ha.spine.graft _⟩

/-- A line of a kind that opens blocks opens one. -/
theorem Step.opened (h : Step find r info line kind nodes r') (hk : kind.opensBlock = true) :
    ∃ header, Opens find r info line kind header ∧
      nodes = [.block info.index (r.levelOf info) header []] ∧
      r'.scope = (r.scope.enter (r.levelOf info) (r.slot info)).declareAll header.parameters
        info.index (r.levelOf info + 1) := by
  cases h with
  | opens _ ho => exact ⟨_, ho, rfl, rfl⟩
  | closes _ hc =>
    cases hc with
    | noColon hkind => rcases hkind with rfl | rfl <;> cases hk
    | _ => cases hk
  | keeps _ hkeeps => cases hkeeps <;> cases hk
  | declares | comments | imports | uses => cases hk

/-- The blocks that are above a line are open after it. -/
theorem Step.blocks_take (h : Step find r info line kind nodes r') (huse : r.useAllowed = true →
    r.scope.blocks = []) (k : Nat) (hk : k < r.levelOf info) :
    r'.scope.blocks[k]? = r.scope.blocks[k]? := by
  have htake : ∀ (blocks : List OpenBlock), (blocks.take (r.levelOf info))[k]? = blocks[k]? :=
    fun blocks => List.getElem?_take_of_lt hk
  cases h with
  | opens =>
    have hlen : k < (r.scope.blocks.take (r.levelOf info)).length := by
      rw [List.length_take]
      rw [levelOf] at hk ⊢
      omega
    rw [(declareAll_frame _ _ _ _).1]
    exact (List.getElem?_append_left hlen).trans (htake _)
  | closes => exact htake _
  | declares => exact htake _
  | keeps | comments => rfl
  | imports _ _ _ _ hblocks =>
    dsimp only
    rw [hblocks, htake]
  | uses _ _ hu =>
    have hlevel : r.levelOf info = 0 := by simp [levelOf, huse hu]
    omega

theorem Nested.step (hs : r.Sound) (hn : r.Nested e) (ha : AtDepth e info r)
    (h : Step find r info line kind nodes r') :
    r'.Nested (if kind.opensBlock then e + 1 else e) := by
  have hlevel := ha.level
  have hkept : ∀ k, k < e → r'.scope.blocks[k]? = r.scope.blocks[k]? :=
    fun k hk => h.blocks_take hs.use k (by omega)
  have hlength : e ≤ r'.scope.blocks.length := by
    rcases Nat.eq_zero_or_pos e with rfl | hpos
    · exact Nat.zero_le _
    · have hdepth := hn.depth
      have hget := hkept (e - 1) (by omega)
      rw [List.getElem?_eq_getElem (show e - 1 < r.scope.blocks.length by omega)] at hget
      have := (List.getElem?_eq_some_iff.1 hget).1
      omega
  have hold : ∀ (k : Nat) block, k < e → r'.scope.blocks[k]? = some block →
      block.path.length = k + 1 ∧ Tree.Spine r'.nodes block.path := by
    intro k block hk hb
    rw [hkept k hk] at hb
    obtain ⟨hlen, hspine⟩ := hn.spine k block hk hb
    rw [h.nodes_eq]
    exact ⟨hlen, ha.spine_graft nodes hspine (by omega)⟩
  by_cases hopens : kind.opensBlock = true
  · rw [if_pos hopens]
    obtain ⟨header, -, hnodes, hscope⟩ := h.opened hopens
    have hblocks : r'.scope.blocks =
        r.scope.blocks.take (r.levelOf info) ++ [⟨r.levelOf info, r.slot info⟩] := by
      rw [hscope, (declareAll_frame _ _ _ _).1]
      rfl
    have htake : (r.scope.blocks.take (r.levelOf info)).length = e := by
      rw [List.length_take, hlevel]
      exact Nat.min_eq_left hn.depth
    obtain ⟨body, hb⟩ := ha.spine.bodyAt?
    have hslot : r.slot info = (r.target info).1 ++ [body.length] := by simp [slot, hb]
    refine ⟨by rw [hblocks, List.length_append, htake]; rfl, fun k block hk hget => ?_⟩
    rcases Nat.lt_or_ge k e with hlt | hge
    · exact hold k block hlt hget
    · have hk : k = (r.scope.blocks.take (r.levelOf info)).length := by omega
      rw [hblocks, hk, List.getElem?_concat_length] at hget
      cases hget
      rw [h.nodes_eq, hnodes, hslot]
      refine ⟨by rw [List.length_append, ha.length, hk, htake]; rfl, ?_⟩
      exact ha.spine.graft_block hb []
  · rw [if_neg hopens]
    exact ⟨hlength, hold⟩

/-- The depth that the line after the next one may have. -/
theorem After.deepestOf_snoc (ha : After uri style done r) (line : Text) :
    Line.deepestOf style.tabStop 0 none (done ++ [line]) =
      if r.kindOf line = .blank then Line.deepestOf style.tabStop 0 none done
      else if (r.kindOf line).opensBlock then Line.depth style.tabStop line + 1
      else Line.depth style.tabStop line := by
  rw [Line.deepestOf_append, ha.kindOf_eq]
  rfl

/-- In a well nested file, the next line that is not blank stands on a tab stop that
    is not too deep. -/
theorem After.nests (ha : After uri style done r)
    (hnested : Line.WellNested style.tabStop 0 none (done ++ [line]))
    (hblank : r.kindOf line ≠ .blank) :
    r.kindOf line ≠ .blockCommentContent ∧ style.tabStop ∣ Indent.width style.tabStop line ∧
      Line.depth style.tabStop line ≤ Line.deepestOf style.tabStop 0 none done := by
  obtain ⟨-, hline, -⟩ := Line.wellNested_append.1 hnested
  rw [ha.kindOf_eq] at hblank ⊢
  exact hline.resolve_left hblank

end Reader

namespace Reading

variable {σ : Type} {uri : Uri} {style : IndentStyle}

/-- What holds at the start of a file, waits with its blank lines, and is kept by the
    lines added at the end of the last branch, holds after all lines of a well
    nested file. -/
theorem readLines_nested {P : List Text → Reader → Prop} (resolver : Resolver σ)
    (hstart : P [] (.start uri style))
    (hwaits : ∀ done r line, Reader.After uri style done r → P done r → r.kindOf line = .blank →
      P (done ++ [line])
        { r with openComment := none, pendingBlanks := r.pendingBlanks ++ [done.length] })
    (hsteps : ∀ files done r line nodes r', Reader.After uri style done r → P done r →
      Line.depth style.tabStop line ≤ Line.deepestOf style.tabStop 0 none done →
      r.kindOf line ≠ .blank →
      Reader.AtDepth (Line.depth style.tabStop line) (r.lineInfo done.length line) r →
      Reader.Step (resolver.find files done.length) (r.settled (r.lineInfo done.length line))
        (r.lineInfo done.length line) line (r.kindOf line) nodes r' → P (done ++ [line]) r')
    (files : σ) (lines : List Text)
    (hnested : Line.WellNested style.tabStop 0 none (lines.map Text.dropReturn))
    (hdepth : ∀ line ∈ lines.map Text.dropReturn, Line.isBlankLine line = false →
      Line.depth style.tabStop line < 2 ^ 50) :
    Reader.After uri style (lines.map Text.dropReturn)
        (readLines resolver ⟨.start uri style, files, []⟩ 0 lines).reader ∧
      P (lines.map Text.dropReturn)
        (readLines resolver ⟨.start uri style, files, []⟩ 0 lines).reader := by
  -- the conditions on the file pass to its beginnings
  have hrun := readLines_run resolver (P := fun done r =>
    Line.WellNested style.tabStop 0 none done →
      (∀ line ∈ done, Line.isBlankLine line = false → Line.depth style.tabStop line < 2 ^ 50) →
      r.Nested (Line.deepestOf style.tabStop 0 none done) ∧ P done r)
    (fun _ _ => ⟨Reader.nested_start, hstart⟩) ?_ files lines
  · exact ⟨hrun.1, (hrun.2 hnested hdepth).2⟩
  intro files done r line r' hafter hp hreads hwell hsmall
  obtain ⟨hn, hp⟩ := hp (Line.wellNested_append.1 hwell).1
    fun l hl => hsmall l (List.mem_append_left _ hl)
  rw [hafter.deepestOf_snoc]
  cases hreads with
  | waits hk =>
    rw [if_pos hk]
    exact ⟨⟨hn.depth, hn.spine⟩, hwaits done r line hafter hp hk⟩
  | goesOn _ hk =>
    have hblank : r.kindOf line ≠ .blank := by
      rw [hk]
      decide
    exact absurd hk (hafter.nests hwell hblank).1
  | steps hblank hcontent hstep =>
    obtain ⟨-, hdvd, hle⟩ := hafter.nests hwell hblank
    have hwidth : Indent.width style.tabStop line = Line.depth style.tabStop line * style.tabStop :=
      (Nat.div_mul_cancel hdvd).symm
    have hat : Reader.AtDepth (Line.depth style.tabStop line) (r.lineInfo done.length line) r := by
      refine hn.atDepth hle ?_ ?_
      · simp only [Reader.lineInfo, hafter.style_eq]
        exact hwidth
      · simp only [Reader.lineInfo, hafter.style_eq]
        have hvisible : Line.isBlankLine line = false :=
          Bool.eq_false_iff.2 fun h => hblank (Line.kind_eq_blank_iff.2 h)
        have hdepth := hsmall line (by simp) hvisible
        rw [hwidth, Indent.level_mul style.tabStop_pos (by omega)]
    rw [if_neg hblank]
    exact ⟨Reader.Nested.step (hafter.sound.settled _) (hn.settled hle hat) hat.settled hstep,
      hsteps files done r line _ r' hafter hp hle hblank hat hstep⟩

end Reading

end IndentedSass
