/-
  Lines that are read and written back.

  What a line is written back as does not depend on the lines around it, except for a
  `@use` that comes too late: `Line.texts` says it for the line alone, and
  `Reader.Step.shown` for the nodes that it adds to a tree, which are written at the
  indentation of its level.

  * `Line.texts_blanks`: the indentation of the line does not matter;
  * `Line.head_texts`: what is written starts with no blank;
  * `render_readDetached_line`: a line on its own is written back as this, and
    `texts_of_canonical` is the case of a line that is written back as it is.
-/
import Mathlib
import IndentedSass.Proofs.Line.Indented
import IndentedSass.Proofs.Printer.Order
import IndentedSass.Proofs.Reader.Run
import IndentedSass.Proofs.Reader.Values
import IndentedSass.Proofs.Text.Lines

namespace IndentedSass

/-- A value as it is written back. -/
def valueText (raw : Text) : Text :=
  Value.render (readValue (fun _ _ _ _ => none) ⟨0, 0, 0⟩ raw).1

theorem render_eq_valueText (lookup : Lookups) (place : ValuePlace) (raw : Text) :
    Value.render (readValue lookup place raw).1 = valueText raw :=
  render_readValue ..

/-- A declaration as it is written back. -/
def Line.Declaration.text (d : Line.Declaration) : Text := d.name ++ ':' :: valueText d.value

/-- A parameter of a mixin as it is written back. -/
def parameterText (written : Text) : Text :=
  match Line.splitDeclaration? written with
  | none => written.trim
  | some d => d.text

theorem Parameter.text_ofText (lookup : Lookups) (line level : Nat) (written : Text × Nat) :
    (Parameter.ofText lookup line level written).text = parameterText written.1 := by
  unfold Parameter.ofText parameterText
  cases Line.splitDeclaration? written.1 with
  | none => rfl
  | some d =>
    simp only [Parameter.text, render_eq_valueText]
    rfl

/-- A mixin is written by the texts of its parameters. -/
theorem Header.text_mixin {spelling : Spelling} {name : Text} {ps qs : List Parameter}
    (h : ps.map Parameter.text = qs.map Parameter.text) :
    (Header.mixin spelling name ps).text = (Header.mixin spelling name qs).text := by
  have hempty : ps.isEmpty = qs.isEmpty := by
    rw [← List.isEmpty_map (f := Parameter.text), h, List.isEmpty_map]
  unfold Header.text
  dsimp only
  rw [h, hempty]

/-- A line of a kind as it is written back, without its indentation. -/
def Line.texts (line : Text) : LineKind → List Text
  | .blank => [[]]
  | .blockCommentContent => []
  | .mixin =>
    let clause := MixinClause.ofLine line
    let parameters := (clause.parameters.map Prod.fst).map fun p => ⟨parameterText p, none⟩
    [(Header.mixin clause.spelling clause.name parameters).text]
  | .fontFace => ["@font-face".toList]
  | .property | .variableDecl =>
    match splitDeclaration? line with
    | none => [line.trim]
    | some d => [d.text]
  | .mixinCall =>
    match mixinCall line with
    | (.keyword, text) => ["@include ".toList ++ text]
    | (.sigil, text) => ['+' :: text]
  | .extendRule => ["@extend ".toList ++ extended line]
  | .importPaths =>
    match importPaths? line with
    | none | some [] => [line.trim]
    | some paths => paths.map fun path => "@import '".toList ++ path ++ ['\'']
  | .useModule =>
    match UseClause.ofLine? line with
    | none => [line.trim]
    | some clause => [useText clause.path clause.qualifier]
  | .selector | .comment | .blockCommentStart | .literal => [line.trim]

namespace Line

/-- The indentation of a line does not matter for what it is written back as. -/
theorem texts_blanks {pre : Text} (h : Blanks pre) (line : Text) (kind : LineKind) :
    texts (pre ++ line) kind = texts line kind := by
  cases kind with
  | property | variableDecl =>
    simp only [texts, splitDeclaration?_blanks h, Text.trim_blanks h]
    cases splitDeclaration? line <;> rfl
  | mixin =>
    obtain ⟨hspelling, hname, hparameters⟩ := MixinClause.ofLine_blanks h line
    simp only [texts, hspelling, hname, hparameters]
  | mixinCall => simp only [texts, mixinCall, Text.trim_blanks h]
  | extendRule => simp only [texts, extended, Text.trim_blanks h]
  | importPaths =>
    have hpaths : importPaths? (pre ++ line) = importPaths? line := by
      rw [importPaths?, Text.body_blanks h]
      rfl
    simp only [texts, hpaths, Text.trim_blanks h]
  | useModule =>
    have hclause : UseClause.ofLine? (pre ++ line) = UseClause.ofLine? line := by
      rw [UseClause.ofLine?, Text.body_blanks h]
      rfl
    simp only [texts, hclause, Text.trim_blanks h]
  | selector | comment | blockCommentStart | literal => simp only [texts, Text.trim_blanks h]
  | blank | blockCommentContent | fontFace => rfl

/-- A text that was trimmed starts with no blank. -/
theorem isBlank_head_trim {t rest : Text} {c : Char} (h : t.trim = c :: rest) :
    isBlank c = false := by
  refine Bool.eq_false_iff.2 fun hc => ?_
  have hwhite := Text.head_trim h
  rw [isWhite_of_isBlank hc] at hwhite
  cases hwhite

/-- A line is written back from its first visible character on. -/
theorem head_texts {line text : Text} {kind : LineKind} (hvisible : isBlankLine line = false)
    (hkind : kind ≠ .blank) (h : text ∈ texts line kind) :
    ∃ c rest, text = c :: rest ∧ isBlank c = false := by
  have htrim : ∃ c rest, line.trim = c :: rest ∧ isBlank c = false := by
    cases ht : line.trim with
    | nil => simp [isBlankLine, Text.isAllWhite, ht] at hvisible
    | cons c rest => exact ⟨c, rest, rfl, isBlank_head_trim ht⟩
  cases kind with
  | blank => exact absurd rfl hkind
  | blockCommentContent => cases h
  | selector | comment | blockCommentStart | literal =>
    rw [List.mem_singleton.1 h]
    exact htrim
  | fontFace | extendRule =>
    rw [List.mem_singleton.1 h]
    exact ⟨'@', _, rfl, by decide⟩
  | mixin =>
    rw [List.mem_singleton.1 h]
    dsimp only [Header.text]
    cases (MixinClause.ofLine line).spelling
    · exact ⟨'@', _, rfl, by decide⟩
    · exact ⟨'=', _, rfl, by decide⟩
  | property | variableDecl =>
    simp only [texts] at h
    cases hd : splitDeclaration? line with
    | none =>
      rw [hd] at h
      rw [List.mem_singleton.1 h]
      exact htrim
    | some d =>
      rw [hd] at h
      rw [List.mem_singleton.1 h]
      obtain ⟨⟨before, value⟩, -, rfl⟩ := Option.map_eq_some_iff.1 hd
      dsimp only [Declaration.text]
      cases hname : before.trim with
      | nil => exact ⟨':', _, rfl, by decide⟩
      | cons c rest => exact ⟨c, _, rfl, isBlank_head_trim hname⟩
  | mixinCall =>
    simp only [texts] at h
    split at h
    · rw [List.mem_singleton.1 h]
      exact ⟨'@', _, rfl, by decide⟩
    · rw [List.mem_singleton.1 h]
      exact ⟨'+', _, rfl, by decide⟩
  | importPaths =>
    simp only [texts] at h
    split at h
    · rw [List.mem_singleton.1 h]
      exact htrim
    · rw [List.mem_singleton.1 h]
      exact htrim
    · obtain ⟨path, -, rfl⟩ := List.mem_map.1 h
      exact ⟨'@', _, rfl, by decide⟩
  | useModule =>
    simp only [texts] at h
    split at h
    · rw [List.mem_singleton.1 h]
      exact htrim
    · rename_i clause _
      rw [List.mem_singleton.1 h]
      unfold useText
      cases clause.qualifier with
      | none => exact ⟨'@', _, rfl, by decide⟩
      | some name =>
        dsimp only
        split
        · exact ⟨'@', _, rfl, by decide⟩
        · exact ⟨'@', _, rfl, by decide⟩

end Line

namespace Reader

variable {find : Nat → Finder} {r r' : Reader} {info : LineInfo} {line : Text}
  {kind : LineKind} {nodes : List Node}

theorem Opens.text_eq {header : Header} (h : Opens find r info line kind header) :
    [header.text] = Line.texts line kind := by
  cases h with
  | rule => rfl
  | fontFace => rfl
  | mixin =>
    refine congrArg (fun text => [text]) (Header.text_mixin ?_)
    rw [List.map_map, List.map_map, List.map_map]
    exact List.map_congr_left fun written _ => Parameter.text_ofText ..

/-- The nodes of a line are shown as the line is written back, at its level. -/
theorem Step.shown (style : IndentStyle) (h : Step find r info line kind nodes r')
    (huse : r.useAllowed = true → r.scope.blocks = [])
    (hlate : kind = .useModule → r.useAllowed = true) :
    nodes.map (Node.shown style) = (Line.texts line kind).map
      fun text => (false, [Indent.ofLevel style (r.levelOf info) ++ text]) := by
  have hunknown : ∀ level, Line.texts line kind = [line.trim] →
      [Node.leaf info.index (.unclassified level line.trim)].map (Node.shown style) =
        (Line.texts line kind).map fun text => (false, [Indent.ofLevel style level ++ text]) := by
    intro level h
    rw [h]
    rfl
  cases h with
  | opens _ ho =>
    rw [← ho.text_eq]
    simp only [List.map_cons, List.map_nil, Node.shown, Node.isBlank_block, Node.texts]
  | closes _ hc =>
    cases hc with
    | property hd =>
      simp [Node.shown_leaf, Leaf.kind, Leaf.texts, Line.texts, hd,
        Line.Declaration.text, render_eq_valueText]
    | mixinCall =>
      simp only [Line.texts]
      cases mixinCall line with
      | mk spelling text =>
        cases spelling <;> simp [Node.shown_leaf, Leaf.kind, Leaf.texts]
    | extendRule => simp [Node.shown_leaf, Leaf.kind, Leaf.texts, Line.texts]
    | literal => exact hunknown _ rfl
    | noColon hk hd =>
      refine hunknown _ ?_
      rcases hk with rfl | rfl <;> simp only [Line.texts, hd]
    | noPaths hp =>
      refine hunknown _ ?_
      rcases hp with hp | hp <;> simp only [Line.texts, hp]
    | noModule _ hm => exact hunknown _ (by simp only [Line.texts, hm])
  | declares _ hd hv =>
    simp [Node.shown_leaf, Leaf.kind, Leaf.texts, Line.texts, hd, hv,
      Line.Declaration.text, render_eq_valueText]
  | keeps _ hk =>
    cases hk with
    | comment => rfl
    | lateUse hu =>
      rw [hlate rfl] at hu
      cases hu
  | comments => simp [Node.shown_leaf, Leaf.kind, Leaf.texts, Line.texts]
  | @imports paths targets _ _ hp hne hlen =>
    have htexts : Line.texts line .importPaths =
        paths.map fun path => "@import '".toList ++ path ++ ['\''] := by
      cases paths with
      | nil => exact absurd rfl hne
      | cons path rest => simp only [Line.texts, hp]
    rw [htexts]
    clear hp hne htexts
    induction paths generalizing targets with
    | nil => rfl
    | cons path rest ih =>
      cases targets with
      | nil => cases hlen
      | cons target targets =>
        simp only [List.zipWith_cons_cons, List.map_cons]
        rw [ih (Nat.succ.inj hlen)]
        simp [Node.shown_leaf, Leaf.kind, Leaf.texts]
  | uses _ _ hu hm =>
    have hlevel : r.levelOf info = 0 := by simp [levelOf, huse hu]
    simp [Node.shown_leaf, Leaf.kind, Leaf.texts, Line.texts, hm, hlevel]

end Reader

/-! ## Visible lines -/

theorem squeeze_visible {after : Bool} {items : List (Bool × List Text)}
    (h : ∀ item ∈ items, item.1 = false) :
    (squeeze after items).1 = items.flatMap Prod.snd := by
  induction items generalizing after with
  | nil => rfl
  | cons item rest ih =>
    obtain ⟨blank, texts⟩ := item
    have hblank : blank = false := h _ (List.mem_cons_self ..)
    simp only [squeeze, hblank, Bool.and_false, Bool.false_eq_true, if_false, List.flatMap_cons]
    rw [ih fun i hi => h i (List.mem_cons_of_mem _ hi)]

/-! ## A line on its own -/

variable {uri : Uri} {style : IndentStyle} {content : Text}

/-- A line that is not blank, read on its own, is the nodes that it adds. -/
theorem readDetached_line (uri : Uri) (style : IndentStyle) (hline : '\n' ∉ content)
    (hvisible : Line.isBlankLine content.dropReturn = false) :
    ∃ nodes r r', Reader.Step (Resolver.detached.find () 0) r
        (r.lineInfo 0 content.dropReturn) content.dropReturn
        (Line.kindOutsideComment content.dropReturn) nodes r' ∧
      r.useAllowed = true ∧ r.scope.blocks = [] ∧ (readDetached uri style content).body = nodes := by
  have hbody : (readDetached uri style content).body =
      ((Reading.readLine .detached ⟨.start uri style, (), []⟩ 0
        content.dropReturn).reader.flushBlanks []).nodes := by
    simp only [readDetached, readFile, Text.lines_of_not_mem hline]
    rfl
  have hreads := Reading.readLine_reads (g := ⟨.start uri style, (), []⟩) Resolver.detached
    (Reader.sound_start uri style) 0 content.dropReturn
  generalize (Reading.readLine .detached ⟨.start uri style, (), []⟩ 0
    content.dropReturn).reader = r' at hbody hreads
  have hnotBlank : (Reader.start uri style).kindOf content.dropReturn ≠ .blank := fun hk => by
    rw [Line.kind_eq_blank_iff.1 hk] at hvisible
    cases hvisible
  cases hreads with
  | waits hk => exact absurd hk hnotBlank
  | goesOn _ _ hopen => cases hopen
  | @steps nodes _ _ _ hstep =>
    refine ⟨nodes, _, r', hstep, rfl, rfl, ?_⟩
    have hpending : r'.pendingBlanks = [] := hstep.frame.2.2.2.1
    have htarget : ((Reader.start uri style).target
        ((Reader.start uri style).lineInfo 0 content.dropReturn)).1 = [] := by
      simp [Reader.target, Reader.start]
    rw [hbody, Reader.flushBlanks_eq rfl, hpending, hstep.settled_nodes, htarget]
    simp [Reader.start]

/-- A line on its own is written back at no indentation. -/
theorem render_readDetached_line (uri : Uri) (style : IndentStyle) (hline : '\n' ∉ content)
    (hvisible : Line.isBlankLine content.dropReturn = false) :
    Tree.render style (readDetached uri style content).body =
      Text.unlines (Line.texts content.dropReturn
        (Line.kindOutsideComment content.dropReturn)) := by
  obtain ⟨nodes, r, r', hstep, huse, hblocks, hbody⟩ := readDetached_line uri style hline hvisible
  have hshown := hstep.shown style (fun _ => hblocks) fun _ => huse
  have hlevel : r.levelOf (r.lineInfo 0 content.dropReturn) = 0 := by simp [Reader.levelOf, hblocks]
  have hindent : Indent.ofLevel style 0 = [] := by
    unfold Indent.ofLevel
    split <;> simp
  rw [hlevel, hindent] at hshown
  rw [hbody, Tree.render_eq, listing_fresh hstep.fresh, hshown, squeeze_visible, List.flatMap_map]
  · simp only [List.nil_append, List.flatMap_singleton']
  · intro item hitem
    obtain ⟨text, -, rfl⟩ := List.mem_map.1 hitem
    rfl

/-- A line that is written back as it is when it is read on its own. -/
def Line.Canonical (uri : Uri) (style : IndentStyle) (content : Text) : Prop :=
  Tree.render style (readDetached uri style content).body = content

theorem isBlankLine_of_canonical (hline : '\n' ∉ content) (hne : content ≠ [])
    (h : Line.Canonical uri style content) : Line.isBlankLine content.dropReturn = false := by
  refine Bool.eq_false_iff.2 fun hblank => hne ?_
  have hread : Reading.readLine .detached ⟨.start uri style, (), []⟩ 0 content.dropReturn =
      ⟨{ Reader.start uri style with pendingBlanks := [0] }, (), []⟩ := by
    have hk : Line.kind style.tabStop none content.dropReturn = .blank :=
      Line.kind_eq_blank_iff.2 hblank
    simp only [Reading.readLine, Reader.start, Option.map_none, hk, reduceCtorEq, if_false, if_true]
    rfl
  have hbody : (readDetached uri style content).body = [.leaf 0 .blank] := by
    simp only [readDetached, readFile, Text.lines_of_not_mem hline, Reading.readLines, hread]
    rfl
  rw [Line.Canonical, hbody] at h
  exact h.symm

theorem unlines_singleton {content : Text} {texts : List Text} (hline : '\n' ∉ content)
    (hne : content ≠ []) (h : Text.unlines texts = content) : texts = [content] := by
  match texts with
  | [] => exact absurd h.symm hne
  | [text] => rw [← h]; simp [Text.unlines, List.intercalate, List.intersperse]
  | first :: second :: rest =>
    rw [Text.unlines_cons_cons] at h
    exact absurd (by rw [← h]; simp) hline

/-- What a canonical line is written back as, in any place. -/
theorem texts_of_canonical (hline : '\n' ∉ content) (hne : content ≠ [])
    (h : Line.Canonical uri style content) :
    Line.texts content.dropReturn (Line.kindOutsideComment content.dropReturn) = [content] := by
  have hwritten := render_readDetached_line uri style hline (isBlankLine_of_canonical hline hne h)
  rw [Line.Canonical] at h
  exact unlines_singleton hline hne (hwritten.symm.trans h)

/-- A canonical line starts with no blank. -/
theorem width_of_canonical (hline : '\n' ∉ content) (hne : content ≠ [])
    (h : Line.Canonical uri style content) (tab : Nat) :
    Indent.width tab content.dropReturn = 0 := by
  have hvisible := isBlankLine_of_canonical hline hne h
  have htexts := texts_of_canonical hline hne h
  have hkind : Line.kindOutsideComment content.dropReturn ≠ .blank := fun hk => by
    rw [← Line.kind_none 0] at hk
    rw [Line.kind_eq_blank_iff.1 hk] at hvisible
    cases hvisible
  obtain ⟨c, rest, hc, hblank⟩ := Line.head_texts hvisible hkind
    (by rw [htexts]; exact List.mem_singleton_self content)
  have hstart : ∃ rest', content.dropReturn = c :: rest' := by
    rw [hc] at hvisible ⊢
    unfold Text.dropReturn at hvisible ⊢
    split at hvisible
    · cases rest with
      | nil => cases hvisible
      | cons d rest => exact ⟨_, if_pos ‹_›⟩
    · exact ⟨_, if_neg ‹_›⟩
  obtain ⟨rest', hrest⟩ := hstart
  simp only [isBlank, Bool.or_eq_false_iff, beq_eq_false_iff_ne] at hblank
  rw [hrest]
  simp [Indent.width, hblank.1, hblank.2]

end IndentedSass
