/-
  References that lead nowhere.

  A reader notes every reference that it finds no declaration for.  What it notes are the
  references of the tree without a target, each with the place at which it is written.

  * `Missing` is such a reference with its place, `Missing.diagnostic` what is noted;
  * `ValueState.Traced`: while a value is read, the notes are those of its references
    (`Traced.act`, `readValue_missing`);
  * `Reader.Step.missing`, `Reading.notes_readLine`: the references of a line, and the
    notes of the line;
  * `Reader.Noted` is what every line keeps, `readFile_missing` what a file is read to.
-/
import Mathlib
import IndentedSass.Proofs.Line.Columns
import IndentedSass.Proofs.Reader.Scoping
import IndentedSass.Proofs.Reader.Shape

namespace IndentedSass

/-- A reference without a target, and where it is written. -/
structure Missing where
  /-- The line, from zero. -/
  line : Nat
  /-- The column of its first character. -/
  column : Nat
  /-- The reference. -/
  ref : Reference
  deriving DecidableEq, Repr

namespace Missing

/-- The text of the reference, with its column. -/
def piece (m : Missing) : Text × Nat := (m.ref.text, m.column)

/-- The reference in a text that begins at a column. -/
def shift (column : Nat) (m : Missing) : Missing := { m with column := column + m.column }

/-- What is noted about it. -/
def diagnostic (m : Missing) : Diagnostic :=
  ⟨.variableNotFound m.ref.name, .within m.line m.column (m.column + m.ref.text.length)⟩

theorem map_piece_shift (column : Nat) (ms : List Missing) :
    (ms.map (shift column)).map piece = (ms.map piece).map (Text.shift column) := by
  rw [List.map_map, List.map_map]
  rfl

end Missing

/-- The references that lead nowhere. -/
def Reference.unresolved (refs : List Reference) : List Reference :=
  refs.filter fun ref => ref.target.isNone

theorem Reference.unresolved_append (refs refs' : List Reference) :
    unresolved (refs ++ refs') = unresolved refs ++ unresolved refs' := List.filter_append ..

/-! ## Values -/

namespace ValueState

variable {lookup : Lookups} {place : ValuePlace} {st : ValueState} {done : Text}
  {found : List Missing}

/-- The references that were read so far, in the order in which they are written. -/
def references (st : ValueState) : List Reference :=
  Value.references st.body ++ st.opened.reverse.flatMap fun o => Value.references o.body

theorem references_push (st : ValueState) (v : Value) :
    (st.push v).references = st.references ++ Value.referencesOfOne v := by
  have hone : Value.references [v] = Value.referencesOfOne v := by simp [Value.references]
  unfold push references
  split
  · rename_i hopen
    simp [hopen, Value.references_append, hone]
  · rename_i o os hopen
    simp [hopen, Value.references_append, hone]

theorem references_enter (st : ValueState) (form : Form) : (st.enter form).references = st.references := by
  simp [references, enter, Value.references]

theorem references_close (st : ValueState) : st.close.references = st.references := by
  unfold close
  split
  · rfl
  · rename_i o os hopen
    rw [references_push, Value.referencesOfOne]
    simp [references, hopen]

/-- The notes so far are those of the references without a target that were read from the
    text `done`, and the current word is at its end. -/
structure Traced (place : ValuePlace) (done : Text) (found : List Missing) (st : ValueState) :
    Prop where
  count : st.count = done.length
  word : ∃ before, done = before ++ st.word ∧ before.Pieces (found.map Missing.piece)
  brace : st.atBrace = true → st.word = []
  references : Reference.unresolved st.references = found.map Missing.ref
  line : ∀ m ∈ found, m.line = place.line
  diagnostics : st.diagnostics = found.map fun m => (m.shift place.column).diagnostic

theorem count_push (st : ValueState) (v : Value) : (st.push v).count = st.count := by
  unfold push
  split <;> rfl

theorem Traced.cut (h : Traced place done found st) : Traced place done found { st with word := [] } := by
  obtain ⟨before, hdone, hpieces⟩ := h.word
  refine ⟨h.count, ⟨done, (List.append_nil done).symm, ?_⟩, fun _ => rfl, h.references, h.line,
    h.diagnostics⟩
  rw [hdone]
  exact hpieces.append st.word

/-- A part without references that lead nowhere. -/
theorem Traced.push (h : Traced place done found st) {v : Value}
    (hv : Reference.unresolved (Value.referencesOfOne v) = []) :
    Traced place done found (st.push v) := by
  obtain ⟨-, hbrace, hword⟩ := push_frame st v
  refine ⟨(count_push st v).trans h.count, by rw [hword]; exact h.word,
    by rw [hbrace, hword]; exact h.brace, ?_, h.line, (diagnostics_push st v).trans h.diagnostics⟩
  rw [references_push, Reference.unresolved_append, hv, List.append_nil, h.references]

/-- The word that ends may be a reference that leads nowhere. -/
theorem Traced.flush (h : Traced place done found st) (lookup : Lookups) :
    ∃ found', Traced place done found' (st.flush lookup place) := by
  obtain ⟨before, hdone, hpieces⟩ := h.word
  unfold ValueState.flush
  split
  · exact ⟨found, h⟩
  dsimp only
  split
  · exact ⟨found, h.cut.push rfl⟩
  · rename_i qualifier name _
    have hstart : place.column + st.count - st.word.length = place.column + before.length := by
      rw [h.count, hdone, List.length_append]
      omega
    rw [hstart]
    cases lookup (place.column + before.length) name qualifier place.level with
    | some location =>
      rw [show (some location).isNone = false from rfl, if_neg Bool.false_ne_true, List.append_nil]
      exact ⟨found, h.cut.push rfl⟩
    | none =>
      rw [show (none : Option Location).isNone = true from rfl, if_pos rfl]
      obtain ⟨-, hbrace, hword⟩ := push_frame
        { st with
          word := []
          diagnostics := st.diagnostics ++ [⟨.variableNotFound name,
            .within place.line (place.column + before.length)
              (place.column + before.length + st.word.length)⟩] }
        (.reference ⟨st.word, name, qualifier, none⟩ st.joins)
      refine ⟨found ++ [⟨place.line, before.length, ⟨st.word, name, qualifier, none⟩⟩], ?_, ?_, ?_, ?_,
        ?_, ?_⟩
      · rw [count_push]
        exact h.count
      · refine ⟨done, by rw [hword, List.append_nil], ?_⟩
        rw [hdone, List.map_append]
        exact hpieces.snoc st.word
      · exact fun _ => hword
      · rw [references_push, Reference.unresolved_append, List.map_append, ← h.references]
        rfl
      · intro m hm
        rcases List.mem_append.1 hm with hold | hnew
        · exact h.line m hold
        · rw [List.mem_singleton.1 hnew]
      · rw [diagnostics_push, List.map_append, h.diagnostics]
        rfl

theorem Traced.enter (h : Traced place done found st) (form : Form) :
    Traced place done found (st.enter form) :=
  ⟨h.count, h.word, h.brace, by rw [references_enter]; exact h.references, h.line, h.diagnostics⟩

theorem close_kept (st : ValueState) : st.close.count = st.count ∧ st.close.word = st.word := by
  unfold close
  split
  · exact ⟨rfl, rfl⟩
  · exact ⟨count_push .., (push_frame ..).2.2⟩

theorem Traced.close (h : Traced place done found st) : Traced place done found st.close := by
  obtain ⟨hcount, hword⟩ := close_kept st
  exact ⟨hcount.trans h.count, by rw [hword]; exact h.word,
    by rw [(close_frame st).2, hword]; exact h.brace, by rw [references_close]; exact h.references,
    h.line, (diagnostics_close st).trans h.diagnostics⟩

/-- A character that is not part of a word. -/
theorem Traced.next (h : Traced place done found st) (hword : st.word = []) (c : Char) :
    Traced place (done ++ [c]) found { st with count := st.count + 1 } := by
  obtain ⟨before, hdone, hpieces⟩ := h.word
  refine ⟨by simp [h.count], ⟨done ++ [c], by simp [hword], ?_⟩, h.brace, h.references, h.line,
    h.diagnostics⟩
  rw [hdone, List.append_assoc]
  exact hpieces.append _

/-- A character of the current word. -/
theorem Traced.keep (h : Traced place done found st) (hbrace : st.atBrace = false) (c : Char) :
    Traced place (done ++ [c]) found { st.keep c with count := (st.keep c).count + 1 } := by
  obtain ⟨before, hdone, hpieces⟩ := h.word
  refine ⟨?_, ⟨before, ?_, hpieces⟩, ?_, h.references, h.line, h.diagnostics⟩
  · simp [ValueState.keep, h.count]
  · simp [ValueState.keep, hdone]
  · intro habs
    exact absurd (hbrace.symm.trans habs) Bool.false_ne_true

theorem Traced.step (h : Traced place done found st) (lookup : Lookups) (c : Char) (next : Option Char) :
    ∃ found', Traced place (done ++ [c]) found' (st.step lookup place c next) := by
  obtain ⟨found', hflush⟩ := h.flush lookup
  obtain ⟨-, hbrace, hword⟩ := flush_frame lookup place st
  unfold ValueState.step ValueState.act
  dsimp only
  split_ifs with hat hquote hblank hinterpolation hcall hclose hopen
  · -- the brace of an interpolation
    exact ⟨found, ({ h with brace := fun _ => h.brace hat } : Traced place done found
      { st with atBrace := false }).next (h.brace hat) c⟩
  · exact ⟨found, h.keep (Bool.eq_false_iff.2 hat) c⟩
  · exact ⟨found', ({ hflush with } : Traced place done found'
      { st.flush lookup place with spaced := true }).next hword c⟩
  · exact ⟨found', ({ hflush.enter .interpolation with brace := fun _ => hword } : Traced place done
      found' { (st.flush lookup place).enter .interpolation with atBrace := true }).next hword c⟩
  · exact ⟨found, (h.cut.enter (.call st.word)).next rfl c⟩
  · exact ⟨found, h.keep (Bool.eq_false_iff.2 hat) c⟩
  · exact ⟨found', hflush.close.next ((close_kept _).2.trans hword) c⟩
  · exact ⟨found, h.keep (Bool.eq_false_iff.2 hat) c⟩

theorem Traced.run (lookup : Lookups) (t : Text) : ∀ {done : Text} {found : List Missing}
    {st : ValueState}, Traced place done found st →
    ∃ found', Traced place (done ++ t) found' (st.run lookup place t) := by
  induction t with
  | nil =>
    intro done found st h
    rw [List.append_nil]
    exact ⟨found, h⟩
  | cons c cs ih =>
    intro done found st h
    obtain ⟨found', hstep⟩ := h.step lookup c cs.head?
    rw [List.append_cons]
    exact ih hstep

/-- Closing all that is open leaves nothing open. -/
theorem opened_finish (lookup : Lookups) (place : ValuePlace) (st : ValueState) :
    (st.finish lookup place).opened = [] := by
  have hclose : ∀ (opened : List OpenCompound) (st : ValueState), st.opened.length = opened.length →
      (opened.foldl (fun st _ => st.close) st).opened = [] := by
    intro opened
    induction opened with
    | nil => exact fun st h => List.length_eq_zero_iff.1 h
    | cons o os ih =>
      intro st h
      refine ih st.close ?_
      unfold close
      split
      · rename_i hopen
        rw [hopen] at h
        cases h
      · rename_i o' os' hopen
        rw [hopen] at h
        unfold push
        dsimp only
        split <;> simp_all
  exact hclose _ _ rfl

theorem Traced.finish (h : Traced place done found st) (lookup : Lookups) :
    ∃ found', Traced place done found' (st.finish lookup place) := by
  obtain ⟨found', hflush⟩ := h.flush lookup
  have hclose : ∀ (opened : List OpenCompound) (st : ValueState), Traced place done found' st →
      Traced place done found' (opened.foldl (fun st _ => st.close) st) := by
    intro opened
    induction opened with
    | nil => exact fun st h => h
    | cons o os ih => exact fun st h => ih st.close h.close
  exact ⟨found', hclose _ _ hflush⟩

end ValueState

/-- The references of a value that lead nowhere, the notes about them, and their places. -/
theorem readValue_missing (lookup : Lookups) (place : ValuePlace) (raw : Text) :
    ∃ found : List Missing,
      Reference.unresolved (Value.references (readValue lookup place raw).1) =
        found.map Missing.ref ∧
      (readValue lookup place raw).2 = found.map (fun m => (m.shift place.column).diagnostic) ∧
      (∀ m ∈ found, m.line = place.line) ∧ raw.Pieces (found.map Missing.piece) := by
  have hstart : ValueState.Traced place [] [] {} :=
    ⟨rfl, ⟨[], rfl, .nil []⟩, (fun h => nomatch h), rfl, (fun _ h => nomatch h), rfl⟩
  obtain ⟨found, hrun⟩ := hstart.run lookup raw
  obtain ⟨found', hfinish⟩ := hrun.finish lookup
  rw [List.nil_append] at hfinish
  obtain ⟨before, hraw, hpieces⟩ := hfinish.word
  refine ⟨found', ?_, hfinish.diagnostics, hfinish.line, ?_⟩
  · have hreferences := hfinish.references
    rw [ValueState.references, ValueState.opened_finish, List.reverse_nil, List.flatMap_nil,
      List.append_nil] at hreferences
    exact hreferences
  · rw [hraw]
    exact hpieces.append _

/-! ## Lines -/

/-- The references of a node that lead nowhere, with its line. -/
def Node.unresolved (node : Node) : List (Nat × Reference) :=
  (Reference.unresolved node.references).map fun ref => (node.line, ref)

/-- What is noted about the value of a declaration that is written at a column. -/
def notesOfDeclaration (lookup : Lookups) (index level : Nat) (written : Text × Nat) :
    List Diagnostic :=
  match Line.splitDeclaration? written.1 with
  | none => []
  | some d => (readValue lookup ⟨index, written.2 + d.column, level⟩ d.value).2

/-- What is noted about the references of a line. -/
def notesOfLine (lookup : Lookups) (index level : Nat) (line : Text) : LineKind → List Diagnostic
  | .property | .variableDecl => notesOfDeclaration lookup index level (line, 0)
  | .mixin => (MixinClause.ofLine line).parameters.flatMap (notesOfDeclaration lookup index level)
  | _ => []

theorem missing_declaration (lookup : Lookups) (index level : Nat) (written : Text × Nat) :
    ∃ found : List Missing,
      Reference.unresolved (Value.references
        ((Parameter.ofText lookup index level written).default?.getD [])) = found.map Missing.ref ∧
      notesOfDeclaration lookup index level written =
        found.map (fun m => (m.shift written.2).diagnostic) ∧
      (∀ m ∈ found, m.line = index) ∧ written.1.Pieces (found.map Missing.piece) := by
  unfold Parameter.ofText notesOfDeclaration
  cases hd : Line.splitDeclaration? written.1 with
  | none => exact ⟨[], rfl, rfl, (fun _ h => nomatch h), .nil _⟩
  | some d =>
    obtain ⟨found, hrefs, hnotes, hline, hpieces⟩ :=
      readValue_missing lookup ⟨index, written.2 + d.column, level⟩ d.value
    refine ⟨found.map (Missing.shift d.column), ?_, ?_, ?_, ?_⟩
    · rw [List.map_map]
      exact hrefs
    · rw [List.map_map]
      refine hnotes.trans (List.map_congr_left fun m _ => ?_)
      simp only [Function.comp_apply, Missing.shift, Nat.add_assoc]
    · intro m hm
      obtain ⟨m', hm', rfl⟩ := List.mem_map.1 hm
      exact hline m' hm'
    · rw [Missing.map_piece_shift]
      exact hpieces.shift (Line.splitDeclaration?_standsAt hd)

namespace Reader

variable {find : Nat → Finder} {r r' : Reader} {info : LineInfo} {line : Text}
  {kind : LineKind} {nodes : List Node}

/-- A line with one declaration. -/
theorem missing_value {d : Line.Declaration} (hd : Line.splitDeclaration? line = some d)
    (lookup : Lookups) (index level : Nat) :
    ∃ found : List Missing,
      Reference.unresolved (Value.references
        (readValue lookup ⟨index, d.column, level⟩ d.value).1) = found.map Missing.ref ∧
      notesOfDeclaration lookup index level (line, 0) = found.map Missing.diagnostic ∧
      (∀ m ∈ found, m.line = index) ∧ line.Pieces (found.map Missing.piece) := by
  obtain ⟨found, hrefs, hnotes, hline, hpieces⟩ := missing_declaration lookup index level (line, 0)
  have hzero : ∀ m : Missing, m.shift 0 = m := fun m => by rw [Missing.shift, Nat.zero_add]
  simp only [Parameter.ofText, hd, Option.getD_some, Nat.zero_add] at hrefs
  simp only [hzero] at hnotes
  exact ⟨found, hrefs, hnotes, hline, hpieces⟩

/-- The references of the nodes of a line that lead nowhere are those that it notes, and
    they stand in the line one behind the other. -/
theorem Step.missing (h : Step find r info line kind nodes r') :
    ∃ found : List Missing,
      nodes.flatMap Node.unresolved = found.map (fun m => (m.line, m.ref)) ∧
      notesOfLine (r.lookup find) info.index (r.levelOf info) line kind =
        found.map Missing.diagnostic ∧
      (∀ m ∈ found, m.line = info.index) ∧ line.Pieces (found.map Missing.piece) := by
  have hnothing : nodes.flatMap Node.unresolved = [] →
      notesOfLine (r.lookup find) info.index (r.levelOf info) line kind = [] →
      ∃ found : List Missing,
        nodes.flatMap Node.unresolved = found.map (fun m => (m.line, m.ref)) ∧
        notesOfLine (r.lookup find) info.index (r.levelOf info) line kind =
          found.map Missing.diagnostic ∧
        (∀ m ∈ found, m.line = info.index) ∧ line.Pieces (found.map Missing.piece) :=
    fun hrefs hnotes => ⟨[], hrefs, hnotes, (fun _ h => nomatch h), .nil line⟩
  -- one node with references
  have hone : ∀ (node : Node) (found : List Missing), node.line = info.index →
      Reference.unresolved node.references = found.map Missing.ref →
      (∀ m ∈ found, m.line = info.index) →
      [node].flatMap Node.unresolved = found.map (fun m => (m.line, m.ref)) := by
    intro node found hline hrefs hfound
    rw [List.flatMap_cons, List.flatMap_nil, List.append_nil, Node.unresolved, hrefs, List.map_map]
    refine List.map_congr_left fun m hm => ?_
    rw [Function.comp_apply, hline, hfound m hm]
  cases h with
  | opens _ ho =>
    cases ho with
    | rule | fontFace => exact hnothing rfl rfl
    | mixin =>
      choose found hrefs hnotes hline hpieces using
        missing_declaration (r.lookup find) info.index (r.levelOf info)
      have hall : ∀ m ∈ (MixinClause.ofLine line).parameters.flatMap fun written =>
          (found written).map (Missing.shift written.2), m.line = info.index := by
        intro m hm
        obtain ⟨written, -, hm⟩ := List.mem_flatMap.1 hm
        obtain ⟨m', hm', rfl⟩ := List.mem_map.1 hm
        exact hline written m' hm'
      refine ⟨_, hone _ _ rfl ?_ hall, ?_, hall, ?_⟩
      · rw [Node.references, Header.parameters, Reference.unresolved, List.flatMap_map,
          List.filter_flatMap, List.map_flatMap]
        refine List.flatMap_congr fun written _ => ?_
        rw [List.map_map]
        exact hrefs written
      · rw [notesOfLine, List.map_flatMap]
        refine List.flatMap_congr fun written _ => ?_
        rw [List.map_map]
        exact hnotes written
      · have hwhole := (MixinClause.pieces_parameters line).flatMap fun p _ => hpieces p
        simp only [← Missing.map_piece_shift] at hwhole
        rw [List.map_flatMap]
        exact hwhole
  | closes _ hc =>
    cases hc with
    | property hd =>
      obtain ⟨found, hrefs, hnotes, hline, hpieces⟩ :=
        missing_value hd (r.lookup find) info.index (r.levelOf info)
      exact ⟨found, hone _ found rfl hrefs hline, hnotes, hline, hpieces⟩
    | noColon hk hd =>
      refine hnothing rfl ?_
      rcases hk with rfl | rfl <;> simp [notesOfLine, notesOfDeclaration, hd]
    | _ => exact hnothing rfl rfl
  | declares _ hd hv =>
    obtain ⟨found, hrefs, hnotes, hline, hpieces⟩ :=
      missing_value hd (r.lookup find) info.index (r.levelOf info)
    exact ⟨found, hone _ found rfl (hv ▸ hrefs) hline, hnotes, hline, hpieces⟩
  | keeps _ hk => cases hk <;> exact hnothing rfl rfl
  | comments | uses => exact hnothing rfl rfl
  | imports =>
    refine hnothing ?_ rfl
    rw [← List.map_uncurry_zip_eq_zipWith, List.flatMap_map]
    exact List.flatMap_eq_nil_iff.2 fun _ _ => rfl

/-! ## What a reader notes -/

/-- The references that were noted so far. -/
def notes (r : Reader) : List Diagnostic := r.diagnostics.filter Diagnostic.isMissing

theorem notes_report (r : Reader) {problem : Problem} (range : Range)
    (h : (Diagnostic.mk problem range).isMissing = false) : (r.report problem range).notes = r.notes := by
  simp [notes, report, h]

theorem notes_place (r : Reader) (info : LineInfo) (line : Text) :
    (r.place info line).1.notes = r.notes := by
  unfold place
  dsimp only
  split
  · exact notes_report r _ rfl
  · rfl

theorem notes_insert (r : Reader) (node : Node) (path : TreePath) :
    (r.insert node path).1.notes = r.notes := by
  unfold insert
  split <;> rfl

theorem notes_addComment (r : Reader) (info : LineInfo) (line : Text) (leaf : Leaf) :
    (r.addComment info line leaf).1.notes = r.notes :=
  (notes_insert ..).trans (notes_place r info line)

theorem notes_addLeaf (r : Reader) (info : LineInfo) (line : Text) (leaf : Leaf) :
    (r.addLeaf info line leaf).notes = r.notes := notes_addComment r info line leaf

theorem notes_addBlock (r : Reader) (info : LineInfo) (line : Text) (header : Header) :
    (r.addBlock info line header).notes = r.notes :=
  (notes_insert ..).trans (notes_place r info line)

theorem notes_readUnclassified (r : Reader) (info : LineInfo) (line : Text) :
    (r.readUnclassified info line).notes = r.notes :=
  (notes_addLeaf ..).trans (notes_report r.forbidUse _ rfl)

theorem notes_flushBlanks (r : Reader) (path : TreePath) : (r.flushBlanks path).notes = r.notes := by
  have hfold : ∀ (blanks : List Nat) (r : Reader),
      (blanks.foldl (fun r index => (r.insert (.leaf index .blank) path).1) r).notes = r.notes := by
    intro blanks
    induction blanks with
    | nil => exact fun r => rfl
    | cons index blanks ih => exact fun r => (ih _).trans (notes_insert ..)
  exact hfold r.pendingBlanks _

/-- All that is noted about a value is noted here. -/
theorem notes_readValueAt (find : Nat → Finder) (r : Reader) (info : LineInfo)
    (column : Nat) (value : Text) :
    (r.readValueAt find info column value).1.notes =
      r.notes ++ (readValue (r.lookup find) ⟨info.index, column, r.levelOf info⟩ value).2 := by
  obtain ⟨found, -, hnotes, -⟩ :=
    readValue_missing (r.lookup find) ⟨info.index, column, r.levelOf info⟩ value
  have hall : ∀ d ∈ (readValue (r.lookup find) ⟨info.index, column, r.levelOf info⟩ value).2,
      d.isMissing = true := by
    rw [hnotes]
    intro d hd
    obtain ⟨m, -, rfl⟩ := List.mem_map.1 hd
    rfl
  rw [notes, readValueAt, List.filter_append, List.filter_eq_self.2 hall]
  rfl

theorem notes_readParameters (find : Nat → Finder) (r : Reader) (info : LineInfo)
    (written : List (Text × Nat)) :
    (r.readParameters find info written).1.notes = r.notes ++
      written.flatMap (notesOfDeclaration (r.lookup find) info.index (r.levelOf info)) := by
  induction written generalizing r with
  | nil => exact (List.append_nil _).symm
  | cons first rest ih =>
    obtain ⟨text, column⟩ := first
    unfold readParameters
    rw [List.flatMap_cons, notesOfDeclaration]
    cases Line.splitDeclaration? text with
    | none => exact ih r
    | some d =>
      have hrest := ih (r.readValueAt find info (column + d.column) d.value).1
      rw [notes_readValueAt] at hrest
      rw [← List.append_assoc]
      exact hrest

theorem notes_readProperty (find : Nat → Finder) (r : Reader) (info : LineInfo)
    (line : Text) :
    (r.readProperty find info line).notes =
      r.notes ++ notesOfLine (r.lookup find) info.index (r.levelOf info) line .property := by
  unfold readProperty
  rw [notesOfLine, notesOfDeclaration]
  cases Line.splitDeclaration? line with
  | none => exact (notes_readUnclassified r.forbidUse info line).trans (List.append_nil _).symm
  | some d =>
    have hvalue := notes_readValueAt find r.forbidUse info d.column d.value
    dsimp only
    rw [notes_addLeaf, hvalue, Nat.zero_add]
    rfl

theorem notes_readVariable (find : Nat → Finder) (r : Reader) (info : LineInfo)
    (line : Text) :
    (r.readVariable find info line).notes =
      r.notes ++ notesOfLine (r.lookup find) info.index (r.levelOf info) line .variableDecl := by
  unfold readVariable
  rw [notesOfLine, notesOfDeclaration]
  cases Line.splitDeclaration? line with
  | none => exact (notes_readUnclassified r info line).trans (List.append_nil _).symm
  | some d =>
    have hvalue := notes_readValueAt find r info d.column d.value
    dsimp only
    rw [Nat.zero_add]
    exact (notes_addComment ..).trans hvalue

theorem notes_readMixin (find : Nat → Finder) (r : Reader) (info : LineInfo)
    (line : Text) :
    (r.readMixin find info line).notes =
      r.notes ++ notesOfLine (r.lookup find) info.index (r.levelOf info) line .mixin := by
  have hparameters : (r.forbidUse.readParameters find info (MixinClause.ofLine line).parameters).1.notes =
      r.notes ++ notesOfLine (r.lookup find) info.index (r.levelOf info) line .mixin :=
    notes_readParameters find r.forbidUse info (MixinClause.ofLine line).parameters
  unfold readMixin
  dsimp only
  generalize r.forbidUse.readParameters find info (MixinClause.ofLine line).parameters = read
    at hparameters ⊢
  rw [← hparameters]
  exact notes_addBlock ..

theorem notes_readBlockComment (r : Reader) (info : LineInfo) (line : Text) :
    (r.readBlockComment info line).notes = r.notes := by
  have hadd := notes_addComment r info line (.blockComment (r.levelOf info) [⟨info.index, line.trim⟩])
  unfold readBlockComment
  dsimp only
  split <;> exact hadd

theorem notes_readCommentContent (r : Reader) (info : LineInfo) (line : Text) :
    (r.readCommentContent info line).notes = r.notes := by
  unfold readCommentContent
  split
  · rfl
  · dsimp only
    split <;> rfl

end Reader

namespace Reading

variable {σ : Type}

theorem notes_readImportPath (resolver : Resolver σ) (g : Reading σ) (info : LineInfo) (line : Text)
    (level : Nat) (path : Text) :
    (readImportPath resolver info line level g path).reader.notes = g.reader.notes := by
  unfold readImportPath
  dsimp only
  split
  · exact Reader.notes_addComment ..
  · exact Reader.notes_addComment ..

theorem notes_readImport (resolver : Resolver σ) (g : Reading σ) (info : LineInfo) (line : Text) :
    (g.readImport resolver info line).reader.notes = g.reader.notes := by
  have hfold : ∀ (paths : List Text) (level : Nat) (g : Reading σ),
      (paths.foldl (readImportPath resolver info line level) g).reader.notes = g.reader.notes := by
    intro paths level
    induction paths with
    | nil => exact fun g => rfl
    | cons path rest ih => exact fun g => (ih _).trans (notes_readImportPath ..)
  unfold readImport
  dsimp only
  split
  · exact Reader.notes_readUnclassified g.reader.forbidUse info line
  · exact Reader.notes_readUnclassified g.reader.forbidUse info line
  · exact hfold _ _ _

theorem notes_readUse (resolver : Resolver σ) (g : Reading σ) (info : LineInfo) (line : Text) :
    (g.readUse resolver info line).reader.notes = g.reader.notes := by
  unfold readUse
  split
  · exact (Reader.notes_addComment ..).trans (Reader.notes_report g.reader _ rfl)
  · split
    · exact Reader.notes_readUnclassified g.reader info line
    · dsimp only
      split
      · exact Reader.notes_insert ..
      · exact Reader.notes_insert ..

/-- A line notes the references that `notesOfLine` tells. -/
theorem notes_readKind (resolver : Resolver σ) (g : Reading σ) (info : LineInfo) (line : Text)
    (kind : LineKind) :
    (g.readKind resolver info line kind).reader.notes = g.reader.notes ++
      notesOfLine (g.reader.lookup (resolver.find g.files info.index)) info.index
        (g.reader.levelOf info) line kind := by
  cases kind with
  | property => exact Reader.notes_readProperty ..
  | variableDecl => exact Reader.notes_readVariable ..
  | mixin => exact Reader.notes_readMixin ..
  | importPaths => exact (notes_readImport ..).trans (List.append_nil _).symm
  | useModule => exact (notes_readUse ..).trans (List.append_nil _).symm
  | selector | fontFace => exact (Reader.notes_addBlock ..).trans (List.append_nil _).symm
  | mixinCall | extendRule => exact (Reader.notes_addLeaf ..).trans (List.append_nil _).symm
  | comment => exact (Reader.notes_addComment ..).trans (List.append_nil _).symm
  | literal => exact (Reader.notes_readUnclassified ..).trans (List.append_nil _).symm
  | blank => exact (List.append_nil _).symm
  | blockCommentStart => exact (Reader.notes_readBlockComment ..).trans (List.append_nil _).symm
  | blockCommentContent => exact (Reader.notes_readCommentContent ..).trans (List.append_nil _).symm

/-- The notes of a line that is read after others. -/
theorem notes_readLine (resolver : Resolver σ) {g : Reading σ} (hs : g.reader.Sound) (index : Nat)
    (line : Text) :
    (g.readLine resolver index line).reader.notes = g.reader.notes ++
      notesOfLine (g.reader.lookup (resolver.find g.files index)) index
        (g.reader.levelOf (g.reader.lineInfo index line)) line (g.reader.kindOf line) := by
  by_cases hblank : g.reader.kindOf line = .blank
  · rw [readLine_of_blank resolver index hblank, hblank]
    exact (List.append_nil _).symm
  by_cases hcontent : g.reader.kindOf line = .blockCommentContent
  · rw [readLine_of_content resolver hs index hcontent, hcontent, Reader.notes_readCommentContent]
    exact (List.append_nil _).symm
  · rw [readLine_of_visible resolver hs index hblank hcontent, notes_readKind]
    rfl

end Reading

/-! ## Trees -/

namespace Tree

variable {nodes nodes' body body' added : List Node} {path : TreePath}

/-- The references of a tree that lead nowhere, each with the line of its node. -/
def unresolved (nodes : List Node) : List (Nat × Reference) :=
  (listing nodes).flatMap Node.unresolved

theorem target_of_mem_unresolved {line : Nat} {ref : Reference}
    (h : (line, ref) ∈ unresolved nodes) : ref.target = none := by
  obtain ⟨node, -, hnode⟩ := List.mem_flatMap.1 h
  obtain ⟨ref', href, heq⟩ := List.mem_map.1 hnode
  obtain ⟨-, rfl⟩ := Prod.mk.inj heq
  exact Option.isNone_iff_eq_none.1 (List.mem_filter.1 href).2

theorem unresolved_append (first rest : List Node) :
    unresolved (first ++ rest) = unresolved first ++ unresolved rest := by
  rw [unresolved, listing_append, List.flatMap_append]
  rfl

theorem unresolved_cons (node : Node) (rest : List Node) :
    unresolved (node :: rest) = unresolved [node] ++ unresolved rest :=
  unresolved_append [node] rest

/-- The references of a block are those of its header and of its body. -/
theorem unresolved_block (line level : Nat) (header : Header) (body : List Node) :
    unresolved [.block line level header body] =
      Node.unresolved (.block line level header []) ++ unresolved body := by
  simp only [unresolved, listing, listingOfOne, List.append_nil, List.flatMap_cons]
  rfl

/-- References that a body gains are gained by the tree. -/
theorem Replaces.unresolved_perm {more : List (Nat × Reference)}
    (h : Replaces body body' path nodes nodes')
    (hbody : (unresolved body').Perm (unresolved body ++ more)) :
    (unresolved nodes').Perm (unresolved nodes ++ more) := by
  induction h with
  | here => exact hbody
  | @under before after inner inner' line level header _ _ ih =>
    rw [List.perm_iff_count] at ih ⊢
    intro a
    have hcount := ih a
    rw [unresolved_append, unresolved_append, unresolved_cons (.block line level header inner'),
      unresolved_cons (.block line level header inner), unresolved_block, unresolved_block]
    simp only [List.count_append] at hcount ⊢
    omega

theorem unresolved_graft (hb : bodyAt? nodes path = some body) :
    (unresolved (graft added nodes path)).Perm (unresolved nodes ++ unresolved added) := by
  refine (replaces_graft added hb).unresolved_perm ?_
  rw [unresolved_append]

/-- A block comment holds no references. -/
theorem unresolved_modifyAt {line level : Nat} {lines lines' : List CommentLine}
    (h : nodeAt? nodes path = some (.leaf line (.blockComment level lines))) :
    (unresolved (modifyAt (fun _ => .leaf line (.blockComment level lines')) nodes path)).Perm
      (unresolved nodes) := by
  obtain ⟨parent, before, after, -, hreplaces⟩ :=
    modifyAt_eq_updateAt (.leaf line (.blockComment level lines')) h
  have hbody : (unresolved (before ++ .leaf line (.blockComment level lines') :: after)).Perm
      (unresolved (before ++ .leaf line (.blockComment level lines) :: after) ++ []) := by
    rw [List.append_nil, unresolved_append, unresolved_append, unresolved_cons,
      unresolved_cons (.leaf line (.blockComment level lines))]
    rfl
  have hperm := hreplaces.unresolved_perm hbody
  rwa [List.append_nil] at hperm

theorem unresolved_blanks (blanks : List Nat) :
    unresolved (blanks.map (.leaf · .blank)) = [] := by
  induction blanks with
  | nil => rfl
  | cons index rest ih => rw [List.map_cons, unresolved_cons, ih]; rfl

end Tree

/-! ## Files -/

namespace Reader

variable {find : Nat → Finder} {r r' : Reader} {uri : Uri} {style : IndentStyle}
  {done : List Text} {line : Text}

/-- The notes of a reader are the references of its tree that lead nowhere, where they are
    written in the lines `done`. -/
def Noted (done : List Text) (r : Reader) : Prop :=
  ∃ found : List Missing,
    (Tree.unresolved r.nodes).Perm (found.map fun m => (m.line, m.ref)) ∧
    r.notes = found.map Missing.diagnostic ∧
    (∀ m ∈ found, ∃ line, done[m.line]? = some line ∧ line.StandsAt m.column m.ref.text) ∧
    found.Pairwise fun m m' => m.line = m'.line → m.column + m.ref.text.length ≤ m'.column

theorem noted_start : Noted [] (start uri style) :=
  ⟨[], .nil, rfl, (fun _ h => nomatch h), .nil⟩

/-- A line with references of its own. -/
theorem Noted.snoc (h : Noted done r) {found : List Missing}
    (hnodes : (Tree.unresolved r'.nodes).Perm
      (Tree.unresolved r.nodes ++ found.map fun m => (m.line, m.ref)))
    (hnotes : r'.notes = r.notes ++ found.map Missing.diagnostic)
    (hline : ∀ m ∈ found, m.line = done.length) (hpieces : line.Pieces (found.map Missing.piece)) :
    Noted (done ++ [line]) r' := by
  obtain ⟨before, hperm, hnotes', hstands, hordered⟩ := h
  refine ⟨before ++ found, ?_, ?_, ?_, List.pairwise_append.2 ⟨hordered, ?_, ?_⟩⟩
  · rw [List.map_append]
    exact hnodes.trans (hperm.append_right _)
  · rw [hnotes, hnotes', List.map_append]
  · intro m hm
    rcases List.mem_append.1 hm with hold | hnew
    · obtain ⟨l, hl, hstand⟩ := hstands m hold
      exact ⟨l, by rw [List.getElem?_append_left (List.getElem?_eq_some_iff.1 hl).1, hl], hstand⟩
    · refine ⟨line, by rw [hline m hnew, List.getElem?_concat_length], ?_⟩
      exact hpieces.stands m.piece (List.mem_map_of_mem hnew)
  · refine List.Pairwise.imp ?_ (List.pairwise_map.1 hpieces.ordered)
    intro m m' hle _
    exact hle
  · -- the lines before are other lines
    intro m hm m' hm' hsame
    obtain ⟨l, hl, -⟩ := hstands m hm
    have hlt := (List.getElem?_eq_some_iff.1 hl).1
    rw [hsame, hline m' hm'] at hlt
    exact absurd hlt (Nat.lt_irrefl _)

/-- A line without references. -/
theorem Noted.quiet (h : Noted done r) (line : Text)
    (hnodes : (Tree.unresolved r'.nodes).Perm (Tree.unresolved r.nodes))
    (hnotes : r'.notes = r.notes) : Noted (done ++ [line]) r' := by
  have hnothing : ∀ m ∈ ([] : List Missing), m.line = done.length := fun _ h => nomatch h
  exact h.snoc (by simpa using hnodes) (by simpa using hnotes) hnothing (.nil line)

theorem Noted.reads (h : Noted done r) (hs : r.Sound) (hreads : Reads find r done.length line r')
    (hnotes : r'.notes = r.notes ++ notesOfLine (r.lookup find) done.length
      (r.levelOf (r.lineInfo done.length line)) line (r.kindOf line)) :
    Noted (done ++ [line]) r' := by
  cases hreads with
  | waits hk =>
    rw [hk] at hnotes
    exact h.quiet line (.refl _) (hnotes.trans (List.append_nil _))
  | goesOn text hk _ hnode =>
    rw [hk] at hnotes
    exact h.quiet line (Tree.unresolved_modifyAt hnode) (hnotes.trans (List.append_nil _))
  | steps _ _ hstep =>
    obtain ⟨found, hrefs, hfound, hline, hpieces⟩ := hstep.missing
    obtain ⟨body, hb⟩ := hs.hasTarget (r.lineInfo done.length line)
    refine h.snoc ?_ (hnotes.trans (congrArg (r.notes ++ ·) hfound)) hline hpieces
    rw [hstep.settled_nodes]
    have hfresh := congrArg (List.flatMap Node.unresolved) (listing_fresh hstep.fresh)
    refine (Tree.unresolved_graft hb).trans (.of_eq ?_)
    rw [Tree.unresolved_append, Tree.unresolved_blanks, List.nil_append]
    exact congrArg (Tree.unresolved r.nodes ++ ·) (hfresh.trans hrefs)

end Reader

/-- The notes of a file are the references of its tree that lead nowhere. -/
theorem readFile_notes {σ : Type} (resolver : Resolver σ) (files : σ) (uri : Uri)
    (style : IndentStyle) (text : Text) :
    let entry := (readFile resolver files uri style text).entry
    ∃ missing : List Missing,
      (Tree.unresolved entry.body).Perm (missing.map fun m => (m.line, m.ref)) ∧
      entry.diagnostics.filter Diagnostic.isMissing = missing.map Missing.diagnostic ∧
      (∀ m ∈ missing, ∃ line, (text.lines.map Text.dropReturn)[m.line]? = some line ∧
        line.StandsAt m.column m.ref.text) ∧
      missing.Pairwise fun m m' => m.line = m'.line → m.column + m.ref.text.length ≤ m'.column := by
  intro entry
  have hstart : Reader.Noted [] (.start uri style) := Reader.noted_start
  obtain ⟨-, missing, hperm, hnotes, hstands, hordered⟩ := Reading.readLines_keeps resolver hstart
    (fun g done line ha hnoted => hnoted.reads ha.sound (Reading.readLine_reads resolver ha.sound _ _)
      (Reading.notes_readLine resolver ha.sound _ _)) files text.lines
  -- the blank lines that still wait at the end have no references
  have htree : entry.body = Tree.graft _ _ [] := congrArg Reader.nodes (Reader.flushBlanks_eq rfl)
  have hsame : (Tree.unresolved entry.body).Perm (Tree.unresolved (Reading.readLines resolver
      ⟨.start uri style, files, []⟩ 0 text.lines).reader.nodes) := by
    rw [htree]
    refine (Tree.unresolved_graft rfl).trans (.of_eq ?_)
    rw [Tree.unresolved_blanks, List.append_nil]
  exact ⟨missing, hsame.trans hperm, (Reader.notes_flushBlanks ..).trans hnotes, hstands, hordered⟩

/-- The references of a file that are noted as declared nowhere are those of its tree that
    lead nowhere.  Each is noted where it is written, on the line of its node, with its own
    name, and no two of them overlap. -/
theorem readFile_missing {σ : Type} (resolver : Resolver σ) (files : σ) (uri : Uri)
    (style : IndentStyle) (text : Text)
    (hlength : ∀ line ∈ text.lines, line.dropReturn.length < positionLimit) :
    let entry := (readFile resolver files uri style text).entry
    ∃ missing : List Missing,
      ((Tree.listing entry.body).flatMap Node.unresolved).Perm
        (missing.map fun m => (m.line, m.ref)) ∧
      entry.diagnostics.filter Diagnostic.isMissing =
        missing.map (fun m => ⟨.variableNotFound m.ref.name,
          ⟨⟨m.line % positionLimit, m.column⟩,
            ⟨m.line % positionLimit, m.column + m.ref.text.length⟩⟩⟩) ∧
      (∀ m ∈ missing, ∃ line, (text.lines.map Text.dropReturn)[m.line]? = some line ∧
        (line.take (m.column + m.ref.text.length)).drop m.column = m.ref.text) ∧
      missing.Pairwise fun m m' => m.line = m'.line → m.column + m.ref.text.length ≤ m'.column := by
  intro entry
  obtain ⟨missing, hperm, hnotes, hstands, hordered⟩ :=
    readFile_notes resolver files uri style text
  refine ⟨missing, hperm, ?_, fun m hm => ?_, hordered⟩
  · rw [hnotes]
    refine List.map_congr_left fun m hm => ?_
    obtain ⟨line, hline, hstand⟩ := hstands m hm
    obtain ⟨raw, hraw, rfl⟩ := List.mem_map.1 (List.mem_of_getElem? hline)
    have hshort := hlength raw hraw
    have hinside := hstand.le_length
    rw [Missing.diagnostic, Range.within, Position.ofCounts, Position.ofCounts,
      Nat.mod_eq_of_lt (a := m.column) (by omega),
      Nat.mod_eq_of_lt (a := m.column + m.ref.text.length) (by omega)]
  · obtain ⟨line, hline, hstand⟩ := hstands m hm
    exact ⟨line, hline, hstand.cut_eq⟩

/-- A parameter, a call and an interpolation behind a string. -/
theorem readFile_missing_mixin :
    let uri : Uri := ⟨"file".toList, none, "/a.sass".toList, none, none⟩
    let text : Text := "@mixin m($a, $b: é $x)\n  c: \"$y\" f($a, $z)#{b.$w}".toList
    let entry := (readFile .detached () uri {} text).entry
    (entry.diagnostics.filter Diagnostic.isMissing).map
        (fun d => (d.range.start.line, d.range.start.character, d.range.stop.character)) =
      [(0, 19, 21), (1, 16, 18), (1, 21, 25)] ∧
    ∃ missing : List Missing, missing.length = 3 ∧
      ∀ m ∈ missing, ∃ line, (text.lines.map Text.dropReturn)[m.line]? = some line ∧
        (line.take (m.column + m.ref.text.length)).drop m.column = m.ref.text := by
  intro uri text entry
  obtain ⟨missing, -, hnotes, hstands, -⟩ := readFile_missing .detached () uri {} text (by decide)
  have hcount : (entry.diagnostics.filter Diagnostic.isMissing).length = 3 := by decide +kernel
  rw [hnotes, List.length_map] at hcount
  exact ⟨by decide +kernel, missing, hcount, hstands⟩

end IndentedSass
