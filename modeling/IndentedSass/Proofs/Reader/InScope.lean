/-
  Parameters are in scope.

  A parameter of a mixin is written as its name, with a default value or with dots behind it, and is
  declared under what stands before the colon.  With dots behind it, this is no name that a
  reference could have.

  * `WrittenParameter` is a parameter as it is written, `WrittenParameter.declaredName` the name
    under which it is declared;
  * `WrittenParameter.exists_argument` finds every parameter among the arguments of a list,
    `splitArguments_parameters` tells when there are no others, and `names_parameters` is what
    follows for the names;
  * `readFile_exists_parameters`: the block of the mixin has the parameters under these names;
  * `readFile_parameters`: a reference in the body of the mixin leads to the mixin.
-/
import Mathlib
import IndentedSass.Proofs.Reader.Comments
import IndentedSass.Proofs.Reader.Visible

namespace IndentedSass

/-! ## Parameters as they are written -/

/-- How a parameter is written behind its name. -/
inductive ParameterForm where
  /-- `$name` -/
  | plain
  /-- `$name: value`, perhaps with blanks before the colon -/
  | withDefault (gap value : Text)
  /-- `$name...` -/
  | variadic
  deriving DecidableEq, Repr

namespace ParameterForm

/-- The dots that belong to what stands before the colon. -/
def dots : ParameterForm → Text
  | plain | withDefault .. => []
  | variadic => "...".toList

/-- The colon and the default value. -/
def value : ParameterForm → Text
  | plain | variadic => []
  | withDefault gap value => gap ++ ':' :: value

end ParameterForm

/-- A parameter in a list, with the blanks around it. -/
structure WrittenParameter where
  before : Text
  /-- The name, with its `$`. -/
  name : Text
  form : ParameterForm
  after : Text
  deriving DecidableEq, Repr

namespace WrittenParameter

/-- The name under which it is declared. -/
def declaredName (p : WrittenParameter) : Text := p.name ++ p.form.dots

def text (p : WrittenParameter) : Text := p.before ++ (p.declaredName ++ (p.form.value ++ p.after))

/-- The parameter has the name of a variable. -/
structure Proper (p : WrittenParameter) : Prop where
  name : variableWord? p.name = some p.name
  before : Blanks p.before
  after : Blanks p.after
  gap : ∀ gap value, p.form = .withDefault gap value → Blanks gap

end WrittenParameter

theorem isParameterChar_of_isNameChar {c : Char} (h : isNameChar c = true) :
    isParameterChar c = true := by
  have hwhite : isWhite c = false := by
    refine Bool.eq_false_iff.2 fun hwhite => ?_
    rw [isNameChar_of_isWhite hwhite] at h
    cases h
  refine isParameterChar_iff.2 ⟨isQuoteMark_of_isNameChar h, hwhite, ?_, ?_, ?_, ?_, ?_⟩
  all_goals
    rintro rfl
    revert h
    decide

namespace WrittenParameter

variable {p : WrittenParameter}

/-- What it is declared under can be told apart from what stands around it. -/
theorem Proper.declaredName_proper (h : p.Proper) : Parameter.Proper ⟨p.declaredName, none⟩ := by
  obtain ⟨⟨rest, hname, hrest⟩, -⟩ := variableWord?_eq_some h.name
  refine ⟨⟨rest ++ p.form.dots, congrArg (· ++ p.form.dots) hname, fun c hc => ?_⟩, nofun⟩
  rcases List.mem_append.1 hc with hc | hc
  · exact isParameterChar_of_isNameChar (hrest c hc)
  · have hdot : c = '.' := by
      cases hform : p.form with
      | plain | withDefault => simp [hform, ParameterForm.dots] at hc
      | variadic => simpa [hform, ParameterForm.dots] using hc
    rw [hdot]
    decide

theorem Proper.body_text (h : p.Proper) (t : Text) :
    (p.before ++ (p.declaredName ++ t)).body = p.declaredName ++ t := by
  obtain ⟨rest, hname, -⟩ := h.declaredName_proper.name
  rw [Text.body_blanks h.before, show p.declaredName = '$' :: rest from hname]
  rfl

/-- With a default value, what stands before the colon is the name. -/
theorem Proper.name_default (h : p.Proper) {gap : Text} (hgap : Blanks gap) (more : Text) :
    (Parameter.parts (p.declaredName ++ gap ++ ':' :: more).trimEnd).name = p.declaredName := by
  have hcolon : Text.trimEnd (':' :: more) = ':' :: more.trimEnd := Text.trimEnd_cons (by decide) _
  have hname : Text.trim (p.declaredName ++ gap) = p.declaredName :=
    (Text.trim_white (fun c hc => isWhite_of_isBlank (hgap c hc)) _).trans
      h.declaredName_proper.trim_name
  rw [Text.trimEnd_append (hcolon ▸ List.cons_ne_nil _ _), hcolon, Parameter.parts,
    Line.splitDeclaration?, List.append_assoc, h.declaredName_proper.splitColon?_name,
    Line.splitColon?_blanks hgap]
  simpa [Line.splitColon?, Quote.isOutside] using hname

/-- Without one, the name is all there is. -/
theorem Proper.name_plain (h : p.Proper) {ws : Text} (hws : Blanks ws) :
    (Parameter.parts (p.declaredName ++ ws).trimEnd).name = p.declaredName := by
  have hproper := h.declaredName_proper
  have hend : Text.trimEnd (p.declaredName ++ ws) = p.declaredName := by
    rw [Text.trimEnd_white fun c hc => isWhite_of_isBlank (hws c hc)]
    exact Text.trimEnd_eq_self fun c hc => (isParameterChar_iff.1
      (hproper.isParameterChar_name c (List.mem_of_getLast? hc))).2.1
  have hwhole : Line.splitColon? .outside false p.declaredName = none := by
    have hnothing := hproper.splitColon?_name []
    rwa [List.append_nil] at hnothing
  rw [hend, Parameter.parts, Line.splitDeclaration?, hwhole]
  exact hproper.trim_name

/-- The first of the arguments that a parameter is split into has its name. -/
theorem Proper.exists_head (h : p.Proper) {t : Text} (ht : ∀ c ∈ t.head?, c = ',')
    (start column : Nat) : ∃ piece rest,
      splitArguments [] start 0 .outside column (p.text ++ t) = piece :: rest ∧
        (Parameter.parts piece.1).name = p.declaredName := by
  obtain ⟨name, hname, -⟩ := h.declaredName_proper.name
  have hwhole : Text.Entire (p.before ++ p.declaredName) :=
    (Text.entire_blanks h.before).append h.declaredName_proper.entire_name
  -- what follows the name without white space belongs to the first argument
  have hhead : ∀ {mid : Text}, Text.Entire mid → ∀ u, ∃ start' column',
      splitArguments [] start 0 .outside column (p.before ++ (p.declaredName ++ mid) ++ u) =
        splitArguments (p.declaredName ++ mid) start' 0 .outside column' u := by
    intro mid hmid u
    have hstart := hwhole.append hmid
    rw [List.append_assoc] at hstart
    obtain ⟨start', column', hsplit⟩ := splitArguments_argument hstart.one start column u
    rw [hstart.closed, h.body_text] at hsplit
    exact ⟨start', column', hsplit⟩
  have hfirst : ∀ mid : Text, (p.declaredName ++ mid).head? = some '$' := by
    intro mid
    rw [show p.declaredName = '$' :: name from hname]
    rfl
  by_cases hvalue : ∃ gap value, p.form = .withDefault gap value
  · obtain ⟨gap, value, hform⟩ := hvalue
    have hgap := h.gap gap value hform
    have htext : p.text ++ t =
        p.before ++ (p.declaredName ++ (gap ++ [':'])) ++ (value ++ (p.after ++ t)) := by
      simp [text, hform, ParameterForm.value]
    obtain ⟨start', column', hsplit⟩ :=
      hhead ((Text.entire_blanks hgap).append (by decide : Text.Entire [':'])) (value ++ (p.after ++ t))
    obtain ⟨n, start'', rest, hpiece⟩ := splitArguments_head (hfirst (gap ++ [':'])) (by decide)
      start' 0 column' .outside (value ++ (p.after ++ t))
    refine ⟨_, rest, by rw [htext, hsplit, hpiece], ?_⟩
    rw [← List.append_assoc p.declaredName, List.append_assoc _ [':'], List.singleton_append]
    exact h.name_default hgap _
  · have hnone : p.form.value = [] := by
      cases hform : p.form with
      | plain | variadic => rfl
      | withDefault gap value => exact absurd ⟨gap, value, hform⟩ hvalue
    have htext : p.text ++ t = p.before ++ (p.declaredName ++ p.after) ++ t := by
      simp [text, hnone]
    obtain ⟨start', column', hsplit⟩ := hhead (Text.entire_blanks h.after) t
    obtain ⟨rest, hpiece⟩ := splitArguments_end (hfirst p.after) (by decide) ht start' column'
    exact ⟨_, rest, by rw [htext, hsplit, hpiece], h.name_plain h.after⟩

theorem Proper.name_argument (h : p.Proper) (hwhole : Text.Entire p.text) :
    p.text.argument ≠ [] ∧ (Parameter.parts p.text.argument).name = p.declaredName := by
  obtain ⟨piece, rest, hpiece, hname⟩ := h.exists_head (t := []) nofun 0 0
  have hnone : ∀ t ∈ ([] : List Text), Text.Entire t := nofun
  have hsplit := splitArguments_separated hnone hwhole.one 0 0
  rw [List.nil_append, List.intercalate_singleton, ← List.append_nil p.text, hpiece,
    List.append_nil] at hsplit
  by_cases hnil : p.text.argument = []
  · simp [hnil] at hsplit
  · rw [List.filter_cons_of_pos (by simpa using hnil)] at hsplit
    obtain ⟨hpieceText, -⟩ := List.cons.inj hsplit
    exact ⟨hnil, hpieceText ▸ hname⟩

theorem declaredName_eq (h : p.form ≠ .variadic) : p.declaredName = p.name := by
  rw [declaredName]
  cases hform : p.form with
  | plain | withDefault => exact List.append_nil _
  | variadic => exact absurd hform h

/-- Every parameter of a list has an argument with its name, when nothing is left open in a default
    value that parameters follow; blanks may stand behind a last comma, or in place of all
    parameters. -/
theorem exists_argument {parameters : List WrittenParameter} (h : ∀ p ∈ parameters, p.Proper)
    (hclosed : ∀ p ∈ parameters.dropLast, Text.argumentEnd 0 .outside p.text = (0, .outside))
    (blank : Option Text) (start column : Nat) {p : WrittenParameter} (hp : p ∈ parameters) :
    ∃ piece ∈ splitArguments [] start 0 .outside column
        (List.intercalate [','] (parameters.map text ++ blank.toList)),
      (Parameter.parts piece.1).name = p.declaredName := by
  induction parameters generalizing start column with
  | nil => cases hp
  | cons first rest ih =>
    obtain ⟨hfirst, hrest⟩ := List.forall_mem_cons.1 h
    obtain ⟨t, ht, htext, hcomma⟩ : ∃ t : Text, (∀ c ∈ t.head?, c = ',') ∧
        List.intercalate [','] ((first :: rest).map text ++ blank.toList) = first.text ++ t ∧
        (rest ≠ [] → t = ',' :: List.intercalate [','] (rest.map text ++ blank.toList)) := by
      cases hlist : rest.map text ++ blank.toList with
      | nil =>
        refine ⟨[], nofun, ?_, fun hne => absurd (List.append_eq_nil_iff.1 hlist).1 (by simpa using hne)⟩
        rw [List.map_cons, List.cons_append, hlist, List.intercalate_singleton, List.append_nil]
      | cons u us =>
        refine ⟨_, by simp, ?_, fun _ => rfl⟩
        rw [List.map_cons, List.cons_append, hlist, List.intercalate_cons_cons, List.append_assoc]
        rfl
    rw [htext]
    rcases List.mem_cons.1 hp with rfl | hp
    · obtain ⟨piece, others, hsplit, hname⟩ := hfirst.exists_head ht start column
      exact ⟨piece, hsplit ▸ List.mem_cons_self .., hname⟩
    · have hne : rest ≠ [] := List.ne_nil_of_mem hp
      rw [List.dropLast_cons_of_ne_nil hne] at hclosed
      obtain ⟨hopen, hclosed⟩ := List.forall_mem_cons.1 hclosed
      obtain ⟨front, start', column', hsplit⟩ := splitArguments_behind (fun _ => rfl) hopen
        (List.intercalate [','] (rest.map text ++ blank.toList))
      obtain ⟨piece, hpiece, hname⟩ := ih hrest hclosed start' column' hp
      refine ⟨piece, ?_, hname⟩
      rw [hcomma hne, hsplit]
      exact List.mem_append_right _ hpiece

/-- There are no other arguments when every parameter is one. -/
theorem splitArguments_parameters {parameters : List WrittenParameter}
    (h : ∀ p ∈ parameters, p.Proper) (hwhole : ∀ p ∈ parameters, Text.Entire p.text)
    {blank : Option Text} (hblank : ∀ ws ∈ blank, Blanks ws) (start column : Nat) :
    (splitArguments [] start 0 .outside column
      (List.intercalate [','] (parameters.map text ++ blank.toList))).map Prod.fst =
        parameters.map fun p => p.text.argument := by
  cases blank with
  | some ws =>
    have hws := hblank ws rfl
    have hbody : ws.body = [] := (congrArg Text.body ws.append_nil).symm.trans (Text.body_blanks hws [])
    have hnothing : ws.argument = [] := by
      rw [Text.argument, hbody]
      rfl
    rw [Option.toList_some, splitArguments_separated (List.forall_mem_map.2 hwhole)
      (Text.entire_blanks hws).one, hnothing, List.map_map]
    exact List.append_nil _
  | none =>
    rw [Option.toList_none, List.append_nil]
    rcases parameters.eq_nil_or_concat' with rfl | ⟨front, last, rfl⟩
    · rfl
    · have hlast := hwhole last (by simp)
      have hne := ((h last (by simp)).name_argument hlast).1
      have hfront : ∀ p ∈ front, Text.Entire p.text := fun p hp => hwhole p (List.mem_append_left _ hp)
      rw [List.map_append, List.map_singleton,
        splitArguments_separated (List.forall_mem_map.2 hfront) hlast.one,
        List.filter_cons_of_pos (by simpa using hne), List.filter_nil, List.map_append, List.map_map]
      rfl

/-- A list declares its parameters, and nothing else when every parameter is an argument. -/
theorem names_parameters {parameters : List WrittenParameter} (h : ∀ p ∈ parameters, p.Proper)
    (hclosed : ∀ p ∈ parameters.dropLast, Text.argumentEnd 0 .outside p.text = (0, .outside))
    {blank : Option Text} (hblank : ∀ ws ∈ blank, Blanks ws) (start column : Nat) :
    let names := (splitArguments [] start 0 .outside column
      (List.intercalate [','] (parameters.map text ++ blank.toList))).map fun piece =>
        (Parameter.parts piece.1).name
    (∀ p ∈ parameters, p.declaredName ∈ names) ∧
      ((∀ p ∈ parameters, Text.Entire p.text) → names = parameters.map declaredName) := by
  refine ⟨fun p hp => ?_, fun hwhole => ?_⟩
  · obtain ⟨piece, hpiece, hname⟩ := exists_argument h hclosed blank start column hp
    exact List.mem_map.2 ⟨piece, hpiece, hname⟩
  · have hnames := congrArg (List.map fun t => (Parameter.parts t).name)
      (splitArguments_parameters h hwhole hblank start column)
    rw [List.map_map, List.map_map] at hnames
    exact hnames.trans (List.map_congr_left fun p hp => ((h p hp).name_argument (hwhole p hp)).2)

end WrittenParameter

/-! ## Mixins -/

/-- The line of a mixin is read as a block that has the parameters of the list under the names that
    they are declared under, and no others when all default values are closed. -/
theorem readFile_exists_parameters {σ : Type} (resolver : Resolver σ) (files : σ) (uri : Uri)
    (style : IndentStyle) (text : Text) (j : Nat) {pre name tail line : Text} {spelling : Spelling}
    {parameters : List WrittenParameter} {blank : Option Text} (hpre : Blanks pre)
    (hparen : '(' ∉ name) (hproper : ∀ p ∈ parameters, p.Proper) (hblank : ∀ ws ∈ blank, Blanks ws)
    (hclosed : ∀ p ∈ parameters.dropLast, Text.argumentEnd 0 .outside p.text = (0, .outside))
    (htail : ')' ∉ tail)
    (hwritten : line = pre ++ (spelling.mixinSign ++ (name ++ '(' ::
      (List.intercalate [','] (parameters.map WrittenParameter.text ++ blank.toList) ++ ')' :: tail))))
    (hline : (text.lines.map Text.dropReturn)[j]? = some line)
    (hkind : Line.kind style.tabStop
      (Reader.commentOf style ((text.lines.map Text.dropReturn).take j)) line = .mixin) :
    ∃ outer level read body,
      Tree.nodeAt? (readFile resolver files uri style text).entry.body outer =
        some (.block j level (.mixin spelling name.trim read) body) ∧
      (∀ p ∈ parameters, p.declaredName ∈ read.map Parameter.name) ∧
      ((∀ p ∈ parameters, Text.Entire p.text) →
        read.map Parameter.name = parameters.map WrittenParameter.declaredName) := by
  have hclause := MixinClause.ofLine_signed spelling hpre hparen
    (List.intercalate [','] (parameters.map WrittenParameter.text ++ blank.toList)) htail
  rw [← hwritten] at hclause
  obtain ⟨outer, read, body, hnode, hread, -⟩ :=
    readFile_exists_mixin resolver files uri style text j hline hkind
  rw [hclause] at hnode hread
  generalize pre.length + spelling.mixinSign.length + name.length + 1 = column at hread
  have hnames : read.map Parameter.name = (splitArguments [] column 0 .outside column
      (List.intercalate [','] (parameters.map WrittenParameter.text ++ blank.toList))).map
        fun piece => (Parameter.parts piece.1).name := by
    have hshape := congrArg (List.map Parameter.name) hread
    rwa [List.map_map, List.map_map, List.map_map] at hshape
  refine ⟨outer, _, read, body, hnode, ?_⟩
  rw [hnames]
  exact WrittenParameter.names_parameters hproper hclosed hblank column column

/-- In the body of a mixin, a reference without a qualifier that has the name of a parameter leads
    to the mixin, unless something around it declares the name in between, and then it is not noted
    as missing.  The parameters have a default value or none, and nothing is left open in a default
    value that others follow; a parameter with dots behind its name declares no name that a
    reference has. -/
theorem readFile_parameters {σ : Type} (resolver : Resolver σ) (files : σ) (uri : Uri)
    (style : IndentStyle) (text : Text) (j : Nat) {pre name tail line : Text} {spelling : Spelling}
    {parameters : List WrittenParameter} {blank : Option Text} (hpre : Blanks pre)
    (hparen : '(' ∉ name) (hproper : ∀ p ∈ parameters, p.Proper) (hblank : ∀ ws ∈ blank, Blanks ws)
    (hclosed : ∀ p ∈ parameters.dropLast, Text.argumentEnd 0 .outside p.text = (0, .outside))
    (htail : ')' ∉ tail)
    (hwritten : line = pre ++ (spelling.mixinSign ++ (name ++ '(' ::
      (List.intercalate [','] (parameters.map WrittenParameter.text ++ blank.toList) ++ ')' :: tail))))
    (hline : (text.lines.map Text.dropReturn)[j]? = some line)
    (hkind : Line.kind style.tabStop
      (Reader.commentOf style ((text.lines.map Text.dropReturn).take j)) line = .mixin) :
    let entry := (readFile resolver files uri style text).entry
    (∃ outer level read body,
      Tree.nodeAt? entry.body outer = some (.block j level (.mixin spelling name.trim read) body) ∧
      (∀ p ∈ parameters, p.declaredName ∈ read.map Parameter.name) ∧
      ((∀ p ∈ parameters, Text.Entire p.text) →
        read.map Parameter.name = parameters.map WrittenParameter.declaredName)) ∧
    ∃ missing : List Missing,
      (Tree.unresolved entry.body).Perm (missing.map fun m => (m.line, m.ref)) ∧
      entry.diagnostics.filter Diagnostic.isMissing = missing.map Missing.diagnostic ∧
      ∀ outer level header body path node,
        Tree.nodeAt? entry.body outer = some (.block j level header body) →
        Tree.nodeAt? entry.body path = some node → outer <+: path → path ≠ outer →
        ∀ ref ∈ node.references, ref.qualifier = none →
          (∃ p ∈ parameters, p.name = ref.name ∧ p.form ≠ .variadic) →
          (∀ i, j < i → i < node.line → ¬Tree.Declares entry.body path ref.name i) →
          ref.target = some ⟨uri, j⟩ ∧ (node.line, ref) ∉ missing.map fun m => (m.line, m.ref) := by
  intro entry
  obtain ⟨outer, level, read, body, hnode, hdeclared, hall⟩ :=
    readFile_exists_parameters resolver files uri style text j hpre hparen hproper hblank hclosed
      htail hwritten hline hkind
  obtain ⟨missing, hperm, hnotes, -, -⟩ := readFile_notes resolver files uri style text
  refine ⟨⟨outer, level, read, body, hnode, hdeclared, hall⟩, missing, hperm, hnotes, ?_⟩
  intro outer' level' header body' path node hblock hn hinside hne ref href hqualifier hparameter
    hbetween
  have hkinds : (Line.kinds style.tabStop none (text.lines.map Text.dropReturn))[j]? =
      some .mixin := by
    rw [Line.getElem?_kinds, hline]
    exact congrArg some hkind
  -- the line of the mixin is in one place
  obtain rfl := (covers_readFile resolver files uri style text).path_eq hkinds (by decide) hline
    hnode hblock (List.mem_singleton_self j) (List.mem_singleton_self j)
  have hname : ∃ p ∈ read, p.name = ref.name := by
    obtain ⟨p, hp, hown, hform⟩ := hparameter
    rw [← hown, ← WrittenParameter.declaredName_eq hform]
    exact List.mem_map.1 (hdeclared p hp)
  have habove : outer <+: path.dropLast := by
    obtain ⟨rest, rfl⟩ := hinside
    rw [List.dropLast_append_of_ne_nil fun hnil => hne (by rw [hnil, List.append_nil])]
    exact List.prefix_append ..
  obtain ⟨m, hj, hm, hdeclares, htarget⟩ :=
    readFile_sees resolver files uri style text path node hn ref href hqualifier outer j _ _ body
      habove hnode hname
  obtain rfl : m = j := by
    by_contra hneq
    exact hbetween m (by omega) hm hdeclares
  refine ⟨htarget, fun hmem => ?_⟩
  -- what is noted leads nowhere
  rw [Tree.target_of_mem_unresolved (hperm.mem_iff.2 hmem)] at htarget
  cases htarget

/-- Parameters with blanks around them, below a rule; there is a comma in a string of the first
    default value, and a string is left open in the second one. -/
theorem readFile_parameters_below :
    let uri : Uri := ⟨"file".toList, none, "/a.sass".toList, none, none⟩
    let text : Text := ".c\n  =m( $a : f(\",\") , $b: \"\\\"\")\n    d: $b".toList
    let entry := (readFile .detached () uri {} text).entry
    ∃ node, Tree.nodeAt? entry.body [0, 0, 0] = some node ∧ node.line = 2 ∧
      ∃ ref ∈ node.references, ref.name = "$b".toList ∧ ref.target = some ⟨uri, 1⟩ := by
  intro uri text entry
  let a : WrittenParameter := ⟨[' '], "$a".toList, .withDefault [' '] " f(\",\")".toList, [' ']⟩
  let b : WrittenParameter := ⟨[' '], "$b".toList, .withDefault [] " \"\\\"\"".toList, []⟩
  have hblank : Blanks [' '] := List.forall_mem_singleton.2 rfl
  have hproper : ∀ p ∈ [a, b], p.Proper := by
    refine List.forall_mem_cons.2 ⟨?_, List.forall_mem_singleton.2 ?_⟩
    · refine ⟨by decide +kernel, hblank, hblank, ?_⟩
      rintro gap value ⟨⟩
      exact hblank
    · refine ⟨by decide +kernel, hblank, List.forall_mem_nil _, ?_⟩
      rintro gap value ⟨⟩
      exact List.forall_mem_nil _
  have hclosed : ∀ p ∈ [a, b].dropLast, Text.argumentEnd 0 .outside p.text = (0, .outside) :=
    List.forall_mem_singleton.2 (by decide +kernel)
  have hwritten : "  =m( $a : f(\",\") , $b: \"\\\"\")".toList =
      [' ', ' '] ++ (Spelling.sigil.mixinSign ++ (['m'] ++ '(' :: (List.intercalate [',']
        ([a, b].map WrittenParameter.text ++ (none : Option Text).toList) ++ ')' :: []))) := by
    decide +kernel
  obtain ⟨-, missing, -, -, hsees⟩ := readFile_parameters .detached () uri {} text 1
    (List.forall_mem_cons.2 ⟨rfl, hblank⟩) (by decide) hproper (by simp) hclosed List.not_mem_nil
    hwritten (by decide +kernel) (by decide +kernel)
  obtain ⟨body, hbody⟩ : ∃ body, Tree.bodyAt? entry.body [0, 0] = some body :=
    Option.isSome_iff_exists.1 (by decide +kernel)
  obtain ⟨line, level, header, hmixin⟩ := (Tree.bodyAt?_eq_some_iff (List.cons_ne_nil _ _)).1 hbody
  obtain ⟨node, hnode⟩ : ∃ node, Tree.nodeAt? entry.body [0, 0, 0] = some node :=
    Option.isSome_iff_exists.1 (by decide +kernel)
  have hmixinLine : (Tree.nodeAt? entry.body [0, 0]).map Node.line = some 1 := by decide +kernel
  have hline : (Tree.nodeAt? entry.body [0, 0, 0]).map Node.line = some 2 := by decide +kernel
  have hreferences : (Tree.nodeAt? entry.body [0, 0, 0]).map (fun node => node.references.map
      fun ref => (ref.name, ref.qualifier)) = some [("$b".toList, none)] := by decide +kernel
  rw [hmixin] at hmixinLine
  rw [hnode] at hline hreferences
  obtain rfl : line = 1 := Option.some.inj hmixinLine
  obtain ⟨ref, href, hshape⟩ := List.map_eq_singleton_iff.1 (Option.some.inj hreferences)
  obtain ⟨hname, hqualifier⟩ := Prod.mk.inj hshape
  have hmem : ref ∈ node.references := href ▸ List.mem_singleton_self ref
  have hdeclared : ∃ p ∈ [a, b], p.name = ref.name ∧ p.form ≠ .variadic :=
    ⟨b, by simp, hname.symm, by simp [b]⟩
  obtain ⟨htarget, -⟩ := hsees [0, 0] level header body [0, 0, 0] node hmixin hnode ⟨[0], rfl⟩
    (by decide) ref hmem hqualifier hdeclared
    (fun i hlow hhigh => absurd (Option.some.inj hline ▸ hhigh) (by omega))
  exact ⟨node, hnode, Option.some.inj hline, ref, hmem, hname, htarget⟩

/-- A reference in the body of a mixin that has the name of a parameter with dots behind it leads
    nowhere: the dots are taken for a part of the name. -/
theorem readFile_variadic_missing :
    let uri : Uri := ⟨"file".toList, none, "/a.sass".toList, none, none⟩
    let entry := (readFile .detached () uri {} "@mixin m($p...)\n  a: $p".toList).entry
    (Tree.nodeAt? entry.body [0]).map Node.line = some 0 ∧
      (Tree.nodeAt? entry.body [0, 0]).map (fun node => (node.line, node.references)) =
        some (1, [⟨"$p".toList, "$p".toList, none, none⟩]) ∧
      entry.diagnostics = [⟨.variableNotFound "$p".toList, ⟨⟨1, 5⟩, ⟨1, 7⟩⟩⟩] := by
  decide +kernel

end IndentedSass
