/-
  Trees survive their JSON form.

  A tree that is written as JSON is read back from it, when its numbers have at most
  64 bits and its URIs are read back from their texts.

  * `Node.counts` and `Node.uris` are the numbers and the URIs of a node, and
    `Node.Fits` says that they can be written;
  * `Value.listOfJson?_listToJson` and `Node.listOfJson?_listToJson` read back what was
    written, however deeply it is nested;
  * `Node.counted_of_listOfJson?`: a tree that was read has no greater numbers;
  * `Tree.survives_json` joins the two, and `Tree.drive_changes_json` shows that it needs
    the URIs to be read back.
-/
import Mathlib
import IndentedSass.Proofs.Reader.Scoping
import IndentedSass.Tree.Json

namespace IndentedSass

/-! ## What can be written -/

/-- A URI that is read back from its text. -/
def Uri.Rereads (u : Uri) : Prop := Uri.ofJson? u.toJson = some u

/-- A location that is read back from what is written of it. -/
def Location.Fits (l : Location) : Prop := l.line < 2 ^ 64 ∧ l.uri.Rereads

/-- The locations that the references of a node lead to. -/
def Node.targets (node : Node) : List Location := node.references.filterMap Reference.target

/-- The numbers of a node itself, without those under it. -/
def Node.counts (node : Node) : List Nat :=
  node.line :: node.level?.toList ++ node.lines ++ node.targets.map Location.line

/-- The URIs of a node itself. -/
def Node.uris (node : Node) : List Uri :=
  (match node with
    | .leaf _ (.importPath _ _ target) | .leaf _ (.useModule _ target _) => target.toList
    | _ => []) ++ node.targets.map Location.uri

/-- A node whose own numbers and URIs can be written. -/
def Node.Fits (node : Node) : Prop := (∀ n ∈ node.counts, n < 2 ^ 64) ∧ ∀ u ∈ node.uris, u.Rereads

/-! ## Fields -/

@[simp] theorem Text.ofJson?_toJson (t : Text) : Text.ofJson? t.toJson = some t := by
  simp [Text.ofJson?, Text.toJson, Json.str?, Text.string]

theorem Json.nat?_nat {n : Nat} (h : n < 2 ^ 64) : Json.nat? (.nat n) = some n := by
  simp only [Json.nat?, Json.nat]
  rw [if_pos ⟨by omega, by exact_mod_cast h⟩, Int.toNat_natCast]

theorem Json.lt_of_nat? {j : Json} {n : Nat} (h : Json.nat? j = some n) : n < 2 ^ 64 := by
  cases j with
  | int m =>
    obtain hm | hm := em (0 ≤ m ∧ m < UInt64.size)
    · rw [Json.nat?, if_pos hm, Option.some.injEq] at h
      have hlt := hm.2
      rw [← Int.toNat_of_nonneg hm.1, h] at hlt
      exact_mod_cast hlt
    · rw [Json.nat?, if_neg hm] at h
      exact nomatch h
  | _ => simp [Json.nat?] at h

theorem Location.ofJson?_toJson {l : Location} (h : l.Fits) : Location.ofJson? l.toJson = some l := by
  have hline := Json.nat?_nat h.1
  have huri : Uri.ofJson? l.uri.toJson = some l.uri := h.2
  simp -implicitDefEqProofs [Location.ofJson?, Location.toJson, Record.ofJson?, Record.field,
    List.lookup, hline, huri]

/-- A field that is `null` for nothing is read back. -/
theorem Record.nullable_ofOption {α : Type} {r : Record} {name : String} {read : Json → Option α}
    (write : α → Json) (value : Option α) (hr : r name = some (.ofOption write value))
    (hread : ∀ a ∈ value, read (write a) = some a) (hnull : ∀ a, write a ≠ .null) :
    r.nullable name read = some value := by
  cases value with
  | none => simp [Record.nullable, hr, Json.ofOption]
  | some a =>
    have hwritten : r name = some (write a) := hr
    unfold Record.nullable
    rw [hwritten]
    split
    · next h => cases h
    · next h => exact absurd (Option.some.inj h) (hnull a)
    · next h => rw [← Option.some.inj h, hread a rfl, Option.map_some]

theorem Record.nullable_text {r : Record} {name : String} (t : Option Text)
    (hr : r name = some (.ofOption Text.toJson t)) : r.nullable name Text.ofJson? = some t :=
  nullable_ofOption _ t hr (fun t _ => Text.ofJson?_toJson t) (fun _ h => nomatch h)

theorem Record.nullable_uri {r : Record} {name : String} {target : Option Uri}
    (hr : r name = some (.ofOption Uri.toJson target)) (h : ∀ u ∈ target, u.Rereads) :
    r.nullable name Uri.ofJson? = some target :=
  nullable_ofOption _ target hr h (fun _ h => nomatch h)

theorem Record.nullable_location {r : Record} {name : String} {target : Option Location}
    (hr : r name = some (.ofOption Location.toJson target)) (h : ∀ l ∈ target, l.Fits) :
    r.nullable name Location.ofJson? = some target :=
  nullable_ofOption _ target hr (fun l hl => Location.ofJson?_toJson (h l hl)) (fun _ h => nomatch h)

/-- What is read of an object that names its kind. -/
theorem kindAndRest?_obj (names : List String) (numbered : Bool) (kind : String)
    (fields : List (String × Json)) :
    kindAndRest? names numbered (.obj (("type", .str kind) :: fields)) =
      some (kind, .obj (("type", .str kind) :: fields)) := by
  simp [kindAndRest?, kindName?, List.lookup]

theorem mem_of_mapM {α β : Type} {read : α → Option β} {y : β} :
    ∀ {xs : List α} {ys : List β}, xs.mapM read = some ys → y ∈ ys → ∃ x ∈ xs, read x = some y
  | [], ys, h, hy => by
    obtain rfl : [] = ys := Option.some.inj h
    exact absurd hy List.not_mem_nil
  | x :: xs, ys, h, hy => by
    simp only [List.mapM_cons, Option.bind_eq_bind, Option.bind_eq_some_iff, Option.pure_def,
      Option.some.injEq] at h
    obtain ⟨z, hz, zs, hzs, rfl⟩ := h
    obtain rfl | hy := List.mem_cons.1 hy
    · exact ⟨x, List.mem_cons_self, hz⟩
    · obtain ⟨x', hx', hread⟩ := mem_of_mapM hzs hy
      exact ⟨x', List.mem_cons_of_mem _ hx', hread⟩

/-! ## Values -/

namespace Value

/-- The locations that references lead to can be written. -/
def Fit (refs : List Reference) : Prop := ∀ ref ∈ refs, ∀ l ∈ ref.target, l.Fits

section reading

variable {numbered : Bool} {n : Nat} {j rest : Json} {fields : List (String × Json)}

theorem ofJsonTo?_of_literal (h : kindAndRest? kindNames numbered j = some ("literal", rest)) :
    ofJsonTo? numbered (n + 1) j = do
      let r ← Record.ofJson? ["value"] ["joined"] rest
      return .literal (← r.field "value" Text.ofJson?) (← r.flag "joined" false) := by
  rw [ofJsonTo?, h]
  rfl

theorem ofJsonTo?_of_reference
    (h : kindAndRest? kindNames numbered j = some ("variableRef", rest)) :
    ofJsonTo? numbered (n + 1) j = do
      let r ← Record.ofJson? ["value", "name", "namespace", "ref"] ["joined"] rest
      let text ← r.field "value" Text.ofJson?
      let name ← r.field "name" Text.ofJson?
      let qualifier ← r.nullable "namespace" Text.ofJson?
      let target ← r.nullable "ref" Location.ofJson?
      return .reference ⟨text, name, qualifier, target⟩ (← r.flag "joined" false) := by
  rw [ofJsonTo?, h]
  rfl

theorem ofJsonTo?_of_compound
    (h : kindAndRest? kindNames numbered j = some ("expression", .obj fields)) :
    ofJsonTo? numbered (n + 1) j = do
      let r ← Record.ofJson? [] [] (.obj fields)
      let form ← formOf? fields
      let items ← r.field "body" Json.items?
      return .compound form (← items.mapM (ofJsonTo? true n)) (← r.flag "joined" false) := by
  rw [ofJsonTo?, h]
  rfl

end reading

section writing

variable {body : List Value} {n : Nat}

theorem toJson_compound (form : Form) (body : List Value) (joined : Bool) :
    (compound form body joined).toJson = .obj (("type", .str "expression") ::
      (formFields form ++ ("body", .arr (listToJson body)) :: joinedField joined)) := by
  simp [toJson]

theorem formOf?_formFields (form : Form) (kind : Json) (tail : List (String × Json)) :
    formOf? (("type", kind) :: (formFields form ++ tail)) = some form := by
  cases form <;> simp [formOf?, formFields, List.lookup, kindName?]

/-- The form of a compound hides no other field of it. -/
theorem lookup_formFields {name : String} (form : Form) (tail : List (String × Json))
    (hkind : name ≠ "expressionType") (hname : name ≠ "funcName") :
    (formFields form ++ tail).lookup name = tail.lookup name := by
  have hkind' : (name == "expressionType") = false := by simpa
  have hname' : (name == "funcName") = false := by simpa
  cases form <;> simp [formFields, List.lookup, hkind', hname']

theorem ofJsonTo?_literal (text : Text) (joined numbered : Bool) (n : Nat) :
    ofJsonTo? numbered (n + 1) (literal text joined).toJson = some (literal text joined) := by
  rw [toJson, List.cons_append, ofJsonTo?_of_literal (kindAndRest?_obj ..)]
  cases joined <;>
    simp -implicitDefEqProofs [Record.ofJson?, Record.field, Record.flag, List.lookup, joinedField,
      Json.bool?]

theorem ofJsonTo?_reference {ref : Reference} (joined numbered : Bool) (n : Nat)
    (h : ∀ l ∈ ref.target, l.Fits) :
    ofJsonTo? numbered (n + 1) (reference ref joined).toJson = some (reference ref joined) := by
  rw [toJson, List.cons_append, ofJsonTo?_of_reference (kindAndRest?_obj ..)]
  simp only [Record.ofJson?, Option.bind_eq_bind, Option.bind_some]
  rw [Record.nullable_text ref.qualifier (by simp [List.lookup]),
    Record.nullable_location (by simp [List.lookup]) h]
  cases joined <;>
    simp -implicitDefEqProofs [Record.field, Record.flag, List.lookup, joinedField, Json.bool?]

theorem ofJsonTo?_compound (form : Form) (joined numbered : Bool)
    (h : (listToJson body).mapM (ofJsonTo? true n) = some body) :
    ofJsonTo? numbered (n + 1) (compound form body joined).toJson =
      some (compound form body joined) := by
  rw [toJson_compound, ofJsonTo?_of_compound (kindAndRest?_obj ..)]
  simp only [Record.ofJson?, Option.bind_eq_bind, Option.bind_some, formOf?_formFields]
  cases joined <;>
    simp -implicitDefEqProofs [Record.field, Record.flag, List.lookup, lookup_formFields,
      joinedField, Json.items?, Json.bool?, h]

theorem depth_toJson_pos (v : Value) : 0 < v.toJson.depth := by
  cases v <;> simp [toJson, Json.depth]

theorem depth_body_lt (form : Form) (body : List Value) (joined : Bool) :
    Json.depthOfItems (listToJson body) + 1 < (compound form body joined).toJson.depth := by
  cases form <;> simp [toJson, formFields, Json.depth, Json.depthOfFields]

mutual

/-- A part that was written is read back. -/
theorem ofJsonTo?_toJson : ∀ (v : Value) (numbered : Bool) (n : Nat), v.toJson.depth ≤ n + 1 →
    Fit (referencesOfOne v) → ofJsonTo? numbered (n + 1) v.toJson = some v
  | .literal text joined, numbered, n, _, _ => ofJsonTo?_literal text joined numbered n
  | .reference ref joined, numbered, n, _, h =>
    ofJsonTo?_reference joined numbered n (h ref (List.mem_singleton_self ref))
  | .compound form body joined, numbered, n, hn, h => by
    have hdepth := depth_body_lt form body joined
    exact ofJsonTo?_compound form joined numbered
      (mapM_ofJsonTo?_listToJson body true n (by omega) h)

/-- The parts that were written are read back. -/
theorem mapM_ofJsonTo?_listToJson : ∀ (vs : List Value) (numbered : Bool) (n : Nat),
    Json.depthOfItems (listToJson vs) ≤ n → Fit (references vs) →
    (listToJson vs).mapM (ofJsonTo? numbered n) = some vs
  | [], _, _, _, _ => rfl
  | v :: vs, numbered, 0, hn, _ => by
    simp [listToJson, Json.depthOfItems, Nat.ne_of_gt (depth_toJson_pos v)] at hn
  | v :: vs, numbered, n + 1, hn, h => by
    simp only [listToJson, Json.depthOfItems, max_le_iff] at hn
    simp only [Fit, references, List.mem_append] at h
    rw [listToJson, List.mapM_cons, ofJsonTo?_toJson v numbered n hn.1 fun ref hr => h ref (.inl hr),
      mapM_ofJsonTo?_listToJson vs numbered (n + 1) hn.2 fun ref hr => h ref (.inr hr)]
    rfl

end

/-- A value that was written is read back. -/
theorem listOfJson?_listToJson (numbered : Bool) {vs : List Value} (h : Fit (references vs)) :
    listOfJson? numbered (.arr (listToJson vs)) = some vs := by
  simp only [listOfJson?, Json.items?, Option.bind_some]
  induction vs with
  | nil => rfl
  | cons v vs ih =>
    simp only [Fit, references, List.mem_append] at h
    obtain ⟨n, hn⟩ : ∃ n, v.toJson.depth = n + 1 := ⟨_, (Nat.succ_pred_eq_of_pos
      (depth_toJson_pos v)).symm⟩
    have hv : ofJson? numbered v.toJson = some v := by
      rw [ofJson?, hn]
      exact ofJsonTo?_toJson v numbered n hn.le fun ref hr => h ref (.inl hr)
    rw [listToJson, List.mapM_cons, hv, ih fun ref hr => h ref (.inr hr)]
    rfl

end writing

end Value

/-! ## Parameters, lines of comments, spellings -/

theorem Parameter.ofJson?_toJson {p : Parameter}
    (h : Value.Fit (Value.references (p.default?.getD []))) :
    Parameter.ofJson? p.toJson = some p := by
  rw [Parameter.ofJson?, Parameter.toJson]
  simp only [Record.ofJson?, Option.bind_eq_bind, Option.bind_some]
  rw [Record.nullable_ofOption (fun value => .arr (Value.listToJson value)) p.default?
    (by simp [List.lookup])
    (fun value hv => Value.listOfJson?_listToJson true (by simpa [Option.mem_def.1 hv] using h))
    (fun _ hnull => nomatch hnull)]
  simp [Record.field, List.lookup]

theorem CommentLine.ofJson?_toJson {l : CommentLine} (h : l.line < 2 ^ 64) :
    CommentLine.ofJson? l.toJson = some l := by
  have hline := Json.nat?_nat h
  simp -implicitDefEqProofs [CommentLine.ofJson?, CommentLine.toJson, Record.ofJson?, Record.field,
    List.lookup, hline]

theorem Spelling.ofJson?_toJson {keyword sigil : String} (hne : keyword ≠ sigil) (s : Spelling) :
    Spelling.ofJson? keyword sigil (s.toJson keyword sigil) = some s := by
  cases s with
  | keyword => simp [Spelling.ofJson?, Spelling.toJson]
  | sigil => simp [Spelling.ofJson?, Spelling.toJson, hne.symm]

theorem Node.list?_map {α : Type} {write : α → Json} {read : Json → Option α} {xs : List α}
    (h : ∀ x ∈ xs, read (write x) = some x) : Node.list? read (.arr (xs.map write)) = some xs := by
  simp only [Node.list?, Json.items?, Option.bind_some]
  induction xs with
  | nil => rfl
  | cons x xs ih =>
    rw [List.map_cons, List.mapM_cons, h x List.mem_cons_self,
      ih fun y hy => h y (List.mem_cons_of_mem x hy)]
    rfl

/-! ## Nodes -/

namespace Node

theorem Fits.line {node : Node} (h : node.Fits) : node.line < 2 ^ 64 :=
  h.1 _ (by simp [counts])

theorem Fits.level {node : Node} {level : Nat} (h : node.Fits) (hl : node.level? = some level) :
    level < 2 ^ 64 :=
  h.1 _ (by simp [counts, hl])

theorem Fits.values {node : Node} (h : node.Fits) : Value.Fit node.references := by
  intro ref href l hl
  have hmem : l ∈ node.targets := List.mem_filterMap.2 ⟨ref, href, hl⟩
  exact ⟨h.1 _ (by simp [counts, List.mem_map_of_mem hmem]),
    h.2 _ (by simp [uris, List.mem_map_of_mem hmem])⟩

theorem toJson_leaf (line : Nat) (l : Leaf) :
    (leaf line l).toJson =
      .obj (("type", .str l.kind.name) :: ("line", .nat line) :: l.fields) := by
  simp [toJson]

/-- A leaf is read back from its fields. -/
theorem leafOfJson?_fields {line : Nat} {l : Leaf} (h : (leaf line l).Fits) :
    leafOfJson? l.kind.name (.obj (("type", .str l.kind.name) :: ("line", .nat line) :: l.fields)) =
      some (leaf line l) := by
  have hline : Json.nat? (.nat line) = some line := Json.nat?_nat h.line
  have hlevel : ∀ level, l.level? = some level → Json.nat? (.nat level) = some level :=
    fun level hl => Json.nat?_nat (h.level hl)
  -- one case for each reader of leaves
  cases l with
  | property level name value | variableDecl level name value =>
    have hvalue := Value.listOfJson?_listToJson true h.values
    show valueLeaf? _ _ = _
    simp -implicitDefEqProofs [valueLeaf?, Leaf.fields, Record.ofJson?, Record.field, List.lookup,
      hline, hlevel level rfl, hvalue]
  | comment level text | extendRule level text | unclassified level text =>
    show textLeaf? _ _ = _
    simp -implicitDefEqProofs [textLeaf?, Leaf.fields, Record.ofJson?, Record.field, List.lookup,
      hline, hlevel level rfl]
  | importPath level path target =>
    have htarget : ∀ u ∈ target, u.Rereads := fun u hu => h.2 u (by simp_all [uris])
    simp -implicitDefEqProofs only [leafOfJson?, Leaf.kind, NodeKind.name, Record.ofJson?,
      Option.bind_eq_bind, Option.bind_some]
    rw [Record.nullable_uri (by simp [Leaf.fields, List.lookup]) htarget]
    simp -implicitDefEqProofs [Leaf.fields, Record.field, List.lookup, hline, hlevel level rfl]
  | useModule path target qualifier =>
    have htarget : ∀ u ∈ target, u.Rereads := fun u hu => h.2 u (by simp_all [uris])
    simp -implicitDefEqProofs only [leafOfJson?, Leaf.kind, NodeKind.name, Record.ofJson?,
      Option.bind_eq_bind, Option.bind_some]
    rw [Record.nullable_uri (by simp [Leaf.fields, List.lookup]) htarget,
      Record.nullable_text qualifier (by simp [Leaf.fields, List.lookup])]
    simp -implicitDefEqProofs [Leaf.fields, Record.field, List.lookup, hline]
  | blockComment level lines =>
    have hlines : list? CommentLine.ofJson? (.arr (lines.map CommentLine.toJson)) = some lines :=
      list?_map fun l hl => CommentLine.ofJson?_toJson (h.1 _ (by
        simp [counts, Node.lines, List.mem_map_of_mem hl]))
    simp -implicitDefEqProofs [leafOfJson?, Leaf.kind, NodeKind.name, Leaf.fields, Record.ofJson?,
      Record.field, List.lookup, hline, hlevel level rfl, hlines]
  | blank =>
    simp -implicitDefEqProofs [leafOfJson?, Leaf.kind, NodeKind.name, Leaf.fields, Record.ofJson?,
      Record.field, List.lookup, hline]
  | mixinCall level spelling text =>
    have hspelling := Spelling.ofJson?_toJson (show "@include" ≠ "+" by decide) spelling
    simp -implicitDefEqProofs [leafOfJson?, Leaf.kind, NodeKind.name, Leaf.fields, Record.ofJson?,
      Record.field, List.lookup, hline, hlevel level rfl, hspelling]

/-- A leaf that was written is read back. -/
theorem ofJsonTo?_leaf {line : Nat} {l : Leaf} (numbered : Bool) (n : Nat)
    (h : (leaf line l).Fits) : ofJsonTo? numbered (n + 1) (leaf line l).toJson = some (leaf line l) := by
  have hkind : ["selector", "mixin", "fontFace"].contains l.kind.name = false := by
    cases l <;> rfl
  rw [toJson_leaf, ofJsonTo?, kindAndRest?_obj]
  simp only [Option.bind_eq_bind, Option.bind_some]
  rw [if_neg (by rw [hkind]; exact Bool.false_ne_true), leafOfJson?_fields h]

theorem toJson_block (line level : Nat) (header : Header) (body : List Node) :
    (block line level header body).toJson =
      .obj (("type", .str header.kind.name) :: ("line", .nat line) :: ("level", .nat level) ::
        (header.fields ++ [("body", .arr (listToJson body))])) := by
  simp [toJson]

/-- The fields of a header hide no other field of its block. -/
theorem lookup_headerFields {name : String} (header : Header) (tail : List (String × Json))
    (hvalue : name ≠ "value") (htype : name ≠ "mixin_type") (hargs : name ≠ "args") :
    (header.fields ++ tail).lookup name = tail.lookup name := by
  have hvalue' : (name == "value") = false := by simpa
  have htype' : (name == "mixin_type") = false := by simpa
  have hargs' : (name == "args") = false := by simpa
  cases header <;> simp [Header.fields, List.lookup, hvalue', htype', hargs']

/-- A header is read back from the fields of its block. -/
theorem headerOf?_fields {header : Header} (kind line level : Json) (tail : List (String × Json))
    (h : Value.Fit (header.parameters.flatMap fun p => Value.references (p.default?.getD []))) :
    headerOf? header.kind.name (fun name =>
      (("type", kind) :: ("line", line) :: ("level", level) :: (header.fields ++ tail)).lookup name) =
      some header := by
  cases header with
  | rule selector =>
    simp -implicitDefEqProofs [headerOf?, Header.kind, NodeKind.name, Header.fields, Record.field,
      List.lookup]
  | mixin spelling name parameters =>
    have hspelling := Spelling.ofJson?_toJson (show "@mixin" ≠ "=" by decide) spelling
    have hparameters : list? Parameter.ofJson? (.arr (parameters.map Parameter.toJson)) =
        some parameters := list?_map fun p hp => Parameter.ofJson?_toJson fun ref hr =>
      h ref (List.mem_flatMap.2 ⟨p, hp, hr⟩)
    simp -implicitDefEqProofs [headerOf?, Header.kind, NodeKind.name, Header.fields, Record.field,
      List.lookup, hspelling, hparameters]
  | fontFace => rfl

/-- A block whose body is read back is read back. -/
theorem ofJsonTo?_block {line level : Nat} {header : Header} {body : List Node} (numbered : Bool)
    {n : Nat} (h : (block line level header body).Fits)
    (hbody : (listToJson body).mapM (ofJsonTo? true n) = some body) :
    ofJsonTo? numbered (n + 1) (block line level header body).toJson =
      some (block line level header body) := by
  have hkind : ["selector", "mixin", "fontFace"].contains header.kind.name = true := by
    cases header <;> rfl
  have hline : Json.nat? (.nat line) = some line := Json.nat?_nat h.line
  have hlevel : Json.nat? (.nat level) = some level := Json.nat?_nat (h.level rfl)
  rw [toJson_block, ofJsonTo?, kindAndRest?_obj]
  simp only [Option.bind_eq_bind, Option.bind_some]
  rw [if_pos hkind]
  simp -implicitDefEqProofs only [Record.ofJson?, Option.bind_some]
  rw [headerOf?_fields _ _ _ _ h.values]
  simp -implicitDefEqProofs [Record.field, List.lookup, lookup_headerFields, hline, hlevel,
    Json.items?, hbody]

theorem depth_toJson_pos (node : Node) : 0 < node.toJson.depth := by
  cases node <;> simp [toJson, Json.depth]

theorem depthOfFields_append (fields tail : List (String × Json)) :
    Json.depthOfFields tail ≤ Json.depthOfFields (fields ++ tail) := by
  induction fields with
  | nil => exact le_rfl
  | cons field fields ih => exact le_max_of_le_right ih

theorem depth_body_lt (line level : Nat) (header : Header) (body : List Node) :
    Json.depthOfItems (listToJson body) + 1 < (block line level header body).toJson.depth := by
  have hfields := depthOfFields_append header.fields [("body", .arr (listToJson body))]
  simp only [toJson_block, Json.depth, Json.depthOfFields] at hfields ⊢
  omega

mutual

/-- A node that was written is read back. -/
theorem ofJsonTo?_toJson : ∀ (node : Node) (numbered : Bool) (n : Nat), node.toJson.depth ≤ n + 1 →
    (∀ m ∈ Tree.listingOfOne node, m.Fits) → ofJsonTo? numbered (n + 1) node.toJson = some node
  | .leaf line l, numbered, n, _, h => ofJsonTo?_leaf numbered n (h _ (List.mem_singleton_self _))
  | .block line level header body, numbered, n, hn, h => by
    have hdepth := depth_body_lt line level header body
    exact ofJsonTo?_block numbered (h _ List.mem_cons_self)
      (mapM_ofJsonTo?_listToJson body true n (by omega) fun m hm => h m (List.mem_cons_of_mem _ hm))

/-- The nodes that were written are read back. -/
theorem mapM_ofJsonTo?_listToJson : ∀ (nodes : List Node) (numbered : Bool) (n : Nat),
    Json.depthOfItems (listToJson nodes) ≤ n → (∀ m ∈ Tree.listing nodes, m.Fits) →
    (listToJson nodes).mapM (ofJsonTo? numbered n) = some nodes
  | [], _, _, _, _ => rfl
  | node :: nodes, numbered, 0, hn, _ => by
    simp [listToJson, Json.depthOfItems, Nat.ne_of_gt (depth_toJson_pos node)] at hn
  | node :: nodes, numbered, n + 1, hn, h => by
    simp only [listToJson, Json.depthOfItems, max_le_iff] at hn
    simp only [Tree.listing, List.mem_append] at h
    rw [listToJson, List.mapM_cons, ofJsonTo?_toJson node numbered n hn.1 fun m hm => h m (.inl hm),
      mapM_ofJsonTo?_listToJson nodes numbered (n + 1) hn.2 fun m hm => h m (.inr hm)]
    rfl

end

/-- A tree that was written is read back. -/
theorem listOfJson?_listToJson {nodes : List Node} (h : ∀ m ∈ Tree.listing nodes, m.Fits) :
    listOfJson? (.arr (listToJson nodes)) = some nodes := by
  simp only [listOfJson?, list?, Json.items?, Option.bind_some]
  induction nodes with
  | nil => rfl
  | cons node nodes ih =>
    simp only [Tree.listing, List.mem_append] at h
    obtain ⟨n, hn⟩ : ∃ n, node.toJson.depth = n + 1 := ⟨_, (Nat.succ_pred_eq_of_pos
      (depth_toJson_pos node)).symm⟩
    have hnode : ofJson? node.toJson = some node := by
      rw [ofJson?, hn]
      exact ofJsonTo?_toJson node false n hn.le fun m hm => h m (.inl hm)
    rw [listToJson, List.mapM_cons, hnode, ih fun m hm => h m (.inr hm)]
    rfl

end Node

/-! ## The numbers of what was read -/

theorem Record.exists_of_nullable {α : Type} {r : Record} {name : String} {read : Json → Option α}
    {a : α} (h : r.nullable name read = some (some a)) : ∃ j, read j = some a := by
  unfold Record.nullable at h
  split at h
  · cases h
  · cases h
  · next j _ _ =>
    obtain ⟨b, hb, hab⟩ := Option.map_eq_some_iff.1 h
    exact ⟨j, Option.some.inj hab ▸ hb⟩

theorem Record.exists_of_field {α : Type} {r : Record} {name : String} {read : Json → Option α}
    {a : α} (h : r.field name read = some a) : ∃ j, read j = some a := by
  obtain ⟨j, -, hj⟩ := Option.bind_eq_some_iff.1 h
  exact ⟨j, hj⟩

theorem Record.lt_of_field {r : Record} {name : String} {n : Nat}
    (h : r.field name Json.nat? = some n) : n < 2 ^ 64 := by
  obtain ⟨j, hj⟩ := exists_of_field h
  exact Json.lt_of_nat? hj

theorem Location.line_lt {j : Json} {l : Location} (h : Location.ofJson? j = some l) :
    l.line < 2 ^ 64 := by
  simp only [Location.ofJson?, Option.bind_eq_bind, Option.bind_eq_some_iff, Option.pure_def,
    Option.some.injEq] at h
  obtain ⟨r, -, uri, -, line, hline, rfl⟩ := h
  exact Record.lt_of_field hline

namespace Value

/-- The lines that references lead to have at most 64 bits. -/
def LinesFit (refs : List Reference) : Prop := ∀ ref ∈ refs, ∀ l ∈ ref.target, l.line < 2 ^ 64

theorem linesFit_references {vs : List Value} (h : ∀ v ∈ vs, LinesFit (referencesOfOne v)) :
    LinesFit (references vs) := by
  induction vs with
  | nil => exact fun ref href => absurd href List.not_mem_nil
  | cons v vs ih =>
    intro ref href
    obtain href | href := List.mem_append.1 href
    · exact h v List.mem_cons_self ref href
    · exact ih (fun w hw => h w (List.mem_cons_of_mem v hw)) ref href

theorem linesFit_of_ofJsonTo? {n : Nat} : ∀ {numbered : Bool} {j : Json} {v : Value},
    ofJsonTo? numbered n j = some v → LinesFit (referencesOfOne v) := by
  induction n with
  | zero => exact fun h => nomatch h
  | succ n ih =>
    intro numbered j v h
    simp only [ofJsonTo?, Option.bind_eq_bind, Option.bind_eq_some_iff, Option.pure_def] at h
    obtain ⟨⟨kind, rest⟩, -, h⟩ := h
    split at h
    · simp only [Option.bind_eq_some_iff, Option.some.injEq] at h
      obtain ⟨r, -, text, -, joined, -, rfl⟩ := h
      exact fun ref href => absurd href List.not_mem_nil
    · simp only [Option.bind_eq_some_iff, Option.some.injEq] at h
      obtain ⟨r, -, text, -, name, -, qualifier, -, target, htarget, joined, -, rfl⟩ := h
      intro ref href l hl
      obtain rfl := List.mem_singleton.1 href
      obtain rfl : target = some l := hl
      obtain ⟨j, hj⟩ := Record.exists_of_nullable htarget
      exact Location.line_lt hj
    · split at h
      · simp only [Option.bind_eq_some_iff, Option.some.injEq] at h
        obtain ⟨r, -, form, -, items, -, body, hbody, joined, -, rfl⟩ := h
        refine linesFit_references fun w hw => ?_
        obtain ⟨j, -, hj⟩ := mem_of_mapM hbody hw
        exact ih hj
      · cases h
    · cases h

theorem linesFit_of_listOfJson? {numbered : Bool} {j : Json} {vs : List Value}
    (h : listOfJson? numbered j = some vs) : LinesFit (references vs) := by
  obtain ⟨items, -, h⟩ := Option.bind_eq_some_iff.1 h
  refine linesFit_references fun v hv => ?_
  obtain ⟨j, -, hj⟩ := mem_of_mapM h hv
  exact linesFit_of_ofJsonTo? hj

end Value

theorem Parameter.linesFit {j : Json} {p : Parameter} (h : Parameter.ofJson? j = some p) :
    Value.LinesFit (Value.references (p.default?.getD [])) := by
  simp only [Parameter.ofJson?, Option.bind_eq_bind, Option.bind_eq_some_iff, Option.pure_def,
    Option.some.injEq] at h
  obtain ⟨r, -, name, -, default?, hdefault, rfl⟩ := h
  cases default? with
  | none => exact fun ref href => absurd href List.not_mem_nil
  | some value =>
    obtain ⟨j, hj⟩ := Record.exists_of_nullable hdefault
    exact Value.linesFit_of_listOfJson? hj

theorem CommentLine.line_lt {j : Json} {l : CommentLine} (h : CommentLine.ofJson? j = some l) :
    l.line < 2 ^ 64 := by
  simp only [CommentLine.ofJson?, Option.bind_eq_bind, Option.bind_eq_some_iff, Option.pure_def,
    Option.some.injEq] at h
  obtain ⟨r, -, line, hline, text, -, rfl⟩ := h
  exact Record.lt_of_field hline

namespace Node

theorem mem_of_list? {α : Type} {read : Json → Option α} {j : Json} {xs : List α} {x : α}
    (h : list? read j = some xs) (hx : x ∈ xs) : ∃ j, read j = some x := by
  obtain ⟨items, -, h⟩ := Option.bind_eq_some_iff.1 h
  obtain ⟨j, -, hj⟩ := mem_of_mapM h hx
  exact ⟨j, hj⟩

/-- The numbers of a node have at most 64 bits. -/
def Counted (node : Node) : Prop := ∀ n ∈ node.counts, n < 2 ^ 64

theorem counted_of {node : Node} (hline : node.line < 2 ^ 64)
    (hlevel : ∀ level ∈ node.level?, level < 2 ^ 64) (hlines : ∀ n ∈ node.lines, n < 2 ^ 64)
    (hvalues : Value.LinesFit node.references) : node.Counted := by
  intro n hn
  simp only [counts, List.cons_append, List.mem_cons, List.mem_append, Option.mem_toList,
    List.mem_map] at hn
  obtain rfl | (hn | hn) | ⟨l, hl, rfl⟩ := hn
  · exact hline
  · exact hlevel n hn
  · exact hlines n hn
  · obtain ⟨ref, href, hl⟩ := List.mem_filterMap.1 hl
    exact hvalues ref href l hl

/-- The numbers of a node and of all nodes under it have at most 64 bits. -/
def AllCounted (node : Node) : Prop := ∀ m ∈ Tree.listingOfOne node, m.Counted

theorem Counted.leaf {line : Nat} {l : Leaf} (h : (Node.leaf line l).Counted) :
    (Node.leaf line l).AllCounted := fun m hm => by
  rwa [List.mem_singleton.1 hm]

/-- A leaf without a value and of one line. -/
theorem allCounted_of_plain {line : Nat} {l : Leaf} (hline : line < 2 ^ 64)
    (hlevel : ∀ level ∈ l.level?, level < 2 ^ 64) (hlines : (leaf line l).lines = [line])
    (hvalues : (leaf line l).references = []) : (leaf line l).AllCounted :=
  (counted_of (show (leaf line l).line < 2 ^ 64 from hline) hlevel (by simpa [hlines] using hline)
    (by rw [hvalues]; exact fun ref href => absurd href List.not_mem_nil)).leaf

theorem allCounted_of_valueLeaf? {make : Nat → Text → List Value → Leaf} {rest : Json} {node : Node}
    (hmake : ∀ line level name value, (leaf line (make level name value)).level? = some level ∧
      (leaf line (make level name value)).lines = [line] ∧
      (leaf line (make level name value)).references = Value.references value)
    (h : valueLeaf? make rest = some node) : node.AllCounted := by
  simp only [valueLeaf?, Option.bind_eq_bind, Option.bind_eq_some_iff, Option.pure_def,
    Option.some.injEq] at h
  obtain ⟨r, -, line, hline, level, hlevel, name, -, value, hvalue, rfl⟩ := h
  obtain ⟨hl, hlines, hvalues⟩ := hmake line level name value
  obtain ⟨j, hj⟩ := Record.exists_of_field hvalue
  refine (counted_of (Record.lt_of_field hline) ?_ ?_ ?_).leaf
  · rw [hl]
    rintro _ ⟨⟩
    exact Record.lt_of_field hlevel
  · simpa [hlines] using Record.lt_of_field hline
  · rw [hvalues]
    exact Value.linesFit_of_listOfJson? hj

theorem allCounted_of_textLeaf? {make : Nat → Text → Leaf} {rest : Json} {node : Node}
    (hmake : ∀ line level text, (make level text).level? = some level ∧
      (leaf line (make level text)).lines = [line] ∧
      (leaf line (make level text)).references = [])
    (h : textLeaf? make rest = some node) : node.AllCounted := by
  simp only [textLeaf?, Option.bind_eq_bind, Option.bind_eq_some_iff, Option.pure_def,
    Option.some.injEq] at h
  obtain ⟨r, -, line, hline, level, hlevel, text, -, rfl⟩ := h
  obtain ⟨hl, hlines, hvalues⟩ := hmake line level text
  refine allCounted_of_plain (Record.lt_of_field hline) ?_ hlines hvalues
  rw [hl]
  rintro _ ⟨⟩
  exact Record.lt_of_field hlevel

theorem allCounted_of_leafOfJson? {kind : String} {rest : Json} {node : Node}
    (h : leafOfJson? kind rest = some node) : node.AllCounted := by
  unfold leafOfJson? at h
  -- the kinds in the order in which they are compared
  split at h
  case h_1 => exact allCounted_of_valueLeaf? (fun _ _ _ _ => ⟨rfl, rfl, rfl⟩) h
  case h_2 => exact allCounted_of_valueLeaf? (fun _ _ _ _ => ⟨rfl, rfl, rfl⟩) h
  case h_5 => exact allCounted_of_textLeaf? (fun _ _ _ => ⟨rfl, rfl, rfl⟩) h
  case h_8 => exact allCounted_of_textLeaf? (fun _ _ _ => ⟨rfl, rfl, rfl⟩) h
  case h_10 => exact allCounted_of_textLeaf? (fun _ _ _ => ⟨rfl, rfl, rfl⟩) h
  case h_11 => cases h
  all_goals
    simp only [Option.bind_eq_bind, Option.bind_eq_some_iff, Option.pure_def,
      Option.some.injEq] at h
  case h_3 =>
    obtain ⟨r, -, line, hline, level, hlevel, path, -, target, -, rfl⟩ := h
    exact allCounted_of_plain (Record.lt_of_field hline)
      (by rintro _ ⟨⟩; exact Record.lt_of_field hlevel) rfl rfl
  case h_4 =>
    obtain ⟨r, -, line, hline, path, -, target, -, qualifier, -, rfl⟩ := h
    exact allCounted_of_plain (Record.lt_of_field hline) (fun _ h => nomatch h) rfl rfl
  case h_6 =>
    obtain ⟨r, -, line, hline, level, hlevel, lines, hlines, rfl⟩ := h
    obtain ⟨j, hj⟩ := Record.exists_of_field hlines
    refine (counted_of (Record.lt_of_field hline) (by rintro _ ⟨⟩; exact Record.lt_of_field hlevel)
      (fun n hn => ?_) (fun ref href => absurd href List.not_mem_nil)).leaf
    obtain ⟨l, hl, rfl⟩ := List.mem_map.1 hn
    obtain ⟨k, hk⟩ := mem_of_list? hj hl
    exact CommentLine.line_lt hk
  case h_7 =>
    obtain ⟨r, -, line, hline, rfl⟩ := h
    exact allCounted_of_plain (Record.lt_of_field hline) (fun _ h => nomatch h) rfl rfl
  case h_9 =>
    obtain ⟨r, -, line, hline, level, hlevel, text, -, spelling, -, rfl⟩ := h
    exact allCounted_of_plain (Record.lt_of_field hline)
      (by rintro _ ⟨⟩; exact Record.lt_of_field hlevel) rfl rfl

theorem linesFit_of_headerOf? {kind : String} {r : Record} {header : Header}
    (h : headerOf? kind r = some header) :
    Value.LinesFit (header.parameters.flatMap fun p => Value.references (p.default?.getD [])) := by
  unfold headerOf? at h
  split at h
  · simp only [Option.bind_eq_bind, Option.bind_eq_some_iff, Option.pure_def,
      Option.some.injEq] at h
    obtain ⟨selector, -, rfl⟩ := h
    exact fun ref href => absurd href List.not_mem_nil
  · simp only [Option.bind_eq_bind, Option.bind_eq_some_iff, Option.pure_def,
      Option.some.injEq] at h
    obtain ⟨name, -, spelling, -, parameters, hparameters, rfl⟩ := h
    intro ref href
    obtain ⟨p, hp, href⟩ := List.mem_flatMap.1 href
    obtain ⟨j, hj⟩ := Record.exists_of_field hparameters
    obtain ⟨k, hk⟩ := mem_of_list? hj hp
    exact Parameter.linesFit hk ref href
  · obtain rfl := Option.some.inj h
    exact fun ref href => absurd href List.not_mem_nil
  · cases h

theorem forall_mem_listing {P : Node → Prop} {nodes : List Node}
    (h : ∀ node ∈ nodes, ∀ m ∈ Tree.listingOfOne node, P m) : ∀ m ∈ Tree.listing nodes, P m := by
  induction nodes with
  | nil => exact fun m hm => absurd hm List.not_mem_nil
  | cons node nodes ih =>
    intro m hm
    obtain hm | hm := List.mem_append.1 hm
    · exact h node List.mem_cons_self m hm
    · exact ih (fun k hk => h k (List.mem_cons_of_mem node hk)) m hm

theorem allCounted_of_ofJsonTo? {n : Nat} : ∀ {numbered : Bool} {j : Json} {node : Node},
    ofJsonTo? numbered n j = some node → node.AllCounted := by
  induction n with
  | zero => exact fun h => nomatch h
  | succ n ih =>
    intro numbered j node h
    simp only [ofJsonTo?, Option.bind_eq_bind, Option.bind_eq_some_iff, Option.pure_def] at h
    obtain ⟨⟨kind, rest⟩, -, h⟩ := h
    split at h
    · simp only [Option.bind_eq_some_iff, Option.some.injEq] at h
      obtain ⟨r, -, line, hline, level, hlevel, header, hheader, items, -, body, hbody, rfl⟩ := h
      intro m hm
      obtain rfl | hm := List.mem_cons.1 hm
      · exact counted_of (Record.lt_of_field hline)
          (by rintro _ ⟨⟩; exact Record.lt_of_field hlevel)
          (by simpa [Node.lines, Node.line] using Record.lt_of_field hline)
          (linesFit_of_headerOf? hheader)
      · refine forall_mem_listing (fun k hk => ?_) m hm
        obtain ⟨i, -, hi⟩ := mem_of_mapM hbody hk
        exact ih hi
    · exact allCounted_of_leafOfJson? h

/-- The numbers of a tree that was read have at most 64 bits. -/
theorem counted_of_listOfJson? {j : Json} {nodes : List Node} (h : listOfJson? j = some nodes) :
    ∀ m ∈ Tree.listing nodes, m.Counted :=
  forall_mem_listing fun node hnode => by
    obtain ⟨i, hi⟩ := mem_of_list? h hnode
    exact allCounted_of_ofJsonTo? hi

end Node

/-- A tree whose numbers have at most 64 bits and whose URIs are read back from their texts
    is read back from its JSON form; and so is a tree that was read from any JSON value, as
    long as its URIs are. -/
theorem Tree.survives_json :
    (∀ nodes : List Node,
      (∀ node ∈ listing nodes, (∀ n ∈ node.counts, n < 2 ^ 64) ∧ ∀ u ∈ node.uris, u.Rereads) →
      Node.listOfJson? (.arr (Node.listToJson nodes)) = some nodes) ∧
    ∀ (j : Json) (nodes : List Node), Node.listOfJson? j = some nodes →
      (∀ node ∈ listing nodes, ∀ u ∈ node.uris, u.Rereads) →
      Node.listOfJson? (.arr (Node.listToJson nodes)) = some nodes := by
  refine ⟨fun nodes h => Node.listOfJson?_listToJson h, fun j nodes h huris => ?_⟩
  exact Node.listOfJson?_listToJson fun node hnode =>
    ⟨Node.counted_of_listOfJson? h node hnode, huris node hnode⟩

/-- The object of an `@import` on the first line, and other fields. -/
def importObject (uri : String) (more : List (String × Json)) : Json :=
  .obj ([("type", .str "import"), ("line", .nat 0), ("level", .nat 0), ("value", .str "a"),
    ("uri", .str uri)] ++ more)

/-- The node that such an object is read as. -/
def importNode (uri : Uri) : Node := .leaf 0 (.importPath 0 "a".toList (some uri))

theorem Node.listOfJson?_importObject {s : String} {u : Uri} (more : List (String × Json))
    (h : Uri.ofJson? (.str s) = some u) :
    Node.listOfJson? (.arr [importObject s more]) = some [importNode u] := by
  have hzero : Json.nat? (.nat 0) = some 0 := Json.nat?_nat (by decide)
  simp -implicitDefEqProofs [listOfJson?, list?, Json.items?, ofJson?, importObject, importNode,
    Json.depth, ofJsonTo?, kindAndRest?, kindName?, List.lookup, leafOfJson?, Record.ofJson?,
    Record.field, Record.nullable, Text.ofJson?, Json.str?, hzero, h]

/-- An `@import` is read back from what it is written as, and so is the one that was read from an
    object with a shorter spelling of its URI and a field too many. -/
theorem Tree.survives_json_import :
    let u : Uri := ⟨"file".toList, some ⟨[], [], none⟩, "/b.sass".toList, none, none⟩
    Node.listOfJson? (.arr (Node.listToJson [importNode u])) = some [importNode u] ∧
      Node.listOfJson? (.arr [importObject "file:/b.sass" [("more", .null)]]) =
        some [importNode u] ∧
      Node.listOfJson? (.arr (Node.listToJson [importNode u])) = some [importNode u] := by
  intro u
  have hu : u.Rereads := by
    unfold Uri.Rereads
    decide +kernel
  have huris : ∀ node ∈ listing [importNode u], ∀ v ∈ node.uris, v.Rereads := by
    intro node hnode v hv
    obtain rfl := List.mem_singleton.1 hnode
    obtain rfl := List.mem_singleton.1 hv
    exact hu
  have hcounts : ∀ node ∈ listing [importNode u], ∀ n ∈ node.counts, n < 2 ^ 64 := by
    intro node hnode
    obtain rfl := List.mem_singleton.1 hnode
    decide
  have hread := Node.listOfJson?_importObject (s := "file:/b.sass") (u := u) [("more", .null)]
    (by decide +kernel)
  exact ⟨survives_json.1 _ fun node hnode => ⟨hcounts node hnode, huris node hnode⟩,
    hread, survives_json.2 _ _ hread huris⟩

/-- The bar behind the letter of a drive is read as a colon only where the path starts with
    the drive.  Behind a host and two slashes it does so only when the URI is written and
    read again. -/
theorem Tree.drive_changes_json :
    ¬∀ (j : Json) (nodes : List Node), Node.listOfJson? j = some nodes →
      Node.listOfJson? (.arr (Node.listToJson nodes)) = some nodes := by
  intro h
  let u : Uri := ⟨"file".toList, some ⟨[], "host".toList, none⟩, "/C|/y".toList, none, none⟩
  let v : Uri := ⟨"file".toList, some ⟨[], [], none⟩, "/C:/y".toList, none, none⟩
  have hread := Node.listOfJson?_importObject (s := "file://host//C|/y") (u := u) []
    (by decide +kernel)
  have hagain := Node.listOfJson?_importObject (s := "file://host/C|/y") (u := v) []
    (by decide +kernel)
  have hwritten : Node.listToJson [importNode u] = [importObject "file://host/C|/y" []] := by
    have htext : u.string = "file://host/C|/y" := by decide +kernel
    simp [Node.listToJson, Node.toJson, importNode, importObject, Leaf.kind, NodeKind.name,
      Leaf.fields, Text.toJson, Uri.toJson, Json.ofOption, htext, Text.string]
  have hsame := h _ _ hread
  rw [hwritten, hagain] at hsame
  have huv : v = u := by simpa [importNode] using hsame
  exact absurd huv (by decide)

end IndentedSass
