/-
  What a line says on its own.

  The nodes that a line adds to a tree depend on the lines around it in two respects only:
  where they stand, and where their references lead.  The rest is a function of the line.

  * `Line.nodes` is that function, for a line of a kind at a level;
  * `Reader.Step.sketch_nodes`: the nodes of a step have this sketch, unless the step is a
    `@use` that comes too late;
  * `Line.nodes_blanks`: the indentation of the line does not matter.
-/
import Mathlib
import IndentedSass.Proofs.Reader.Shape
import IndentedSass.Proofs.Reader.Written
import IndentedSass.Proofs.Tree.Sketch

namespace IndentedSass

/-- The parts of a value, wherever its references lead. -/
def valueParts (raw : Text) : List Value :=
  Value.shape (readValue (fun _ _ _ _ => none) ⟨0, 0, 0⟩ raw).1

theorem shape_eq_valueParts (lookup : Lookups) (place : ValuePlace) (raw : Text) :
    Value.shape (readValue lookup place raw).1 = valueParts raw :=
  shape_readValue ..

/-- A parameter of a mixin, wherever its references lead. -/
def Parameter.parts (written : Text) : Parameter :=
  match Line.splitDeclaration? written with
  | none => ⟨written.trim, none⟩
  | some d => ⟨d.name, some (valueParts d.value)⟩

theorem Parameter.shape_ofText (lookup : Lookups) (line level : Nat) (written : Text × Nat) :
    (Parameter.ofText lookup line level written).shape = Parameter.parts written.1 := by
  unfold Parameter.ofText Parameter.parts
  cases Line.splitDeclaration? written.1 with
  | none => rfl
  | some d => simp only [Parameter.shape, Option.map_some, shape_eq_valueParts]

theorem Parameter.map_shape_ofText (lookup : Lookups) (line level : Nat)
    (written : List (Text × Nat)) :
    (written.map (Parameter.ofText lookup line level)).map Parameter.shape =
      (written.map Prod.fst).map Parameter.parts := by
  rw [List.map_map, List.map_map]
  exact List.map_congr_left fun w _ => Parameter.shape_ofText lookup line level w

/-- What a line of a kind adds to a tree at a level, without line numbers and targets. -/
def Line.nodes (level : Nat) (line : Text) : LineKind → List Node
  | .blank | .blockCommentContent => []
  | .selector => [.block 0 level (.rule line.trim) []]
  | .fontFace => [.block 0 level .fontFace []]
  | .mixin =>
    let clause := MixinClause.ofLine line
    let parameters := (clause.parameters.map Prod.fst).map Parameter.parts
    [.block 0 level (.mixin clause.spelling clause.name parameters) []]
  | .property =>
    match splitDeclaration? line with
    | none => [.leaf 0 (.unclassified level line.trim)]
    | some d => [.leaf 0 (.property level d.name (valueParts d.value))]
  | .variableDecl =>
    match splitDeclaration? line with
    | none => [.leaf 0 (.unclassified level line.trim)]
    | some d => [.leaf 0 (.variableDecl level d.name (valueParts d.value))]
  | .mixinCall => [.leaf 0 (.mixinCall level (mixinCall line).1 (mixinCall line).2)]
  | .extendRule => [.leaf 0 (.extendRule level (extended line))]
  | .importPaths =>
    match importPaths? line with
    | none | some [] => [.leaf 0 (.unclassified level line.trim)]
    | some paths => paths.map fun path => .leaf 0 (.importPath level path none)
  | .useModule =>
    match UseClause.ofLine? line with
    | none => [.leaf 0 (.unclassified level line.trim)]
    | some clause => [.leaf 0 (.useModule clause.path none clause.qualifier)]
  | .comment => [.leaf 0 (.comment level line.trim)]
  | .blockCommentStart => [.leaf 0 (.blockComment level [⟨0, line.trim⟩])]
  | .literal => [.leaf 0 (.unclassified level line.trim)]

namespace Line

theorem nodes_importPaths {line : Text} {paths : List Text} (h : importPaths? line = some paths)
    (hne : paths ≠ []) (level : Nat) :
    nodes level line .importPaths = paths.map fun path => .leaf 0 (.importPath level path none) := by
  cases paths with
  | nil => exact absurd rfl hne
  | cons path rest => simp only [nodes, h]

/-- The indentation of a line does not matter for what it says. -/
theorem nodes_blanks {pre : Text} (h : Blanks pre) (level : Nat) (line : Text) (kind : LineKind) :
    nodes level (pre ++ line) kind = nodes level line kind := by
  have htrim := Text.trim_blanks h line
  have hbody := Text.body_blanks h line
  cases kind with
  | property | variableDecl =>
    simp only [nodes, splitDeclaration?_blanks h, htrim]
    cases splitDeclaration? line <;> rfl
  | mixin =>
    obtain ⟨hspelling, hname, hparameters⟩ := MixinClause.ofLine_blanks h line
    simp only [nodes, hspelling, hname, hparameters]
  | mixinCall => simp only [nodes, mixinCall, htrim]
  | extendRule => simp only [nodes, extended, htrim]
  | importPaths => simp only [nodes, importPaths?, hbody, htrim]
  | useModule => simp only [nodes, UseClause.ofLine?, hbody, htrim]
  | selector | comment | blockCommentStart | literal => simp only [nodes, htrim]
  | blank | blockCommentContent | fontFace => rfl

end Line

namespace Reader

variable {find : Nat → Finder} {r r' : Reader} {info : LineInfo} {line : Text}
  {kind : LineKind} {nodes : List Node}

theorem Opens.sketch_eq {header : Header} (h : Opens find r info line kind header) (level : Nat) :
    [.block 0 level header.sketch []] = Line.nodes level line kind := by
  cases h with
  | rule => rfl
  | fontFace => rfl
  | mixin => simp only [Line.nodes, Header.sketch_mixin, Parameter.map_shape_ofText]

theorem Closes.sketch_eq {leaf : Leaf} (h : Closes find r info line kind leaf) :
    [.leaf 0 leaf.sketch] = Line.nodes (r.levelOf info) line kind := by
  cases h with
  | property hd => simp only [Line.nodes, hd, Leaf.sketch_property, shape_eq_valueParts]
  | mixinCall | extendRule | literal => rfl
  | noColon hk hd => rcases hk with rfl | rfl <;> simp only [Line.nodes, hd] <;> rfl
  | noPaths hp => rcases hp with hp | hp <;> simp only [Line.nodes, hp] <;> rfl
  | noModule _ hm => simp only [Line.nodes, hm]; rfl

theorem Closes.ne_blank {leaf : Leaf} (h : Closes find r info line kind leaf) :
    leaf ≠ .blank := by
  cases h <;> exact Leaf.noConfusion

/-- A step adds what its line says. -/
theorem Step.sketch_nodes (h : Step find r info line kind nodes r')
    (hlate : kind = .useModule → r.useAllowed = true) :
    Tree.sketch nodes = Line.nodes (r.levelOf info) line kind := by
  cases h with
  | opens _ ho => rw [Tree.sketch_block, ← ho.sketch_eq, Tree.sketch_nil]
  | closes _ hc => rw [Tree.sketch_leaf hc.ne_blank, hc.sketch_eq]
  | declares _ hd hv =>
    rw [Tree.sketch_leaf Leaf.noConfusion, Leaf.sketch_variableDecl, hv, shape_eq_valueParts]
    simp only [Line.nodes, hd]
  | keeps _ hk =>
    cases hk with
    | comment => rfl
    | lateUse hu =>
      rw [hlate rfl] at hu
      cases hu
  | comments => rfl
  | @imports paths targets _ _ hp hne hlen =>
    rw [Line.nodes_importPaths hp hne]
    clear hp hne
    induction paths generalizing targets with
    | nil => rfl
    | cons path rest ih =>
      cases targets with
      | nil => cases hlen
      | cons target targets =>
        rw [List.zipWith_cons_cons, Tree.sketch_cons, ih (Nat.succ.inj hlen)]
        rfl
  | uses _ _ hu hm =>
    simp only [Line.nodes, hm]
    rfl

end Reader

end IndentedSass
