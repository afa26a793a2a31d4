/-
  Declarations are read as declarations.

  A line that is told to be a property or a variable can be cut, so it is read as the node of
  its kind and never kept as a line that is nothing known.

  * `Leaf.declared?` is what a leaf declares, and by which kind of line;
  * `Tree.DeclaresAt`: a tree has the node of a declaration (`Reader.Step.declaration`,
    `Reader.Declaring.reads`);
  * `readFile_declares`: the declarations of a file are nodes of its tree, each the only node
    of its line (`Reader.Declaring` is the invariant);
  * `kind_tells` puts this together with what tells the kind of a line.
-/
import Mathlib
import IndentedSass.Proofs.Line.Declarations
import IndentedSass.Proofs.Reader.Coverage

namespace IndentedSass

/-- The kind of line that a leaf is the declaration of, and the name that it declares. -/
def Leaf.declared? : Leaf → Option (LineKind × Text)
  | .property _ name _ => some (.property, name)
  | .variableDecl _ name _ => some (.variableDecl, name)
  | _ => none

namespace Tree

/-- At a path the line `i` of a kind stands as the declaration that it is cut into. -/
def DeclaresAt (nodes : List Node) (i : Nat) (line : Text) (kind : LineKind) (path : TreePath) :
    Prop :=
  ∃ leaf d, nodeAt? nodes path = some (.leaf i leaf) ∧ Line.CutAs line kind d ∧
    leaf.declared? = some (kind, d.name)

variable {nodes nodes' : List Node} {i : Nat} {line : Text} {kind : LineKind} {path : TreePath}

theorem DeclaresAt.mono (h : DeclaresAt nodes i line kind path) (hextends : Extends nodes nodes') :
    DeclaresAt nodes' i line kind path := by
  obtain ⟨leaf, d, hnode, hcut, hleaf⟩ := h
  refine ⟨leaf, d, hextends.leaf (fun level lines hl => ?_) hnode, hcut, hleaf⟩
  rw [hl] at hleaf
  cases hleaf

end Tree

namespace Reader

variable {find : Nat → Finder} {r r' : Reader} {uri : Uri} {style : IndentStyle}
  {done : List Text} {info : LineInfo} {line : Text} {kind : LineKind} {nodes : List Node}

/-- A line that is told to be a declaration adds the node of the declaration. -/
theorem Step.declaration (h : Step find r info line kind nodes r')
    (hkind : kind = .property ∨ kind = .variableDecl) (hline : Line.kindOutsideComment line = kind) :
    ∃ leaf d, nodes = [.leaf info.index leaf] ∧ Line.CutAs line kind d ∧
      leaf.declared? = some (kind, d.name) := by
  obtain ⟨d, hcut⟩ := Line.exists_cutAs hkind hline
  have hsplit := hcut.split
  cases h with
  | opens _ ho => cases ho <;> simp at hkind
  | closes _ hc =>
    cases hc with
    | property hd =>
      cases hsplit.symm.trans hd
      exact ⟨_, d, rfl, hcut, rfl⟩
    | noColon _ hnone =>
      rw [hsplit] at hnone
      cases hnone
    | _ => simp at hkind
  | declares _ hd =>
    cases hsplit.symm.trans hd
    exact ⟨_, d, rfl, hcut, rfl⟩
  | keeps _ hk => cases hk <;> simp at hkind
  | comments | imports | uses => simp at hkind

/-- The declarations among the lines that were read are nodes of the tree. -/
def Declaring (style : IndentStyle) (done : List Text) (r : Reader) : Prop :=
  ∀ (i : Nat) line kind, kind = .property ∨ kind = .variableDecl → done[i]? = some line →
    (kindsOf style done)[i]? = some kind → ∃ path, Tree.DeclaresAt r.nodes i line kind path

/-- The declarations that were nodes stay nodes; only the last line needs a proof. -/
theorem Declaring.snoc (hd : Declaring style done r) (ha : After uri style done r)
    (hextends : Tree.Extends r.nodes r'.nodes)
    (hnew : r.kindOf line = .property ∨ r.kindOf line = .variableDecl →
      ∃ path, Tree.DeclaresAt r'.nodes done.length line (r.kindOf line) path) :
    Declaring style (done ++ [line]) r' := by
  intro i line' kind hkind hline hk
  rw [ha.kindsOf_snoc] at hk
  rcases getElem?_snoc hk with hold | ⟨rfl, rfl⟩
  · have hlt : i < done.length := by
      rw [← kindsOf_length]
      exact (List.getElem?_eq_some_iff.1 hold).1
    rw [List.getElem?_append_left hlt] at hline
    obtain ⟨path, hpath⟩ := hd i line' kind hkind hline hold
    exact ⟨path, hpath.mono hextends⟩
  · rw [kindsOf_length, List.getElem?_concat_length] at hline
    cases hline
    rw [kindsOf_length]
    exact hnew hkind

theorem Declaring.reads (hd : Declaring style done r) (ha : After uri style done r)
    (h : Reads find r done.length line r') : Declaring style (done ++ [line]) r' := by
  refine hd.snoc ha (h.extends ha.sound) fun hkind => ?_
  cases h with
  | waits hk => simp [hk] at hkind
  | goesOn _ hk => simp [hk] at hkind
  | steps _ hcontent hstep =>
    obtain ⟨leaf, d, hnodes, hcut, hleaf⟩ :=
      hstep.declaration hkind (Line.kind_eq_outside hcontent).symm
    have htarget := (ha.sound.settled (r.lineInfo done.length line)).hasTarget
      (r.lineInfo done.length line)
    refine ⟨(r.settled (r.lineInfo done.length line)).slot (r.lineInfo done.length line), leaf, d, ?_,
      hcut, hleaf⟩
    rw [hstep.nodes_eq, hnodes]
    exact nodeAt?_slot htarget

end Reader

/-- The declarations of a file are nodes of its tree, and their lines have no other nodes. -/
theorem readFile_declares {σ : Type} (resolver : Resolver σ) (files : σ) (uri : Uri)
    (style : IndentStyle) (text : Text) {i : Nat} {line : Text} {kind : LineKind}
    (hkind : kind = .property ∨ kind = .variableDecl)
    (hline : (text.lines.map Text.dropReturn)[i]? = some line)
    (hk : (Reader.kindsOf style (text.lines.map Text.dropReturn))[i]? = some kind) :
    let tree := (readFile resolver files uri style text).entry.body
    ∃ path, Tree.DeclaresAt tree i line kind path ∧
      ∀ q node, Tree.nodeAt? tree q = some node → i ∈ node.lines → q = path := by
  intro tree
  obtain ⟨-, hdeclares⟩ := Reading.readLines_run resolver (P := Reader.Declaring style)
    (fun i line kind _ hline => by simp at hline)
    (fun files done r line r' ha hd hreads => hd.reads ha hreads) files text.lines
  have htree : tree = Tree.graft _ _ [] := congrArg Reader.nodes (Reader.flushBlanks_eq rfl)
  obtain ⟨path, hpath⟩ := hdeclares i line kind hkind hline hk
  have hhere : Tree.DeclaresAt tree i line kind path := by
    rw [htree]
    exact hpath.mono (Tree.extends_graft _ rfl)
  refine ⟨path, hhere, fun q node hq hi => ?_⟩
  obtain ⟨leaf, d, hnode, -, hleaf⟩ := hhere
  have himport : kind ≠ .importPaths := by
    rcases hkind with rfl | rfl <;> decide
  refine ((covers_readFile resolver files uri style text).path_eq hk himport hline hnode hq ?_
    hi).symm
  cases leaf with
  | property | variableDecl => exact List.mem_singleton_self i
  | _ => cases hleaf

/-- The blanks around a line do not tell its kind.  A line that is told to be a property or a
    variable is cut at the colon by which it is told, and in every file it is read as the node
    of the name before that colon. -/
theorem kind_tells (line : Text) :
    (∀ line', Line.SameInside line line' → line.trim ≠ ['+'] → ∀ tab tab',
      Line.kind tab' none line' = Line.kind tab none line) ∧
    ∀ kind, kind = .property ∨ kind = .variableDecl →
      (∀ tab opened, Line.kind tab opened line = kind → ∃ d, Line.CutAs line kind d) ∧
      ∀ {σ : Type} (resolver : Resolver σ) (files : σ) (uri : Uri) (style : IndentStyle) (text : Text)
        (i : Nat),
        let lines := text.lines.map Text.dropReturn
        let tree := (readFile resolver files uri style text).entry.body
        lines[i]? = some line → (Line.kinds style.tabStop none lines)[i]? = some kind →
          ∃ path, Tree.DeclaresAt tree i line kind path ∧
            ∀ q node, Tree.nodeAt? tree q = some node → i ∈ node.lines → q = path := by
  refine ⟨fun line' hsame hplus tab tab' => hsame.kind_eq hplus, fun kind hkind => ⟨?_, ?_⟩⟩
  · intro tab opened hk
    have hcontent : Line.kind tab opened line ≠ .blockCommentContent := by
      rw [hk]
      rcases hkind with rfl | rfl <;> decide
    exact Line.exists_cutAs hkind ((Line.kind_eq_outside hcontent).symm.trans hk)
  · intro σ resolver files uri style text i lines tree hline hk
    exact readFile_declares resolver files uri style text hkind hline hk

/-- A custom property is told as a variable, with a tab before its colon and another colon in a
    string, at any indentation and also where a block comment was open before it. -/
theorem kind_tells_custom :
    let uri : Uri := ⟨"file".toList, none, "/a.sass".toList, none, none⟩
    let line : Text := "  --x\t: 'a:b'".toList
    let line' : Text := "\t--x\t: 'a:b' ".toList
    let text : Text := ".a\n  --x\t: 'a:b'".toList
    Line.SameInside line line' ∧ Line.kind 4 none line' = Line.kind 2 none line ∧
      Line.kind 2 (some 8) line = .variableDecl ∧ (∃ d, Line.CutAs line .variableDecl d) ∧
      ∃ path, Tree.DeclaresAt (readFile .detached () uri {} text).entry.body 1 line .variableDecl path := by
  intro uri line line' text
  have hsame : Line.SameInside line line' := by
    refine ⟨"--x\t: 'a:b'".toList, [' ', ' '], [], ['\t'], [' '], ?_, ?_, ?_, ?_, rfl, rfl⟩ <;>
      exact List.all_eq_true.1 rfl
  have hkind : Line.kind 2 (some 8) line = .variableDecl := by decide +kernel
  obtain ⟨haround, hdeclared⟩ := kind_tells line
  obtain ⟨hcut, hread⟩ := hdeclared .variableDecl (.inr rfl)
  obtain ⟨path, hpath, -⟩ := hread .detached () uri {} text 1 (by decide) (by decide +kernel)
  exact ⟨hsame, haround line' hsame (by decide) 2 4, hkind, hcut 2 (some 8) hkind, path, hpath⟩

end IndentedSass
