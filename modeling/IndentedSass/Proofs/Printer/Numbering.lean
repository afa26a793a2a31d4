/-
  A tree in step with its text.

  Writing a tree numbers its nodes by the lines that are written and drops the blank lines
  that repeat the one before them, so what is left is the tree of the text.

  * `Tree.repeatsBlank` and `Tree.without`: the places of the document at which a blank line
    repeats another, and a tree without the nodes at some places;
  * `print_texts`, `print_numbers` and `print_lines_node`: the lines written are those of the
    nodes that are left, which are numbered one after the other;
  * `print_without`: nothing but those blank lines is dropped;
  * `print_print`: what was written once is written as it is;
  * `renumbered_spec` puts them together.
-/
import Mathlib
import IndentedSass.Proofs.Printer.Order
import IndentedSass.Proofs.Tree.Lines
import IndentedSass.Proofs.Reader.Parameters
import IndentedSass.Proofs.Reader.Reread

namespace IndentedSass

/-! ## The strings of a node -/

namespace Value

mutual

/-- The strings of a part of a value. -/
def stringsOfOne : Value → List Text
  | literal text _ => [text]
  | reference ref _ => [ref.text]
  | compound (.call name) body _ => name :: strings body
  | compound .interpolation body _ => strings body

/-- The strings of a value. -/
def strings : List Value → List Text
  | [] => []
  | v :: vs => stringsOfOne v ++ strings vs

end

theorem mem_of_mem_dropSpace {c : Char} {t : Text} (h : c ∈ dropSpace t) : c ∈ t := by
  unfold dropSpace at h
  split at h
  · exact List.mem_cons_of_mem _ h
  · exact h

theorem feed_gap (joined : Bool) : '\n' ∉ gap joined := by
  cases joined <;> decide

mutual

theorem feed_renderOne : ∀ v : Value, (∀ s ∈ stringsOfOne v, '\n' ∉ s) → '\n' ∉ renderOne v
  | literal text j, h => by
    have htext := h text (by simp [stringsOfOne])
    simp [renderOne, feed_gap, htext]
  | reference ref j, h => by
    have htext := h ref.text (by simp [stringsOfOne])
    simp [renderOne, feed_gap, htext]
  | compound (.call name) body j, h => by
    have hname := h name (by simp [stringsOfOne])
    have hbody := feed_render body fun s hs => h s (by simp [stringsOfOne, hs])
    simp [renderOne, feed_gap, Form.opening, Form.closing, hname,
      mt mem_of_mem_dropSpace hbody]
  | compound .interpolation body j, h => by
    have hbody := feed_render body fun s hs => h s (by simpa [stringsOfOne] using hs)
    simp [renderOne, feed_gap, Form.opening, Form.closing, mt mem_of_mem_dropSpace hbody]

/-- A value is written on one line. -/
theorem feed_render : ∀ vs : List Value, (∀ s ∈ strings vs, '\n' ∉ s) → '\n' ∉ render vs
  | [], _ => List.not_mem_nil
  | v :: vs, h => by
    have hv := feed_renderOne v fun s hs => h s (List.mem_append_left _ hs)
    have hvs := feed_render vs fun s hs => h s (List.mem_append_right _ hs)
    simp [render, hv, hvs]

end

end Value

/-- The strings of a parameter. -/
def Parameter.strings (p : Parameter) : List Text :=
  p.name :: match p.default? with
    | some value => Value.strings value
    | none => []

/-- The strings of a header. -/
def Header.strings : Header → List Text
  | rule selector => [selector]
  | mixin _ name parameters => name :: parameters.flatMap Parameter.strings
  | fontFace => []

/-- The strings of a leaf. -/
def Leaf.strings : Leaf → List Text
  | property _ name value | variableDecl _ name value => name :: Value.strings value
  | importPath _ path _ => [path]
  | useModule path _ qualifier => path :: qualifier.toList
  | comment _ text | unclassified _ text | extendRule _ text | mixinCall _ _ text => [text]
  | blockComment _ lines => lines.map CommentLine.text
  | blank => []

/-- The strings that a node itself is written with. -/
def Node.strings : Node → List Text
  | leaf _ l => l.strings
  | block _ _ header _ => header.strings

theorem Indent.feed_ofLevel (style : IndentStyle) (level : Nat) :
    '\n' ∉ Indent.ofLevel style level :=
  fun h => absurd (Indent.blanks_ofLevel style level _ h) (by decide)

theorem Parameter.feed_text_of_strings {p : Parameter} (h : ∀ s ∈ p.strings, '\n' ∉ s) : '\n' ∉ p.text := by
  obtain ⟨name, default?⟩ := p
  cases default? with
  | none => exact h name (List.mem_cons_self ..)
  | some value =>
    have hname := h name (List.mem_cons_self ..)
    have hvalue := Value.feed_render value fun s hs => h s (List.mem_cons_of_mem _ hs)
    simp [Parameter.text, hname, hvalue]

theorem Header.feed_text {header : Header} (h : ∀ s ∈ header.strings, '\n' ∉ s) :
    '\n' ∉ header.text := by
  cases header with
  | rule selector => exact h selector (List.mem_singleton_self _)
  | fontFace => decide
  | mixin spelling name parameters =>
    have hname := h name (List.mem_cons_self ..)
    have hlist : '\n' ∉ MixinClause.list (parameters.map Parameter.text) := by
      refine MixinClause.feed_list fun t ht => ?_
      obtain ⟨p, hp, rfl⟩ := List.mem_map.1 ht
      exact Parameter.feed_text_of_strings fun s hs =>
        h s (List.mem_cons_of_mem _ (List.mem_flatMap.2 ⟨p, hp, hs⟩))
    have hkeyword : '\n' ∉ spelling.mixinText := by cases spelling <;> decide
    rw [Header.text_eq]
    simp [hname, hlist, hkeyword]

theorem feed_useText {path : Text} {qualifier : Option Text}
    (h : ∀ s ∈ path :: qualifier.toList, '\n' ∉ s) : '\n' ∉ useText path qualifier := by
  have hpath := h path (List.mem_cons_self ..)
  unfold useText
  cases qualifier with
  | none => simp [hpath]
  | some name =>
    have hname := h name (by simp)
    dsimp only
    split <;> simp [hpath, hname]

/-- A node whose strings hold no line feed is written with its lines. -/
theorem Node.feed_texts {node : Node} (style : IndentStyle) (h : ∀ s ∈ node.strings, '\n' ∉ s) :
    ∀ t ∈ node.texts style, '\n' ∉ t := by
  intro t ht
  have hindent := Indent.feed_ofLevel style
  cases node with
  | block line level header body =>
    obtain rfl := List.mem_singleton.1 ht
    simp [hindent, Header.feed_text h]
  | leaf line leaf =>
    cases leaf with
    | blank =>
      obtain rfl := List.mem_singleton.1 ht
      exact List.not_mem_nil
    | property level name value | variableDecl level name value =>
      obtain rfl := List.mem_singleton.1 ht
      have hname := h name (List.mem_cons_self ..)
      have hvalue := Value.feed_render value fun s hs => h s (List.mem_cons_of_mem _ hs)
      simp [hindent, hname, hvalue]
    | importPath level path target =>
      obtain rfl := List.mem_singleton.1 ht
      simp [hindent, h path (List.mem_singleton_self _)]
    | useModule path target qualifier =>
      obtain rfl := List.mem_singleton.1 ht
      simp [hindent, feed_useText h]
    | comment level text | unclassified level text | extendRule level text =>
      obtain rfl := List.mem_singleton.1 ht
      simp [hindent, h text (List.mem_singleton_self _)]
    | mixinCall level spelling text =>
      have htext := h text (List.mem_singleton_self _)
      cases spelling <;> obtain rfl := List.mem_singleton.1 ht <;> simp [hindent, htext]
    | blockComment level lines =>
      obtain ⟨l, hl, rfl⟩ := List.mem_map.1 ht
      have htext := h l.text (List.mem_map_of_mem hl)
      simp [hindent, htext]

/-! ## Leaves -/

namespace Leaf

variable (style : IndentStyle) (line : Nat)

theorem isBlank_renumber (line' : Nat) (leaf : Leaf) :
    (Node.leaf line (leaf.renumber line)).isBlank = (Node.leaf line' leaf).isBlank := by
  cases leaf <;> rfl

theorem texts_renumber (leaf : Leaf) : (leaf.renumber line).texts style = leaf.texts style := by
  cases leaf with
  | blockComment level lines =>
    exact List.ext_getElem (by simp [renumber, texts]) fun i _ _ => by simp [renumber, texts]
  | _ => rfl

theorem renumber_renumber (leaf : Leaf) : (leaf.renumber line).renumber line = leaf.renumber line := by
  cases leaf with
  | blockComment level lines => simp [renumber, List.mapIdx_mapIdx, Function.comp_def]
  | _ => rfl

/-- The lines of a leaf, one number for each. -/
theorem lines_renumber (leaf : Leaf) :
    (Node.leaf line (leaf.renumber line)).lines = List.range' line (leaf.texts style).length := by
  cases leaf with
  | blockComment level lines =>
    exact List.ext_getElem (by simp [renumber, Node.lines, texts]) fun i _ _ => by
      simp [renumber, Node.lines]
  | mixinCall level spelling text => cases spelling <;> rfl
  | _ => rfl

theorem texts_ne_nil {leaf : Leaf} (h : ∀ level, leaf ≠ .blockComment level []) :
    leaf.texts style ≠ [] := by
  cases leaf with
  | blockComment level lines =>
    intro hnil
    exact h level (by rw [List.map_eq_nil_iff.1 hnil])
  | mixinCall level spelling text => cases spelling <;> simp [texts]
  | _ => simp [texts]

end Leaf

/-! ## What is written -/

/-- A leaf without the numbers of its lines. -/
def Leaf.unnumbered : Leaf → Leaf
  | .blockComment level lines => .blockComment level (lines.map fun l => { l with line := 0 })
  | leaf => leaf

theorem Leaf.unnumbered_renumber (line : Nat) (leaf : Leaf) :
    (leaf.renumber line).unnumbered = leaf.unnumbered := by
  cases leaf with
  | blockComment level lines =>
    simp only [renumber, unnumbered]
    congr 1
    exact List.ext_getElem (by simp) fun i _ _ => by simp
  | _ => rfl

namespace Tree

mutual

/-- A node without line numbers. -/
def unnumberedOne : Node → Node
  | .leaf _ leaf => .leaf 0 leaf.unnumbered
  | .block _ level header body => .block 0 level header (unnumbered body)

/-- A tree without line numbers. -/
def unnumbered : List Node → List Node
  | [] => []
  | node :: rest => unnumberedOne node :: unnumbered rest

end

mutual

/-- What is left of a node at a place of the document when the nodes at the places `gone`
    are removed. -/
def withoutOne (gone : Nat → Bool) (place : Nat) : Node → List Node
  | .leaf line leaf => if gone place then [] else [.leaf line leaf]
  | .block line level header body =>
    if gone place then [] else [.block line level header (without gone (place + 1) body)]

/-- A tree without the nodes at the places `gone` of the document, in which its first node
    stands at `place`. -/
def without (gone : Nat → Bool) (place : Nat) : List Node → List Node
  | [] => []
  | node :: rest =>
    withoutOne gone place node ++ without gone (place + (listingOfOne node).length) rest

end

/-- Whether the node at a place of the document is a blank line behind a blank line. -/
def repeatsBlank (nodes : List Node) : Nat → Bool
  | 0 => false
  | place + 1 =>
    (listing nodes)[place]?.any Node.isBlank && (listing nodes)[place + 1]?.any Node.isBlank

theorem unnumbered_append (first rest : List Node) :
    unnumbered (first ++ rest) = unnumbered first ++ unnumbered rest := by
  induction first with
  | nil => rfl
  | cons node first ih => rw [List.cons_append, unnumbered, ih, unnumbered, List.cons_append]

variable (style : IndentStyle)

mutual

theorem printOne_texts (cur : Cursor) : ∀ node : Node,
    (listing (printOne style cur node).nodes).flatMap (Node.texts style) =
      (printOne style cur node).lines
  | .leaf line leaf => by
    simp only [printOne]
    split
    · rfl
    · simp [listing, listingOfOne, Node.texts, Leaf.texts_renumber]
  | .block line level header body => by
    have hbody := print_texts ⟨cur.line + 1, false⟩ body
    simp [printOne, listing, listingOfOne, Node.texts, hbody]

/-- The lines that are written are those of the nodes that are left. -/
theorem print_texts (cur : Cursor) : ∀ nodes : List Node,
    (listing (print style cur nodes).nodes).flatMap (Node.texts style) = (print style cur nodes).lines
  | [] => rfl
  | node :: rest => by
    have hnode := printOne_texts cur node
    have hrest := print_texts (printOne style cur node).cursor rest
    rw [print, listing_append, List.flatMap_append, hnode, hrest]

end

mutual

theorem printOne_numbers (cur : Cursor) : ∀ node : Node,
    lineNumbers (printOne style cur node).nodes =
        List.range' cur.line (printOne style cur node).lines.length ∧
      (printOne style cur node).cursor.line = cur.line + (printOne style cur node).lines.length
  | .leaf line leaf => by
    simp only [printOne]
    split
    · exact ⟨rfl, rfl⟩
    · exact ⟨by rw [lineNumbers_leaf, Leaf.lines_renumber], rfl⟩
  | .block line level header body => by
    obtain ⟨hbody, hline⟩ := print_numbers ⟨cur.line + 1, false⟩ body
    simp only [printOne, List.length_cons]
    exact ⟨by rw [lineNumbers_block, hbody, List.range'_succ], by rw [hline]; dsimp only; omega⟩

/-- The nodes that are left are numbered one after the other. -/
theorem print_numbers (cur : Cursor) : ∀ nodes : List Node,
    lineNumbers (print style cur nodes).nodes =
        List.range' cur.line (print style cur nodes).lines.length ∧
      (print style cur nodes).cursor.line = cur.line + (print style cur nodes).lines.length
  | [] => ⟨rfl, rfl⟩
  | node :: rest => by
    obtain ⟨hnode, hline⟩ := printOne_numbers cur node
    obtain ⟨hrest, hend⟩ := print_numbers (printOne style cur node).cursor rest
    rw [print, lineNumbers_append, hnode, hrest, hend, hline, List.length_append,
      ← List.range'_append_1, Nat.add_assoc]
    exact ⟨rfl, rfl⟩

end

mutual

theorem printOne_lines_node (cur : Cursor) : ∀ node : Node,
    (∀ line level, .leaf line (.blockComment level []) ∉ listingOfOne node) →
    ∀ n ∈ listing (printOne style cur node).nodes,
      n.texts style ≠ [] ∧ n.lines = List.range' n.line (n.texts style).length
  | .leaf line leaf => by
    intro hcomments n hn
    simp only [printOne] at hn
    split at hn
    · cases hn
    · obtain rfl := List.mem_singleton.1 hn
      rw [Leaf.lines_renumber, Node.texts, Leaf.texts_renumber]
      refine ⟨Leaf.texts_ne_nil style ?_, rfl⟩
      rintro level rfl
      exact hcomments line level (List.mem_singleton_self _)
  | .block line level header body => by
    intro hcomments n hn
    simp only [printOne, listing, listingOfOne, List.append_nil] at hn
    rcases List.mem_cons.1 hn with rfl | hn
    · exact ⟨List.cons_ne_nil _ _, rfl⟩
    · exact print_lines_node _ body
        (fun line level hmem => hcomments line level (List.mem_cons_of_mem _ hmem)) n hn

/-- A node that is left has lines, which follow each other from its own line on. -/
theorem print_lines_node (cur : Cursor) : ∀ nodes : List Node,
    (∀ line level, .leaf line (.blockComment level []) ∉ listing nodes) →
    ∀ n ∈ listing (print style cur nodes).nodes,
      n.texts style ≠ [] ∧ n.lines = List.range' n.line (n.texts style).length
  | [] => fun _ _ hn => nomatch hn
  | node :: rest => by
    intro hcomments n hn
    rw [print, listing_append] at hn
    rcases List.mem_append.1 hn with hn | hn
    · exact printOne_lines_node cur node
        (fun line level hmem => hcomments line level (List.mem_append_left _ hmem)) n hn
    · exact print_lines_node _ rest
        (fun line level hmem => hcomments line level (List.mem_append_right _ hmem)) n hn

end

/-! ## What is dropped -/

theorem repeatsBlank_place {doc before after : List Node} {node : Node}
    (h : listing doc = before ++ node :: after) :
    repeatsBlank doc before.length = (before.getLast?.any Node.isBlank && node.isBlank) := by
  cases before using List.reverseRecOn with
  | nil => rfl
  | append_singleton before last =>
    rw [List.length_append, List.length_singleton, repeatsBlank, h]
    simp

mutual

theorem printOne_without {doc : List Node} (cur : Cursor) (before after : List Node) :
    ∀ node : Node, listing doc = before ++ listingOfOne node ++ after →
      cur.afterBlank = before.getLast?.any Node.isBlank →
      (∀ line level, .leaf line (.blockComment level []) ∉ listingOfOne node) →
      unnumbered (printOne style cur node).nodes =
          unnumbered (withoutOne (repeatsBlank doc) before.length node) ∧
        (printOne style cur node).cursor.afterBlank =
          (before ++ listingOfOne node).getLast?.any Node.isBlank
  | .leaf line leaf => by
    intro hdoc hblank hfilled
    have hplace : repeatsBlank doc before.length = (cur.afterBlank && (Node.leaf line leaf).isBlank) := by
      rw [repeatsBlank_place (by simpa [listingOfOne] using hdoc), hblank]
    have htexts : (leaf.texts style).isEmpty = false := by
      refine List.isEmpty_eq_false_iff.2 (Leaf.texts_ne_nil style ?_)
      rintro level rfl
      exact hfilled line level (List.mem_singleton_self _)
    simp only [printOne, withoutOne, hplace, listingOfOne, List.getLast?_concat, Option.any_some]
    split
    next hrepeat => exact ⟨rfl, by simp_all⟩
    next => simp [unnumbered, unnumberedOne, Leaf.unnumbered_renumber, htexts]
  | .block line level header body => by
    intro hdoc hblank hfilled
    have hkeep : repeatsBlank doc before.length = false := by
      rw [repeatsBlank_place (by simpa [listingOfOne] using hdoc), Node.isBlank_block, Bool.and_false]
    obtain ⟨hbody, hlast⟩ := print_without ⟨cur.line + 1, false⟩
      (before ++ [.block line level header body]) after body
      (by simpa [listingOfOne] using hdoc) (by simp [Node.isBlank_block])
      fun line level hmem => hfilled line level (List.mem_cons_of_mem _ hmem)
    simp only [printOne, withoutOne, hkeep, listingOfOne, Bool.false_eq_true, if_false]
    exact ⟨by simp [unnumbered, unnumberedOne, hbody], by simpa using hlast⟩

/-- The nodes that are dropped are the blank lines behind blank lines; the others keep all but
    their numbers. -/
theorem print_without {doc : List Node} (cur : Cursor) (before after : List Node) :
    ∀ nodes : List Node, listing doc = before ++ listing nodes ++ after →
      cur.afterBlank = before.getLast?.any Node.isBlank →
      (∀ line level, .leaf line (.blockComment level []) ∉ listing nodes) →
      unnumbered (print style cur nodes).nodes =
          unnumbered (without (repeatsBlank doc) before.length nodes) ∧
        (print style cur nodes).cursor.afterBlank =
          (before ++ listing nodes).getLast?.any Node.isBlank
  | [] => fun _ hblank _ => ⟨rfl, by simpa [print, listing] using hblank⟩
  | node :: rest => by
    intro hdoc hblank hfilled
    obtain ⟨hnode, hlast⟩ := printOne_without cur before (listing rest ++ after)
      node (by simpa [listing] using hdoc) hblank
      fun line level hmem => hfilled line level (List.mem_append_left _ hmem)
    obtain ⟨hrest, hend⟩ := print_without
      (printOne style cur node).cursor (before ++ listingOfOne node) after rest
      (by simpa [listing] using hdoc) hlast
      fun line level hmem => hfilled line level (List.mem_append_right _ hmem)
    rw [print, without, unnumbered_append, unnumbered_append, hnode, hrest, List.length_append]
    exact ⟨rfl, by simpa [listing] using hend⟩

end

/-! ## Writing again -/

theorem print_append (cur : Cursor) (first rest : List Node) :
    print style cur (first ++ rest) =
      ⟨(print style cur first).nodes ++ (print style (print style cur first).cursor rest).nodes,
        (print style cur first).lines ++ (print style (print style cur first).cursor rest).lines,
        (print style (print style cur first).cursor rest).cursor⟩ := by
  induction first generalizing cur with
  | nil => rfl
  | cons node first ih => simp only [List.cons_append, print, ih, List.append_assoc]

theorem print_singleton (cur : Cursor) (node : Node) :
    print style cur [node] = printOne style cur node := by
  simp [print]

mutual

theorem print_printOne (cur : Cursor) : ∀ node : Node,
    print style cur (printOne style cur node).nodes = printOne style cur node
  | .leaf line leaf => by
    simp only [printOne]
    split
    · rfl
    next hkeep =>
      rw [print_singleton, printOne, Leaf.isBlank_renumber _ line, if_neg hkeep,
        Leaf.texts_renumber, Leaf.renumber_renumber]
  | .block line level header body => by
    have hbody := print_print ⟨cur.line + 1, false⟩ body
    rw [printOne, print_singleton, printOne, hbody]

/-- What was written is written as it is. -/
theorem print_print (cur : Cursor) : ∀ nodes : List Node,
    print style cur (print style cur nodes).nodes = print style cur nodes
  | [] => rfl
  | node :: rest => by
    have hnode := print_printOne cur node
    have hrest := print_print (printOne style cur node).cursor rest
    simp only [print, print_append, hnode, hrest]

end

/-! ## The tree and its text -/

theorem print_lines_ne_nil {cur : Cursor} {nodes : List Node} (hcur : cur.afterBlank = false)
    (hnodes : nodes ≠ [])
    (hcomments : ∀ line level, .leaf line (.blockComment level []) ∉ listing nodes) :
    (print style cur nodes).lines ≠ [] := by
  obtain ⟨node, rest, rfl⟩ := List.exists_cons_of_ne_nil hnodes
  refine List.append_ne_nil_of_left_ne_nil ?_ _
  cases node with
  | block line level header body => simp [printOne]
  | leaf line leaf =>
    simp only [printOne, hcur, Bool.false_and, Bool.false_eq_true, if_false]
    refine Leaf.texts_ne_nil style ?_
    rintro level rfl
    exact hcomments line level (List.mem_append_left _ (List.mem_singleton_self _))

/-- The lines of the text are the lines that were written. -/
theorem lines_render {nodes : List Node} (hnodes : nodes ≠ [])
    (hfeed : ∀ node ∈ listing nodes, ∀ s ∈ node.strings, '\n' ∉ s)
    (hcomments : ∀ line level, .leaf line (.blockComment level []) ∉ listing nodes) :
    Text.lines (render style nodes) = (print style {} nodes).lines := by
  refine Text.lines_unlines (print_lines_ne_nil style rfl hnodes hcomments) fun t ht => ?_
  have hlines : (print style {} nodes).lines = _ := congrArg Prod.fst (print_lines style {} nodes)
  rw [hlines] at ht
  obtain ⟨item, hitem, ht⟩ := mem_squeeze ht
  obtain ⟨node, hnode, rfl⟩ := List.mem_map.1 hitem
  exact Node.feed_texts style (hfeed node hnode) t ht

/-- Lines that are numbered one after the other stand in the text at their numbers. -/
theorem texts_at_lines {nodes : List Node} (start : List Text)
    (hlines : ∀ n ∈ nodes, n.lines.length = (n.texts style).length)
    (hnumbers : nodes.flatMap Node.lines =
      List.range' start.length (nodes.flatMap (Node.texts style)).length) :
    ∀ n ∈ nodes, List.Forall₂
      (fun i t => (start ++ nodes.flatMap (Node.texts style))[i]? = some t)
      n.lines (n.texts style) := by
  induction nodes generalizing start with
  | nil => exact fun _ hn => nomatch hn
  | cons node rest ih =>
    rw [List.flatMap_cons, List.flatMap_cons, List.length_append, ← List.range'_append_1] at hnumbers
    obtain ⟨hnode, hrest⟩ := List.append_inj hnumbers
      (by rw [hlines node (List.mem_cons_self ..), List.length_range'])
    intro n hn
    rw [List.flatMap_cons]
    rcases List.mem_cons.1 hn with rfl | hn
    · rw [hnode, List.forall₂_iff_get]
      refine ⟨List.length_range', fun i hi hi' => ?_⟩
      rw [List.get_eq_getElem, List.getElem_range', Nat.one_mul,
        List.getElem?_append_right (Nat.le_add_right ..), Nat.add_sub_cancel_left,
        List.getElem?_append_left hi', List.getElem?_eq_getElem hi']
      rfl
    · have htail := ih (start ++ node.texts style)
        (fun n hn => hlines n (List.mem_cons_of_mem _ hn)) (by rw [List.length_append, hrest]) n hn
      rwa [List.append_assoc] at htail

/-- **A tree that was written is in step with its text.**  Its nodes are numbered by the lines of
    the text one after the other, each line is the node's own, nothing but the blank lines
    behind blank lines is gone, and writing it again changes neither. -/
theorem renumbered_spec (style : IndentStyle) {nodes : List Node} (hnodes : nodes ≠ [])
    (hfeed : ∀ node ∈ listing nodes, ∀ s ∈ node.strings, '\n' ∉ s)
    (hcomments : ∀ line level, .leaf line (.blockComment level []) ∉ listing nodes) :
    let text := render style nodes
    let after := renumbered style nodes
    lineNumbers after = List.range (Text.lines text).length ∧
      (∀ node ∈ listing after, node.lines.head? = some node.line ∧
        List.Forall₂ (fun n t => (Text.lines text)[n]? = some t) node.lines (node.texts style)) ∧
      unnumbered after = unnumbered (without (repeatsBlank nodes) 0 nodes) ∧
      render style after = text ∧ renumbered style after = after := by
  intro text after
  have hlines : Text.lines text = (print style {} nodes).lines := lines_render style hnodes hfeed hcomments
  have htexts := print_texts style {} nodes
  have hnumbers := (print_numbers style {} nodes).1
  have hnode := print_lines_node style {} nodes hcomments
  have hagain := print_print style {} nodes
  refine ⟨?_, fun node hmem => ⟨?_, ?_⟩, ?_, ?_, ?_⟩
  · rw [hlines, List.range_eq_range']
    exact hnumbers
  · obtain ⟨hne, hown⟩ := hnode node hmem
    rw [hown, List.head?_range', if_neg (mt List.length_eq_zero_iff.1 hne)]
  · rw [hlines, ← htexts]
    refine texts_at_lines style [] (fun n hn => ?_) ?_ node hmem
    · rw [(hnode n hn).2, List.length_range']
    · rw [htexts]
      exact hnumbers
  · exact (print_without style {} [] [] nodes (by simp) rfl hcomments).1
  · exact congrArg (fun printout => Text.unlines printout.lines) hagain
  · exact congrArg Printout.nodes hagain

/-- Blank lines that go from the body of a rule over its end, and a comment of two lines, under
    numbers that say nothing. -/
theorem renumbered_spec_blanks :
    let nodes : List Node :=
      [.leaf 4 .blank,
        .block 9 0 (.rule "a".toList)
          [.leaf 7 (.property 1 "b".toList [.literal "c".toList false]), .leaf 3 .blank],
        .leaf 3 .blank, .leaf 0 .blank,
        .leaf 1 (.blockComment 3 [⟨5, "/* d".toList⟩, ⟨5, "*/".toList⟩])]
    let text := render {} nodes
    let after := renumbered {} nodes
    text = "\na\n  b: c\n\n      /* d\n      */".toList ∧
      lineNumbers after = List.range (Text.lines text).length ∧
      (∀ node ∈ listing after, node.lines.head? = some node.line ∧
        List.Forall₂ (fun n t => (Text.lines text)[n]? = some t) node.lines (node.texts {})) ∧
      unnumbered after = unnumbered (without (repeatsBlank nodes) 0 nodes) ∧
      render {} after = text ∧ renumbered {} after = after := by
  intro nodes text after
  refine ⟨by decide, renumbered_spec {} (List.cons_ne_nil _ _) (by decide) fun line level hmem => ?_⟩
  simp [nodes, listing, listingOfOne] at hmem

end Tree

end IndentedSass
