/-
  The order in which a tree is written.

  The lines of a tree are those of its nodes in the order of the document; of
  several blank lines in a row only the first is written.

  * `Node.shown` is what the writer sees of a node on its own, `squeeze` drops the
    blank lines that follow another one;
  * `Tree.print_lines`: writing a tree is squeezing what its nodes show;
  * `squeeze_spaced`: where no two blank lines follow each other, all is written.
-/
import Mathlib
import IndentedSass.Printer

namespace IndentedSass

namespace Node

/-- The lines of a node itself, without those under it. -/
def texts (style : IndentStyle) : Node → List Text
  | .leaf _ l => l.texts style
  | .block _ level header _ => [Indent.ofLevel style level ++ header.text]

/-- Whether a node is a blank line, and its lines. -/
def shown (style : IndentStyle) (node : Node) : Bool × List Text := (node.isBlank, node.texts style)

theorem shown_leaf (style : IndentStyle) (line : Nat) (l : Leaf) :
    (leaf line l).shown style = (l.kind == .blank, l.texts style) := rfl

theorem isBlank_block (line level : Nat) (header : Header) (body : List Node) :
    (Node.block line level header body).isBlank = false := by
  cases header <;> rfl

end Node

/-- The lines of items of which some are blank, without the blank items that follow
    a blank one, and whether the last line is blank; `after` when a blank line
    stands before the first. -/
def squeeze : (after : Bool) → List (Bool × List Text) → List Text × Bool
  | after, [] => ([], after)
  | after, (blank, texts) :: rest =>
    if after && blank then squeeze after rest
    else
      let (lines, last) := squeeze (if texts.isEmpty then after else blank) rest
      (texts ++ lines, last)

theorem squeeze_append (after : Bool) (first rest : List (Bool × List Text)) :
    squeeze after (first ++ rest) =
      ((squeeze after first).1 ++ (squeeze (squeeze after first).2 rest).1,
        (squeeze (squeeze after first).2 rest).2) := by
  induction first generalizing after with
  | nil => rfl
  | cons item first ih =>
    obtain ⟨blank, texts⟩ := item
    rw [List.cons_append]
    simp only [squeeze]
    split
    · exact ih after
    · simp [ih]

namespace Tree

mutual

theorem printOne_lines (style : IndentStyle) (cur : Cursor) : ∀ node : Node,
    ((printOne style cur node).lines, (printOne style cur node).cursor.afterBlank) =
      squeeze cur.afterBlank ((listingOfOne node).map (Node.shown style))
  | .leaf line leaf => by
    simp only [printOne, listingOfOne, List.map_cons, List.map_nil, squeeze, Node.shown]
    split
    · rfl
    · simp [Node.texts]
  | .block line level header body => by
    have hbody := print_lines style ⟨cur.line + 1, false⟩ body
    simp only [printOne, listingOfOne, List.map_cons, Node.shown, squeeze, Node.isBlank_block,
      Bool.and_false, Bool.false_eq_true, if_false, Node.texts]
    rw [show (if List.isEmpty [Indent.ofLevel style level ++ header.text] = true then
      cur.afterBlank else false) = false from rfl, ← hbody]
    rfl

/-- Writing a tree is squeezing what its nodes show, in the order of the document. -/
theorem print_lines (style : IndentStyle) (cur : Cursor) : ∀ nodes : List Node,
    ((print style cur nodes).lines, (print style cur nodes).cursor.afterBlank) =
      squeeze cur.afterBlank ((listing nodes).map (Node.shown style))
  | [] => by simp [print, listing, squeeze]
  | node :: rest => by
    have hnode := printOne_lines style cur node
    have hrest := print_lines style (printOne style cur node).cursor rest
    simp only [print, listing, List.map_append, squeeze_append, ← hnode, ← hrest]

end

theorem render_eq (style : IndentStyle) (nodes : List Node) :
    render style nodes = Text.unlines (squeeze false ((listing nodes).map (Node.shown style))).1 := by
  rw [render, ← print_lines style {} nodes]

end Tree

/-- Items of one line each, of which no two blank ones follow each other, are written
    line by line. -/
theorem squeeze_spaced {after : Bool} {items : List (Bool × Text)}
    (hspaced : items.IsChain fun a b => a.1 = true → b.1 = false)
    (hfirst : after = true → ∀ a ∈ items.head?, a.1 = false) :
    (squeeze after (items.map fun item => (item.1, [item.2]))).1 = items.map Prod.snd := by
  induction items generalizing after with
  | nil => rfl
  | cons item rest ih =>
    obtain ⟨blank, text⟩ := item
    have hkeep : (after && blank) = false := by
      cases after with
      | false => rfl
      | true => exact hfirst rfl _ rfl
    simp only [List.map_cons, squeeze, hkeep, Bool.false_eq_true, if_false, List.isEmpty_cons]
    rw [ih hspaced.tail]
    · rfl
    · intro hblank a ha
      cases rest with
      | nil => cases ha
      | cons next rest =>
        cases ha
        exact (List.isChain_cons_cons.1 hspaced).1 hblank

end IndentedSass
