/-
  Levels that survive writing and reading.

  Rules and properties are written line by line, at the indentation of their levels.  Where the
  indentation of a level is as wide as the level asks for, what is read back has their skeleton.
  That is so for every style but one: with spaces and a tab size of zero all levels are written
  without indentation, though they are measured in columns of one.

  * `Node.Simple`: a rule or a property whose text is one line that is told to be one;
    `Node.Reached`: its level is reached by its indentation;
  * `Reading.skeleton_print`: by induction over the tree, reading its lines gains nodes
    with its skeleton;
  * `skeleton_readDetached_flat`: where there is no indentation, the nodes are read back side by
    side;
  * `skeleton_readDetached_render`: the skeleton of what is read back, in every style.
-/
import Mathlib
import IndentedSass.Proofs.Line.Declarations
import IndentedSass.Proofs.Reader.Legible
import IndentedSass.Proofs.Tree.Skeleton

namespace IndentedSass

/-! ## Rules and properties of one line -/

/-- A text is one line of a kind, without white space around it. -/
structure Line.IsText (kind : LineKind) (text : Text) : Prop where
  trimmed : text.trim = text
  feed : '\n' ∉ text
  kind : kindOutsideComment text = kind

instance (kind : LineKind) (text : Text) : Decidable (Line.IsText kind text) :=
  decidable_of_iff' (_ ∧ _ ∧ _) ⟨fun h => ⟨h.trimmed, h.feed, h.kind⟩, fun h => ⟨h.1, h.2.1, h.2.2⟩⟩

namespace Node

/-- The text of a rule or a property, and what it has to be told to be. -/
def ownText? : Node → Option (LineKind × Text)
  | leaf _ (.property _ name value) => some (.property, name ++ ':' :: Value.render value)
  | block _ _ (.rule selector) _ => some (.selector, selector)
  | _ => none

/-- A node is a rule or a property, and its text is one line that is told to be one. -/
def Simple (node : Node) : Prop := ∃ own ∈ node.ownText?, Line.IsText own.1 own.2

instance (node : Node) : Decidable node.Simple :=
  inferInstanceAs (Decidable (∃ own ∈ node.ownText?, _))

/-- The level of a node is reached by its indentation, and is not too deep to be measured. -/
def Reached (style : IndentStyle) (node : Node) : Prop :=
  ∀ level ∈ node.level?, style.Reaches level ∧ level < 2 ^ 50

/-- What is written of a rule or a property. -/
theorem Simple.written {node : Node} (h : node.Simple) (style : IndentStyle) :
    ∃ level text, node.level? = some level ∧ node.texts style = [Indent.ofLevel style level ++ text] ∧
      (Line.IsText .property text ∨ Line.IsText .selector text) ∧
      (node.kind = .property ∨ node.kind = .selector) := by
  obtain ⟨own, hown, htext⟩ := h
  unfold ownText? at hown
  split at hown
  · rename_i line level name value
    cases hown
    exact ⟨level, _, rfl, by rw [texts, Leaf.texts, List.append_assoc], .inl htext, .inl rfl⟩
  · rename_i line level selector body
    cases hown
    exact ⟨level, _, rfl, rfl, .inr htext, .inr rfl⟩
  · cases hown

end Node

namespace Line

variable {style : IndentStyle} {level : Nat} {kind : LineKind} {text : Text} {node : Node}

/-- At every indentation the text is a line of its kind. -/
theorem IsText.kind_indented (h : IsText kind text) (style : IndentStyle) (level : Nat) :
    kindOutsideComment (Indent.ofLevel style level ++ text) = kind := by
  rw [kindOutsideComment_blanks (Indent.blanks_ofLevel style level), h.kind]

theorem IsText.tells (h : IsText kind text) (hkind : kind ≠ .blank)
    (hnodes : nodes level text kind = [node]) : Tells level text node := by
  have hvisible : isBlankLine text = false := by
    refine Bool.eq_false_iff.2 fun hblank => hkind ?_
    rw [← h.kind, ← kind_none 0]
    exact kind_eq_blank_iff.2 hblank
  have htells : Tells level text.trim node :=
    tells_trim h.feed hvisible (by rwa [h.trimmed, h.kind])
  rwa [h.trimmed] at htells

/-- A property is read as a property. -/
theorem IsText.exists_property (h : IsText .property text) (level : Nat) :
    ∃ name value, Tells level text (.leaf 0 (.property level name value)) := by
  obtain ⟨d, hcut⟩ := exists_cutAs (.inl rfl) h.kind
  refine ⟨d.name, valueParts d.value, h.tells (by decide) ?_⟩
  simp only [nodes, hcut.split]

/-- A selector is read as a rule with the selector. -/
theorem IsText.tells_rule (h : IsText .selector text) (level : Nat) :
    Tells level text (.block 0 level (.rule text) []) :=
  h.tells (by decide) (by simp only [nodes, h.trimmed])

end Line

/-! ## The order of simple nodes -/

namespace Node.Simple

variable {style : IndentStyle} {node : Node}

/-- A rule or a property leaves no block comment open. -/
theorem leavesOpen_eq (h : node.Simple) (style : IndentStyle) : node.leavesOpen style = none := by
  obtain ⟨level, text, -, htexts, htext, -⟩ := h.written style
  rw [Node.leavesOpen, htexts, List.foldl_cons, List.foldl_nil, Line.commentAfter, Line.kind_none]
  rcases htext with htext | htext <;> rw [htext.kind_indented]

theorem not_isUse (h : node.Simple) (style : IndentStyle) : ¬node.IsUse style := by
  obtain ⟨level, text, -, htexts, htext, -⟩ := h.written style
  rintro ⟨line, hline, hkind⟩
  rw [htexts] at hline
  cases hline
  rcases htext with htext | htext <;> rw [htext.kind_indented] at hkind <;> cases hkind

theorem isBlank_eq (h : node.Simple) : node.isBlank = false := by
  obtain ⟨-, -, -, -, -, hkind⟩ := h.written {}
  rcases hkind with hkind | hkind <;> rw [Node.isBlank, hkind] <;> rfl

theorem feed (h : node.Simple) (style : IndentStyle) : ∀ line ∈ node.texts style, '\n' ∉ line := by
  obtain ⟨level, text, -, htexts, htext, -⟩ := h.written style
  intro line hline hmem
  rw [htexts, List.mem_singleton] at hline
  subst hline
  rcases List.mem_append.1 hmem with hindent | hown
  · exact absurd (Indent.blanks_ofLevel style level _ hindent) (by decide)
  · exact (htext.elim Line.IsText.feed Line.IsText.feed) hown

end Node.Simple

/-- Rules and properties can be read in any order. -/
theorem Tree.separate_of_simple {style : IndentStyle} {listing : List Node}
    (h : ∀ node ∈ listing, node.Simple) : Tree.Separate style listing where
  comments := by
    refine List.Pairwise.isChain (List.pairwise_of_forall_mem_list fun a ha b _ hopen => ?_)
    exact absurd ((h a ha).leavesOpen_eq style) hopen
  uses := List.pairwise_of_forall_mem_list fun a _ b hb huse =>
    absurd huse ((h b hb).not_isUse style)

/-! ## Reading rules and properties back -/

namespace Reading

variable {style : IndentStyle} {d : Nat} {prev nodes : List Node} {g : Reading Unit}

/-- What reading the lines of rules and properties does. -/
structure Regained (style : IndentStyle) (d : Nat) (prev nodes : List Node) (r r' : Reader) :
    Prop where
  gains : ∃ read, r.Gains d read r' ∧ Tree.skeleton read = Tree.skeleton nodes
  ready : r'.Ready style d (prev ++ Tree.listing nodes)

/-- A property is read back as a property at its level. -/
theorem regained_property {n : Nat} {name : Text} {value : List Value}
    (hr : g.reader.Ready style d prev) (hprev : ∀ node ∈ prev, node.Simple)
    (hsimple : (Node.leaf n (.property d name value)).Simple) (hreaches : style.Reaches d)
    (hd : d < 2 ^ 50) (i : Nat) :
    Regained style d prev [.leaf n (.property d name value)] g.reader
      (readLines .detached g i ((Leaf.property d name value).texts style)).reader := by
  obtain ⟨own, hown, htext⟩ := hsimple
  cases hown
  obtain ⟨name', value', htells⟩ := htext.exists_property d
  have hsaid := htells.toSays_of_reaches hd hreaches
  have hclosed : ∀ last, prev.getLast? = some last → last.leavesOpen style = none :=
    fun last hlast => (hprev last (List.mem_of_mem_getLast? hlast)).leavesOpen_eq style
  obtain ⟨fresh, hadds, hsketch, -⟩ := hr.adds hsaid
    (fun last hlast hopen => absurd (hclosed last hlast) hopen)
    (fun huse => by rw [htext.kind_indented] at huse; cases huse) i
  have htexts : (Leaf.property d name value).texts style =
      [Indent.ofLevel style d ++ (name ++ ':' :: Value.render value)] := by
    rw [Leaf.texts, List.append_assoc]
  rw [htexts, readLines_singleton g i hsaid.plainEnd]
  refine ⟨⟨[fresh], hadds.gains rfl, ?_⟩, hadds.ready hr htexts hsaid.width hadds.depth
    (fun _ _ => le_rfl) ?_⟩
  · rw [Tree.skeleton, hsketch]
    rfl
  · rw [Node.allowsUse, Node.allowsUse, ← Tree.kind_of_sketch hsketch]
    rfl

mutual

/-- By induction over the tree: what was read before it are rules and properties as well, so no
    comment is open and the line is told as if it stood alone. -/
theorem skeleton_printOne (style : IndentStyle) : ∀ (node : Node) (cur : Cursor) (i : Nat) {d : Nat}
    {prev : List Node} {g : Reading Unit}, g.reader.Ready style d prev → node.Placed d →
    (∀ n ∈ prev ++ Tree.listingOfOne node, n.Simple) →
    (∀ n ∈ Tree.listingOfOne node, n.Reached style) →
    Regained style d prev [node] g.reader
      (readLines .detached g i (Tree.printOne style cur node).lines).reader
  | .leaf n leaf, cur, i, d, prev, g, hr, hplaced, hsimple, hreached => by
    have hown := hsimple (.leaf n leaf) (by simp [Tree.listingOfOne])
    cases leaf with
    | property level name value =>
      obtain rfl : level = d := hplaced level rfl
      obtain ⟨hreaches, hlevel⟩ := hreached _ (List.mem_singleton_self _) level rfl
      have hlines : (Tree.printOne style cur (.leaf n (.property level name value))).lines =
          (Leaf.property level name value).texts style := by
        simp only [Tree.printOne, Node.isBlank, Node.kind, Leaf.kind]
        simp
      rw [hlines]
      exact regained_property hr (fun m hm => hsimple m (List.mem_append_left _ hm)) hown hreaches
        hlevel i
    | _ =>
      obtain ⟨own, hnone, -⟩ := hown
      cases hnone
  | .block n level header body, cur, i, d, prev, g, hr, hplaced, hsimple, hreached => by
    obtain ⟨rfl, hbody⟩ := hplaced
    have hlisting : prev ++ Tree.listingOfOne (.block n level header body) =
        (prev ++ [.block n level header body]) ++ Tree.listing body := by
      rw [Tree.listingOfOne, List.append_cons]
    rw [hlisting] at hsimple
    obtain ⟨own, hown, htext⟩ := hsimple (.block n level header body) (by simp)
    cases header with
    | rule selector =>
      cases hown
      obtain ⟨hreaches, hlevel⟩ := hreached _ (List.mem_cons_self ..) level rfl
      have hsaid : Line.Says style level (Indent.ofLevel style level ++ (Header.rule selector).text)
          (.block 0 level (Header.rule selector).sketch []) :=
        (htext.tells_rule level).toSays_of_reaches hlevel hreaches
      have hsep : Tree.Separate style (prev ++ [.block n level (.rule selector) body]) :=
        Tree.separate_of_simple fun m hm => hsimple m (List.mem_append_left _ hm)
      obtain ⟨header', hheader, hadds, hready, hpath⟩ := readLine_header hr hsaid rfl hsep i
      obtain ⟨⟨read, hgains, hskeleton⟩, hafter⟩ := skeleton_print style body ⟨cur.line + 1, false⟩
        (i + 1) hready hbody hsimple fun m hm => hreached m (List.mem_cons_of_mem _ hm)
      rw [readLines_printOne_block cur i hsaid.plainEnd]
      refine ⟨⟨[.block n level (.rule selector) read], gains_block hr hheader hadds hpath rfl hgains,
        ?_⟩, ?_⟩
      · rw [Tree.skeleton_block, Tree.skeleton_block, hskeleton]
      · rw [Tree.listing, Tree.listing, List.append_nil, hlisting]
        exact hafter.mono (Nat.le_succ level)
    | _ => cases hown

theorem skeleton_print (style : IndentStyle) : ∀ (nodes : List Node) (cur : Cursor) (i : Nat)
    {d : Nat} {prev : List Node} {g : Reading Unit}, g.reader.Ready style d prev →
    Tree.Placed d nodes → (∀ n ∈ prev ++ Tree.listing nodes, n.Simple) →
    (∀ n ∈ Tree.listing nodes, n.Reached style) →
    Regained style d prev nodes g.reader
      (readLines .detached g i (Tree.print style cur nodes).lines).reader
  | [], cur, i, d, prev, g, hr, hplaced, hsimple, hreached => by
    refine ⟨⟨[], ⟨rfl, [], Tree.graft_nothing.symm, rfl⟩, rfl⟩, ?_⟩
    rw [Tree.listing, List.append_nil]
    exact hr
  | node :: rest, cur, i, d, prev, g, hr, hplaced, hsimple, hreached => by
    rw [Tree.listing, ← List.append_assoc] at hsimple
    obtain ⟨⟨first, hfirst, hsame⟩, hready⟩ := skeleton_printOne style node cur i hr hplaced.1
      (fun n hn => hsimple n (List.mem_append_left _ hn))
      (fun n hn => hreached n (List.mem_append_left _ hn))
    rw [Tree.listing, Tree.listing, List.append_nil] at hready
    obtain ⟨⟨others, hothers, hsame'⟩, hafter⟩ := skeleton_print style rest
      (Tree.printOne style cur node).cursor (i + (Tree.printOne style cur node).lines.length) hready
      hplaced.2 hsimple fun n hn => hreached n (List.mem_append_right _ hn)
    rw [readLines_print_cons]
    refine ⟨⟨first ++ others, hfirst.trans hothers, ?_⟩, ?_⟩
    · rw [Tree.skeleton_append, Tree.skeleton_cons node, hsame, hsame']
    · rw [Tree.listing, ← List.append_assoc]
      exact hafter

end

end Reading

/-- Rules and properties whose levels are reached are read back with their skeleton. -/
theorem skeleton_readDetached_of_reached {uri : Uri} {style : IndentStyle} {nodes : List Node}
    (hplaced : Tree.Placed 0 nodes) (hsimple : ∀ node ∈ Tree.listing nodes, node.Simple)
    (hreached : ∀ node ∈ Tree.listing nodes, node.Reached style) :
    Tree.skeleton (readDetached uri style (Tree.render style nodes)).body = Tree.skeleton nodes := by
  obtain ⟨⟨read, hgains, hskeleton⟩, -⟩ := Reading.skeleton_print style nodes {} 0
    (g := ⟨.start uri style, (), []⟩) (Reader.ready_start uri style) hplaced hsimple hreached
  have hsketch := sketch_readDetached_of_gains (fun n hn => (hsimple n hn).feed style) hgains
  rw [Tree.skeleton, hsketch]
  exact hskeleton

/-! ## Levels without indentation -/

theorem Node.Simple.atTop {node : Node} (h : node.Simple) : node.atTop.Simple := by
  obtain ⟨own, hown, htext⟩ := h
  refine ⟨own, ?_, htext⟩
  cases node with
  | leaf line leaf => cases leaf <;> exact hown
  | block line level header body => cases header <;> exact hown

namespace Tree

variable {nodes : List Node} {d : Nat}

theorem Placed.level_eq (h : Placed d nodes) : ∀ node ∈ nodes, ∀ level ∈ node.level?, level = d := by
  induction nodes with
  | nil => exact fun node hnode => absurd hnode List.not_mem_nil
  | cons first rest ih =>
    intro node hnode level hlevel
    rcases List.mem_cons.1 hnode with rfl | hrest
    · cases node with
      | leaf line leaf => exact h.1 level hlevel
      | block line own header body =>
        cases hlevel
        exact h.1.1
    · exact ih h.2 node hrest level hlevel

theorem placed_flat (nodes : List Node) : Placed 0 (flat nodes) := by
  rw [flat]
  induction listing nodes with
  | nil => trivial
  | cons node rest ih =>
    refine ⟨?_, ih⟩
    cases node with
    | leaf line leaf => exact fun level hlevel => by cases leaf <;> cases hlevel <;> rfl
    | block line level header body => exact ⟨rfl, trivial⟩

/-- A tree whose nodes all have level zero is its nodes side by side. -/
theorem flat_eq_self (hplaced : Placed 0 nodes)
    (hlevels : ∀ node ∈ listing nodes, node.level? = some 0) : flat nodes = nodes := by
  induction nodes with
  | nil => rfl
  | cons node rest ih =>
    rw [listing] at hlevels
    have hrest := ih hplaced.2 fun n hn => hlevels n (List.mem_append_right _ hn)
    rw [flat] at hrest ⊢
    rw [listing, List.map_append, hrest]
    cases node with
    | leaf line leaf =>
      have hlevel := hlevels (.leaf line leaf) (by simp [listingOfOne])
      have hsame : leaf.atTop = leaf := by
        cases leaf <;> cases hlevel <;> rfl
      rw [listingOfOne, List.map_cons, Node.atTop, hsame]
      rfl
    | block line level header body =>
      obtain ⟨⟨rfl, hbody⟩, -⟩ := hplaced
      -- the nodes of a body have level one
      have hnone : body = [] := by
        refine List.eq_nil_iff_forall_not_mem.2 fun m hm => ?_
        have hzero := hlevels m (by
          rw [listingOfOne]
          exact List.mem_append_left _ (List.mem_cons_of_mem _ ((sublist_listing body).subset hm)))
        exact absurd (hbody.level_eq m hm 0 hzero) (by decide)
      rw [hnone]
      rfl

/-- Only the levels of a tree without nesting survive when its nodes are put side by side. -/
theorem skeleton_flat_iff (hplaced : Placed 0 nodes) (hsimple : ∀ node ∈ listing nodes, node.Simple) :
    skeleton (flat nodes) = skeleton nodes ↔
      ∀ node ∈ listing nodes, ∀ level ∈ node.level?, level = 0 := by
  constructor
  · intro hsame
    rw [listing_eq_of_skeleton_flat (fun node hnode => (hsimple node hnode).isBlank_eq) hsame]
    exact hplaced.level_eq
  · intro hlevels
    rw [flat_eq_self hplaced fun node hnode => ?_]
    obtain ⟨level, -, hlevel, -⟩ := (hsimple node hnode).written {}
    rw [hlevel, hlevels node hnode level hlevel]

end Tree

/-- Where levels have no indentation, rules and properties are read back side by side. -/
theorem skeleton_readDetached_flat {uri : Uri} {style : IndentStyle} {nodes : List Node}
    (hstyle : ¬(style.insertSpaces = true → 0 < style.tabSize))
    (hsimple : ∀ node ∈ Tree.listing nodes, node.Simple) :
    Tree.skeleton (readDetached uri style (Tree.render style nodes)).body =
      Tree.skeleton (Tree.flat nodes) := by
  have hnot : ¬style.Reaches 1 := fun h => h.elim hstyle Nat.one_ne_zero
  rw [← Tree.render_flat (Indent.ofLevel_of_not_reaches hnot)]
  refine skeleton_readDetached_of_reached (Tree.placed_flat nodes) ?_ ?_
  · intro node hnode
    rw [Tree.listing_flat, Tree.flat] at hnode
    obtain ⟨own, hown, rfl⟩ := List.mem_map.1 hnode
    exact (hsimple own hown).atTop
  · intro node hnode level hlevel
    rw [Tree.listing_flat] at hnode
    obtain rfl := (Tree.placed_flat nodes).level_eq node hnode level hlevel
    exact ⟨.inr rfl, by decide⟩

/-- The levels of rules and properties survive writing and reading in every style but spaces
    of a tab size of zero, in which all nodes are read back side by side at the top level: in
    each style a tree survives exactly when its levels are measured as they were written. -/
theorem skeleton_readDetached_render (uri : Uri) (style : IndentStyle) :
    (∀ n, n * style.tabStop < 2 ^ 50 →
      (Indent.level style.tabStop (Indent.width style.tabStop (Indent.ofLevel style n)) = n ↔
        (style.insertSpaces = true → 0 < style.tabSize) ∨ n = 0)) ∧
    ∀ nodes, Tree.Placed 0 nodes → (∀ node ∈ Tree.listing nodes, node.Simple) →
      (∀ node ∈ Tree.listing nodes, ∀ level ∈ node.level?, level * style.tabStop < 2 ^ 50) →
      let read := (readDetached uri style (Tree.render style nodes)).body
      Tree.skeleton read = (if style.insertSpaces = true → 0 < style.tabSize then
        Tree.skeleton nodes else Tree.skeleton (Tree.flat nodes)) ∧
      (Tree.skeleton read = Tree.skeleton nodes ↔
        ∀ node ∈ Tree.listing nodes, ∀ level ∈ node.level?,
          Indent.level style.tabStop (Indent.width style.tabStop (Indent.ofLevel style level)) =
            level) := by
  refine ⟨fun n hn => Indent.level_width_ofLevel_iff hn, fun nodes hplaced hsimple hcolumns => ?_⟩
  intro read
  by_cases hstyle : style.insertSpaces = true → 0 < style.tabSize
  · have hread : Tree.skeleton read = Tree.skeleton nodes := by
      refine skeleton_readDetached_of_reached hplaced hsimple fun node hnode level hlevel =>
        ⟨.inl hstyle, ?_⟩
      exact (Nat.le_mul_of_pos_right level style.tabStop_pos).trans_lt
        (hcolumns node hnode level hlevel)
    refine ⟨by rw [if_pos hstyle, hread], fun _ node hnode level hlevel => ?_, fun _ => hread⟩
    exact (Indent.level_width_ofLevel_iff (hcolumns node hnode level hlevel)).2 (.inl hstyle)
  · have hread : Tree.skeleton read = Tree.skeleton (Tree.flat nodes) :=
      skeleton_readDetached_flat hstyle hsimple
    refine ⟨by rw [if_neg hstyle, hread], ?_⟩
    rw [hread, Tree.skeleton_flat_iff hplaced hsimple]
    refine forall₄_congr fun node hnode level hlevel => ?_
    rw [Indent.level_width_ofLevel_iff (hcolumns node hnode level hlevel), IndentStyle.Reaches,
      or_iff_right hstyle]

/-- With a tab size of zero, but indented by tabs: a selector in a rule, a property in both of them. -/
theorem skeleton_readDetached_render_tabs :
    let uri : Uri := ⟨"file".toList, none, "/a.sass".toList, none, none⟩
    let style : IndentStyle := ⟨0, false⟩
    let nodes : List Node := [.block 0 0 (.rule ".a".toList)
      [.block 1 1 (.rule "b, c".toList) [.leaf 2 (.property 2 "d".toList [.literal "e".toList false])],
        .leaf 3 (.property 1 "f".toList [])]]
    Indent.level style.tabStop (Indent.width style.tabStop (Indent.ofLevel style 2)) = 2 ∧
      Tree.render style nodes = ".a\n\tb, c\n\t\td: e\n\tf:".toList ∧
      Tree.skeleton (readDetached uri style (Tree.render style nodes)).body = Tree.skeleton nodes := by
  intro uri style nodes
  obtain ⟨hlevel, hsurvives⟩ := skeleton_readDetached_render uri style
  obtain ⟨hread, -⟩ := hsurvives nodes (by decide) (by decide +kernel) (by decide)
  refine ⟨(hlevel 2 (by decide)).2 (.inl (by decide)), by decide +kernel, ?_⟩
  rwa [if_pos (by decide)] at hread

/-- With spaces and a tab size of zero, a nested rule is read back beside the rule around it. -/
theorem readDetached_render_side_by_side :
    let uri : Uri := ⟨"file".toList, none, "/a.sass".toList, none, none⟩
    let style : IndentStyle := ⟨0, true⟩
    let nodes : List Node := [.block 0 0 (.rule ".a".toList) [.block 1 1 (.rule ".b".toList) []]]
    let read := (readDetached uri style (Tree.render style nodes)).body
    Tree.Placed 0 nodes ∧ (∀ node ∈ Tree.listing nodes, node.Simple) ∧ style.tabStop = 1 ∧
      Indent.level style.tabStop (Indent.width style.tabStop (Indent.ofLevel style 1)) = 0 ∧
      Tree.render style nodes = ".a\n.b".toList ∧
      read.map Node.level? = [some 0, some 0] ∧ Tree.skeleton read ≠ Tree.skeleton nodes := by
  intro uri style nodes read
  refine ⟨by decide, by decide +kernel, rfl, by decide +kernel, by decide +kernel, by decide +kernel,
    fun hsame => ?_⟩
  have hlength := congrArg List.length hsame
  revert hlength
  decide +kernel

end IndentedSass
