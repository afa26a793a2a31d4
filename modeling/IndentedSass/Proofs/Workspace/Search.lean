/-
  The search for a variable through imports.

  The files that were read and their imports are a graph, which may have cycles, files that
  are imported twice, and imports of files that were not read.  The search for a variable
  visits the files that can be reached, each of them once, in depth-first order, and stops at
  the first one that declares the variable.

  * `Registry.Imports` are the edges of the graph, `FileEntry.Declares` and
    `FileEntry.LastDeclares` say what is declared in a file;
  * `Registry.DepthFirst` is the traversal by recursion: a file, then all that its imports
    lead to, then what stands behind it.  Every registry has just one
    (`exists_depthFirst`, `DepthFirst.unique`); it visits a file at most once
    (`DepthFirst.nodup`), only files that can be reached (`DepthFirst.reached`), and no file
    that was passed over hides another one (`DepthFirst.covers`, `DepthFirst.closed`);
  * `DepthFirst.findFrom?_eq`: the search asks the files of the traversal in their order;
  * `Registry.findVariable?_spec`: so it finds a variable if and only if one can be reached,
    and then the last one of the first file that has one.
-/
import Mathlib
import IndentedSass.Workspace.Lookup

namespace IndentedSass

/-! ## What a file declares -/

/-- The variable of this name that a node declares. -/
def Node.declared? (name : Text) : Node → Option VariableDecl
  | .leaf line (.variableDecl level own value) =>
    if own = name then some ⟨line, level, own, value⟩ else none
  | _ => none

theorem Node.declared?_eq_some_iff {name : Text} {node : Node} {decl : VariableDecl} :
    node.declared? name = some decl ↔
      decl.name = name ∧ node = .leaf decl.line (.variableDecl decl.level decl.name decl.value) := by
  obtain ⟨line, level, own, value⟩ := decl
  unfold declared?
  split
  · rename_i line' level' own' value'
    by_cases hname : own' = name
    · subst hname
      simp only [if_true, Option.some.injEq, VariableDecl.mk.injEq, Node.leaf.injEq,
        Leaf.variableDecl.injEq]
      grind
    · rw [if_neg hname]
      simp only [reduceCtorEq, Node.leaf.injEq, Leaf.variableDecl.injEq, false_iff]
      grind
  · rename_i hother
    simp only [reduceCtorEq, false_iff]
    rintro ⟨-, rfl⟩
    exact hother _ _ _ _ rfl

namespace FileEntry

variable {entry : FileEntry} {name : Text} {decl : VariableDecl}

/-- A variable of this name is declared at the top level. -/
def Declares (entry : FileEntry) (name : Text) : Prop :=
  ∃ line level value, Node.leaf line (.variableDecl level name value) ∈ entry.body

/-- This is the last declaration of the name at the top level. -/
def LastDeclares (entry : FileEntry) (name : Text) (decl : VariableDecl) : Prop :=
  decl.name = name ∧ ∃ before after,
    entry.body = before ++ .leaf decl.line (.variableDecl decl.level decl.name decl.value) :: after ∧
      ∀ line level value, Node.leaf line (.variableDecl level name value) ∉ after

theorem topLevelVariable?_eq (entry : FileEntry) (name : Text) :
    entry.topLevelVariable? name = entry.body.reverse.findSome? (Node.declared? name) := rfl

theorem forall_declared?_eq_none {nodes : List Node} :
    (∀ node ∈ nodes, node.declared? name = none) ↔
      ∀ line level value, Node.leaf line (.variableDecl level name value) ∉ nodes := by
  constructor
  · intro h line level value hmem
    have hnone := h _ hmem
    simp [Node.declared?] at hnone
  · intro h node hmem
    rw [Option.eq_none_iff_forall_ne_some]
    intro decl hdecl
    obtain ⟨rfl, rfl⟩ := Node.declared?_eq_some_iff.1 hdecl
    exact h _ _ _ hmem

theorem topLevelVariable?_eq_some_iff :
    entry.topLevelVariable? name = some decl ↔ entry.LastDeclares name decl := by
  rw [topLevelVariable?_eq, List.findSome?_eq_some_iff, LastDeclares]
  constructor
  · rintro ⟨later, node, earlier, hsplit, hnode, hlater⟩
    obtain ⟨hname, rfl⟩ := Node.declared?_eq_some_iff.1 hnode
    refine ⟨hname, earlier.reverse, later.reverse, ?_, ?_⟩
    · rw [← List.reverse_reverse entry.body, hsplit]
      simp
    · intro line level value hmem
      exact forall_declared?_eq_none.1 hlater line level value (List.mem_reverse.1 hmem)
  · rintro ⟨hname, before, after, hsplit, hafter⟩
    refine ⟨after.reverse, _, before.reverse, by rw [hsplit]; simp,
      Node.declared?_eq_some_iff.2 ⟨hname, rfl⟩, fun node hmem => ?_⟩
    exact forall_declared?_eq_none.2 hafter node (List.mem_reverse.1 hmem)

theorem topLevelVariable?_eq_none_iff :
    entry.topLevelVariable? name = none ↔ ¬entry.Declares name := by
  have hnone := @forall_declared?_eq_none name entry.body
  rw [topLevelVariable?_eq, List.findSome?_eq_none_iff]
  simp only [List.mem_reverse, hnone, Declares, not_exists]

end FileEntry

namespace Registry

variable {g : Registry} {name : Text} {seen todo visited : List Uri} {uri u v : Uri}

/-! ## The graph of the files -/

/-- A file that was read imports another one at its top level. -/
def Imports (g : Registry) (u v : Uri) : Prop :=
  ∃ entry line level path, g.entry? u = some entry ∧
    Node.leaf line (.importPath level path (some v)) ∈ entry.body

theorem imports_iff : g.Imports u v ↔ ∃ entry, g.entry? u = some entry ∧ v ∈ entry.imports := by
  simp only [Imports, FileEntry.mem_imports]
  constructor
  · rintro ⟨entry, line, level, path, hentry, hmem⟩
    exact ⟨entry, hentry, line, level, path, hmem⟩
  · rintro ⟨entry, hentry, line, level, path, hmem⟩
    exact ⟨entry, line, level, path, hentry, hmem⟩

/-- A file can be reached through the imports of files that were read. -/
def Reaches (g : Registry) : Uri → Uri → Prop := Relation.ReflTransGen g.Imports

/-- The files `visited` are those that a depth-first traversal visits, in this order, which
    starts at each of the files `todo` in turn and passes over the files `seen`, the latest of
    these first. -/
inductive DepthFirst (g : Registry) : (seen todo visited : List Uri) → Prop
  | done {seen : List Uri} : DepthFirst g seen [] []
  /-- A file that was seen or was never read is passed over. -/
  | skip {seen todo visited : List Uri} {uri : Uri} :
      uri ∈ seen ∨ g.entry? uri = none → DepthFirst g seen todo visited →
      DepthFirst g seen (uri :: todo) visited
  /-- A file is visited before what its imports lead to, and this before all else. -/
  | visit {seen todo inner rest : List Uri} {uri : Uri} {entry : FileEntry} :
      uri ∉ seen → g.entry? uri = some entry →
      DepthFirst g (uri :: seen) entry.imports inner →
      DepthFirst g (inner.reverse ++ uri :: seen) todo rest →
      DepthFirst g seen (uri :: todo) (uri :: inner ++ rest)

theorem unseen_append (g : Registry) (more seen : List Uri) :
    g.unseen (more ++ seen) = (g.unseen seen).filter fun uri => !more.contains uri := by
  simp only [unseen, List.filter_filter]
  congr 1
  funext uri
  simp

theorem length_unseen_cons_lt {entry : FileEntry} (hentry : g.entry? uri = some entry)
    (hseen : uri ∉ seen) : (g.unseen (uri :: seen)).length < (g.unseen seen).length := by
  obtain ⟨file, hfile, -⟩ := Option.map_eq_some_iff.1 hentry
  rw [← List.singleton_append, unseen_append, List.length_filter_lt_length_iff_exists]
  refine ⟨uri, ?_, by simp⟩
  simp [unseen, Table.mem_keys_of_get? hfile, hseen]

/-- Every traversal comes to an end: each visit leaves fewer files that were not seen. -/
theorem exists_depthFirst (g : Registry) (seen todo : List Uri) :
    ∃ visited, g.DepthFirst seen todo visited := by
  match todo with
  | [] => exact ⟨[], .done⟩
  | uri :: todo =>
    by_cases hskip : uri ∈ seen ∨ g.entry? uri = none
    · obtain ⟨visited, hvisited⟩ := exists_depthFirst g seen todo
      exact ⟨visited, .skip hskip hvisited⟩
    · rw [not_or] at hskip
      obtain ⟨entry, hentry⟩ := Option.ne_none_iff_exists'.1 hskip.2
      have hfewer := length_unseen_cons_lt hentry hskip.1
      obtain ⟨inner, hinner⟩ := exists_depthFirst g (uri :: seen) entry.imports
      have hmore : (g.unseen (inner.reverse ++ uri :: seen)).length ≤
          (g.unseen (uri :: seen)).length := by
        rw [unseen_append]
        exact List.length_filter_le ..
      obtain ⟨rest, hrest⟩ := exists_depthFirst g (inner.reverse ++ uri :: seen) todo
      exact ⟨_, .visit hskip.1 hentry hinner hrest⟩
termination_by ((g.unseen seen).length, todo.length)

namespace DepthFirst

/-- There is only one traversal. -/
theorem unique (h : g.DepthFirst seen todo visited) {visited' : List Uri}
    (h' : g.DepthFirst seen todo visited') : visited' = visited := by
  induction h generalizing visited' with
  | done => cases h'; rfl
  | skip hskip _ ih =>
    cases h' with
    | skip _ h' => exact ih h'
    | visit hseen hentry =>
      rcases hskip with hmem | hnone
      · exact absurd hmem hseen
      · rw [hnone] at hentry
        cases hentry
  | visit hseen hentry _ _ ihInner ihRest =>
    cases h' with
    | skip hskip =>
      rcases hskip with hmem | hnone
      · exact absurd hmem hseen
      · rw [hnone] at hentry
        cases hentry
    | visit _ hentry' hinner' hrest' =>
      rw [hentry] at hentry'
      cases hentry'
      have hinner := ihInner hinner'
      subst hinner
      rw [ihRest hrest']

/-- A file is visited at most once, and only if it was not seen. -/
theorem nodup (h : g.DepthFirst seen todo visited) :
    visited.Nodup ∧ ∀ u ∈ visited, u ∉ seen := by
  induction h with
  | done => exact ⟨List.nodup_nil, by simp⟩
  | skip _ _ ih => exact ih
  | @visit seen todo inner rest uri entry hseen hentry hinner hrest ihInner ihRest =>
    obtain ⟨hnodup, hnew⟩ := ihInner
    obtain ⟨hnodup', hnew'⟩ := ihRest
    simp only [List.mem_append, List.mem_reverse, List.mem_cons, not_or] at hnew'
    simp only [List.mem_cons, not_or] at hnew
    refine ⟨?_, ?_⟩
    · rw [List.cons_append, List.nodup_cons, List.nodup_append']
      refine ⟨?_, hnodup, hnodup', fun u hu hu' => (hnew' u hu').1 hu⟩
      rw [List.mem_append, not_or]
      exact ⟨fun hmem => (hnew uri hmem).1 rfl, fun hmem => (hnew' uri hmem).2.1 rfl⟩
    · intro u hu
      rw [List.cons_append, List.mem_cons, List.mem_append] at hu
      rcases hu with rfl | hu | hu
      · exact hseen
      · exact (hnew u hu).2
      · exact (hnew' u hu).2.2

/-- Only files that were read and can be reached are visited. -/
theorem reached (h : g.DepthFirst seen todo visited) (hu : u ∈ visited) :
    (∃ entry, g.entry? u = some entry) ∧ ∃ start ∈ todo, g.Reaches start u := by
  induction h with
  | done => cases hu
  | skip _ _ ih =>
    obtain ⟨hread, start, hstart, hreach⟩ := ih hu
    exact ⟨hread, start, List.mem_cons_of_mem _ hstart, hreach⟩
  | @visit seen todo inner rest uri entry hseen hentry hinner hrest ihInner ihRest =>
    rw [List.cons_append, List.mem_cons, List.mem_append] at hu
    rcases hu with rfl | hu | hu
    · exact ⟨⟨entry, hentry⟩, u, List.mem_cons_self .., .refl⟩
    · obtain ⟨hread, start, hstart, hreach⟩ := ihInner hu
      have hedge : g.Imports uri start := imports_iff.2 ⟨entry, hentry, hstart⟩
      exact ⟨hread, uri, List.mem_cons_self .., .head hedge hreach⟩
    · obtain ⟨hread, start, hstart, hreach⟩ := ihRest hu
      exact ⟨hread, start, List.mem_cons_of_mem _ hstart, hreach⟩

/-- What the traversal behind a file finds is found, or was seen before the file. -/
theorem mem_visit {inner rest : List Uri} (h : u ∈ rest ∨ u ∈ inner.reverse ++ uri :: seen) :
    u ∈ uri :: inner ++ rest ∨ u ∈ seen := by
  simp only [List.mem_append, List.mem_reverse, List.mem_cons] at h
  rcases h with hrest | hinner | rfl | hseen
  · exact .inl (List.mem_append_right _ hrest)
  · exact .inl (List.mem_append_left _ (List.mem_cons_of_mem _ hinner))
  · exact .inl (List.mem_append_left _ (List.mem_cons_self ..))
  · exact .inr hseen

/-- Every file of `todo` that was read is visited, unless it was seen. -/
theorem covers (h : g.DepthFirst seen todo visited) (hu : u ∈ todo) {entry : FileEntry}
    (hread : g.entry? u = some entry) : u ∈ visited ∨ u ∈ seen := by
  induction h with
  | done => cases hu
  | skip hskip _ ih =>
    rcases List.mem_cons.1 hu with rfl | hu
    · rcases hskip with hmem | hnone
      · exact .inr hmem
      · rw [hnone] at hread
        cases hread
    · exact ih hu
  | @visit seen todo inner rest uri entry' hseen hentry hinner hrest ihInner ihRest =>
    rcases List.mem_cons.1 hu with rfl | hu
    · exact .inl (List.mem_cons_self ..)
    · exact mem_visit (ihRest hu)

/-- The imports of a visited file are visited, or were seen, or were never read: a file that
    is passed over hides nothing. -/
theorem closed (h : g.DepthFirst seen todo visited) (hu : u ∈ visited) (hedge : g.Imports u v)
    {entry : FileEntry} (hread : g.entry? v = some entry) : v ∈ visited ∨ v ∈ seen := by
  induction h with
  | done => cases hu
  | skip _ _ ih => exact ih hu
  | @visit seen todo inner rest uri entry' hseen hentry hinner hrest ihInner ihRest =>
    have hinnerMem : v ∈ inner ∨ v ∈ uri :: seen →
        v ∈ uri :: inner ++ rest ∨ v ∈ seen := by
      rintro (hinner | hseen)
      · exact mem_visit (.inr (List.mem_append_left _ (List.mem_reverse.2 hinner)))
      · exact mem_visit (.inr (List.mem_append_right _ hseen))
    rw [List.cons_append, List.mem_cons, List.mem_append] at hu
    rcases hu with rfl | hu | hu
    · -- the traversal of the imports of the file itself covers them
      obtain ⟨own, hown, hmem⟩ := imports_iff.1 hedge
      rw [hentry] at hown
      cases hown
      exact hinnerMem (hinner.covers hmem hread)
    · exact hinnerMem (ihInner hu)
    · exact mem_visit (ihRest hu)

/-- The traversal from one file visits the files that were read and can be reached from it. -/
theorem mem_iff (h : g.DepthFirst [] [uri] visited) :
    u ∈ visited ↔ g.Reaches uri u ∧ ∃ entry, g.entry? u = some entry := by
  constructor
  · intro hu
    obtain ⟨hread, start, hstart, hreach⟩ := h.reached hu
    rw [List.mem_singleton.1 hstart] at hreach
    exact ⟨hreach, hread⟩
  · rintro ⟨hreach, entry, hread⟩
    induction hreach generalizing entry with
    | refl => exact (h.covers (List.mem_singleton_self _) hread).resolve_right List.not_mem_nil
    | tail _ hedge ih =>
      have ⟨entry', hread', _⟩ := imports_iff.1 hedge
      exact (h.closed (ih _ hread') hedge hread).resolve_right List.not_mem_nil

/-! ## The search -/

/-- What a file answers to the search for a variable. -/
def answer? (g : Registry) (name : Text) (uri : Uri) : Option FoundVariable :=
  (g.entry? uri).bind fun entry => (entry.topLevelVariable? name).map (⟨uri, ·⟩)

/-- The search asks the files in the order of the traversal, and goes on behind them where it
    stands after it. -/
theorem findFrom?_eq (h : g.DepthFirst seen todo visited) (name : Text) (more : List Uri) :
    g.findFrom? name seen (todo ++ more) =
      (visited.findSome? (answer? g name)).or (g.findFrom? name (visited.reverse ++ seen) more) := by
  induction h generalizing more with
  | done => rfl
  | skip hskip _ ih => rw [List.cons_append, findFrom?_skip hskip, ih]
  | @visit seen todo inner rest uri entry hseen hentry hinner hrest ihInner ihRest =>
    rw [List.cons_append, findFrom?_visit hseen hentry, List.cons_append, List.findSome?_cons, answer?,
      hentry, Option.bind_some]
    cases hdecl : entry.topLevelVariable? name with
    | some decl => rfl
    | none =>
      dsimp only [Option.map_none]
      rw [ihInner, ihRest, List.findSome?_append, Option.or_assoc]
      simp

end DepthFirst

theorem findVariable?_eq (h : g.DepthFirst [] [uri] visited) (name : Text) :
    g.findVariable? uri name = visited.findSome? (DepthFirst.answer? g name) := by
  have hsearch := h.findFrom?_eq name []
  rw [List.append_nil] at hsearch
  rw [findVariable?, hsearch, findFrom?, Option.or_none]

theorem DepthFirst.answer?_eq_some_iff {found : FoundVariable} :
    answer? g name u = some found ↔
      found.uri = u ∧ ∃ entry, g.entry? u = some entry ∧ entry.LastDeclares name found.decl := by
  obtain ⟨uri, decl⟩ := found
  simp only [answer?, Option.bind_eq_some_iff, Option.map_eq_some_iff, FoundVariable.mk.injEq,
    FileEntry.topLevelVariable?_eq_some_iff]
  constructor
  · rintro ⟨entry, hentry, own, hown, rfl, rfl⟩
    exact ⟨rfl, entry, hentry, hown⟩
  · rintro ⟨rfl, entry, hentry, hdecl⟩
    exact ⟨entry, hentry, decl, hdecl, rfl, rfl⟩

theorem DepthFirst.answer?_eq_none_iff :
    answer? g name u = none ↔ ∀ entry, g.entry? u = some entry → ¬entry.Declares name := by
  simp only [answer?, Option.bind_eq_none_iff, Option.map_eq_none_iff,
    FileEntry.topLevelVariable?_eq_none_iff]

/-- **The search for a variable is sound and complete.**  In every registry there is one
    depth-first traversal from a file; it visits the files that were read and can be reached,
    each of them once.  The search finds a variable if and only if one of these files declares
    it, and then it finds the last declaration of the first file of the traversal that has
    one. -/
theorem findVariable?_spec (g : Registry) (uri : Uri) (name : Text) :
    (∃ order, (∀ visited, g.DepthFirst [] [uri] visited ↔ visited = order) ∧ order.Nodup ∧
      (∀ u, u ∈ order ↔ g.Reaches uri u ∧ ∃ entry, g.entry? u = some entry) ∧
      ∀ found, g.findVariable? uri name = some found ↔
        ∃ before after entry, order = before ++ found.uri :: after ∧
          g.entry? found.uri = some entry ∧ entry.LastDeclares name found.decl ∧
          ∀ u ∈ before, ∀ entry, g.entry? u = some entry → ¬entry.Declares name) ∧
    ((g.findVariable? uri name).isSome ↔
      ∃ u entry, g.Reaches uri u ∧ g.entry? u = some entry ∧ entry.Declares name) := by
  obtain ⟨order, horder⟩ := exists_depthFirst g [] [uri]
  have hsearch := findVariable?_eq horder name
  refine ⟨⟨order, fun visited => ⟨horder.unique, fun h => h ▸ horder⟩, horder.nodup.1,
    fun u => horder.mem_iff, fun found => ?_⟩, ?_⟩
  · rw [hsearch, List.findSome?_eq_some_iff]
    simp only [DepthFirst.answer?_eq_some_iff, DepthFirst.answer?_eq_none_iff]
    constructor
    · rintro ⟨before, u, after, hsplit, ⟨rfl, entry, hentry, hlast⟩, hbefore⟩
      exact ⟨before, after, entry, hsplit, hentry, hlast, hbefore⟩
    · rintro ⟨before, after, entry, hsplit, hentry, hlast, hbefore⟩
      exact ⟨before, found.uri, after, hsplit, ⟨rfl, entry, hentry, hlast⟩, hbefore⟩
  · rw [← not_iff_not, Bool.not_eq_true, Option.isSome_eq_false_iff, Option.isNone_iff_eq_none,
      hsearch, List.findSome?_eq_none_iff]
    simp only [DepthFirst.answer?_eq_none_iff, horder.mem_iff]
    constructor
    · rintro h ⟨u, entry, hreach, hentry, hdeclares⟩
      exact h u ⟨hreach, entry, hentry⟩ entry hentry hdeclares
    · rintro h u ⟨hreach, -⟩ entry hentry hdeclares
      exact h ⟨u, entry, hreach, hentry, hdeclares⟩

/-- Two files import each other, the first of them also one that was never read, the second
    one that declares `$x` twice: the search goes around, and what it does not find nothing that
    can be reached declares. -/
theorem findVariable?_circle :
    let file (name : String) : Uri := ⟨"file".toList, none, name.toList, none, none⟩
    let importOf (line : Nat) (name : String) : Node :=
      .leaf line (.importPath 0 name.toList (some (file name)))
    let variableAt (line : Nat) : Node := .leaf line (.variableDecl 0 "$x".toList [])
    let stored (name : String) (body : List Node) : Uri × StoredFile :=
      (file name, ⟨[], {}, ⟨body, []⟩⟩)
    let g : Registry :=
      { files := ⟨[stored "/a" [importOf 0 "/lost", importOf 1 "/b"],
          stored "/b" [importOf 0 "/a", importOf 1 "/c"],
          stored "/c" [variableAt 0, importOf 1 "/b", variableAt 2]]⟩ }
    g.Imports (file "/a") (file "/b") ∧ g.Imports (file "/b") (file "/a") ∧
      (g.findVariable? (file "/a") "$x".toList).map FoundVariable.location =
        some ⟨file "/c", 2⟩ ∧
      ∀ u entry, g.Reaches (file "/a") u → g.entry? u = some entry →
        ¬entry.Declares "$y".toList := by
  intro file importOf variableAt stored g
  have hsearch := (findVariable?_spec g (file "/a") "$y".toList).2
  have hnone : (g.findVariable? (file "/a") "$y".toList).isSome = false := by decide +kernel
  refine ⟨⟨_, 1, 0, "/b".toList, rfl, .tail _ (.head _)⟩, ⟨_, 0, 0, "/a".toList, rfl, .head _⟩,
    by decide +kernel, ?_⟩
  intro u entry hreach hentry hdeclares
  have hsome := hsearch.2 ⟨u, entry, hreach, hentry, hdeclares⟩
  rw [hnone] at hsome
  cases hsome

end Registry

end IndentedSass
