/-
  Variables of files that were read.

  A variable of a file is declared at its top level or in a file that it
  imports.  `Registry.findVariable?` looks for it: in the file itself, then in
  its imports, in their order and each with its own imports.  A file is looked
  at only once, so imports that lead back to a file do no harm.
-/
import IndentedSass.Workspace.Registry

namespace IndentedSass

/-- The files that a file imports at its top level, in order. -/
def FileEntry.imports (entry : FileEntry) : List Uri :=
  entry.body.filterMap fun
    | .leaf _ (.importPath _ _ target) => target
    | _ => none

theorem FileEntry.mem_imports {entry : FileEntry} {v : Uri} :
    v ∈ entry.imports ↔ ∃ line level path,
      Node.leaf line (.importPath level path (some v)) ∈ entry.body := by
  simp only [imports, List.mem_filterMap]
  constructor
  · rintro ⟨node, hmem, htarget⟩
    split at htarget
    · subst htarget
      exact ⟨_, _, _, hmem⟩
    · cases htarget
  · rintro ⟨line, level, path, hmem⟩
    exact ⟨_, hmem, rfl⟩

/-- A variable and the file that declares it. -/
structure FoundVariable where
  /-- The file. -/
  uri : Uri
  /-- The declaration. -/
  decl : VariableDecl
  deriving Repr

/-- Where a variable was found. -/
def FoundVariable.location (f : FoundVariable) : Location := ⟨f.uri, f.decl.line⟩

namespace Registry

/-- The files that were read and are still to be looked at. -/
def unseen (g : Registry) (seen : List Uri) : List Uri :=
  g.files.keys.filter fun uri => !seen.contains uri

/-- The files that are still to be looked at, with their imports. -/
def ahead (g : Registry) (seen : List Uri) : Nat :=
  (g.unseen seen).foldr (fun uri n => ((g.entry? uri).map (·.imports.length)).getD 0 + 1 + n) 0

theorem foldr_filter_ne_le {α : Type} [DecidableEq α] {a : α} (f : α → Nat) {l : List α}
    (h : a ∈ l) : (l.filter fun b => b ≠ a).foldr (f · + ·) 0 + f a ≤ l.foldr (f · + ·) 0 := by
  have hle : ∀ l : List α,
      (l.filter fun b => b ≠ a).foldr (f · + ·) 0 ≤ l.foldr (f · + ·) 0 := by
    intro l
    induction l with
    | nil => exact Nat.le_refl _
    | cons b l ih =>
      rw [List.filter_cons]
      split <;> simp only [List.foldr_cons] <;> omega
  induction l with
  | nil => cases h
  | cons b l ih =>
    by_cases hb : b = a
    · have hrest := hle l
      simp only [hb, List.filter_cons, ne_eq, not_true_eq_false, decide_false, Bool.false_eq_true,
        if_false, List.foldr_cons]
      simp only [ne_eq] at hrest
      omega
    · have hrest := ih ((List.mem_cons.1 h).resolve_left (Ne.symm hb))
      simp only [hb, List.filter_cons, ne_eq, not_false_eq_true, decide_true, if_true,
        List.foldr_cons]
      simp only [ne_eq] at hrest
      omega

theorem ahead_lt {g : Registry} {seen : List Uri} {uri : Uri} {file : StoredFile}
    (hfile : g.files.get? uri = some file) (hseen : uri ∉ seen) :
    g.ahead (uri :: seen) + file.entry.imports.length < g.ahead seen := by
  have hmem : uri ∈ g.unseen seen := by
    simp [unseen, Table.mem_keys_of_get? hfile, hseen]
  have hsplit : g.unseen (uri :: seen) = (g.unseen seen).filter fun u => u ≠ uri := by
    simp only [unseen, List.filter_filter]
    congr 1
    funext u
    by_cases h : u = uri <;> simp [h]
  have hsum := foldr_filter_ne_le
    (fun uri => ((g.entry? uri).map (·.imports.length)).getD 0 + 1) hmem
  rw [← hsplit] at hsum
  simp only [hfile, entry?, Option.map_some, Option.getD_some] at hsum
  simp only [ahead, entry?]
  omega

/-- Looks for a variable in the files `todo` and in their imports, except in the
    files that were seen. -/
def findFrom? (g : Registry) (name : Text) (seen : List Uri) : List Uri → Option FoundVariable
  | [] => none
  | uri :: todo =>
    if _h : uri ∈ seen then findFrom? g name seen todo
    else match _hfile : g.files.get? uri with
      | none => findFrom? g name seen todo
      | some file =>
        match file.entry.topLevelVariable? name with
        | some decl => some ⟨uri, decl⟩
        | none => findFrom? g name (uri :: seen) (file.entry.imports ++ todo)
termination_by todo => g.ahead seen + todo.length
decreasing_by
  · exact Nat.lt_succ_self _
  · exact Nat.lt_succ_self _
  · have hlt := ahead_lt _hfile _h
    simp only [List.length_append, List.length_cons]
    omega

/-- A file that was seen, or was not read, is passed over. -/
theorem findFrom?_skip {g : Registry} {seen todo : List Uri} {uri : Uri}
    (hskip : uri ∈ seen ∨ g.entry? uri = none) (name : Text) :
    g.findFrom? name seen (uri :: todo) = g.findFrom? name seen todo := by
  rw [findFrom?]
  by_cases hmem : uri ∈ seen
  · rw [dif_pos hmem]
  · have hnone : g.files.get? uri = none := Option.map_eq_none_iff.1 (hskip.resolve_left hmem)
    rw [dif_neg hmem]
    split
    · rfl
    · rename_i file hfile
      rw [hnone] at hfile
      cases hfile

/-- Any other file is asked, and its imports are looked at after it. -/
theorem findFrom?_visit {g : Registry} {seen todo : List Uri} {uri : Uri} {entry : FileEntry}
    (hseen : uri ∉ seen) (hentry : g.entry? uri = some entry) (name : Text) :
    g.findFrom? name seen (uri :: todo) =
      match entry.topLevelVariable? name with
      | some decl => some ⟨uri, decl⟩
      | none => g.findFrom? name (uri :: seen) (entry.imports ++ todo) := by
  obtain ⟨stored, hstored, rfl⟩ := Option.map_eq_some_iff.1 hentry
  rw [findFrom?, dif_neg hseen]
  split
  · rename_i hnone
    rw [hstored] at hnone
    cases hnone
  · rename_i file hfile
    rw [hstored] at hfile
    cases hfile
    rfl

/-- The last declaration of a variable at the top level of a file or, when it
    has none, of the files that it imports. -/
def findVariable? (g : Registry) (uri : Uri) (name : Text) : Option FoundVariable :=
  g.findFrom? name [] [uri]

end Registry

end IndentedSass
