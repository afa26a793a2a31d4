/-
  The levels of a scope.

  * `addAtLevel_getD`, `addAtLevel_flatten`: an item that is added at the deepest
    level is the last of all;
  * `Scope.resolve_visible`: a reference leads to the latest of the variables with its
    name that are visible, when these are in the order of their lines;
  * `Scope.resolve_eq`: without other files, it leads nowhere else.
-/
import Mathlib
import IndentedSass.Reader.Line
import IndentedSass.Proofs.Reader.Step

namespace IndentedSass

/-! ## Levels -/

theorem addAtLevel_getD {α : Type} (level : Nat) (a : α) (levels : List (List α)) (k : Nat) :
    (addAtLevel level a levels).getD k [] =
      if k = level then levels.getD level [] ++ [a] else levels.getD k [] := by
  have hpad : ∀ i : Nat, (levels ++ List.replicate (level + 1 - levels.length) [])[i]?.getD [] =
      levels[i]?.getD [] := by
    intro i
    rcases Nat.lt_or_ge i levels.length with hlt | hge
    · rw [List.getElem?_append_left hlt]
    · rw [List.getElem?_append_right hge, List.getElem?_eq_none hge, List.getElem?_replicate]
      split <;> rfl
  have hlen : level < (levels ++ List.replicate (level + 1 - levels.length) []).length := by
    rw [List.length_append, List.length_replicate]
    omega
  simp only [addAtLevel, List.getD_eq_getElem?_getD]
  by_cases hk : k = level
  · subst hk
    rw [if_pos rfl, List.getElem?_modify_eq, ← hpad k, List.getElem?_eq_getElem hlen]
    rfl
  · rw [if_neg hk, List.getElem?_modify_ne _ _ (Ne.symm hk), hpad]

/-- An item added at a level that is not above another is the last one. -/
theorem addAtLevel_flatten {α : Type} {level : Nat} (a : α) {levels : List (List α)}
    (h : levels.length ≤ level + 1) :
    (addAtLevel level a levels).flatten = levels.flatten ++ [a] := by
  have hlen : (levels ++ List.replicate (level + 1 - levels.length) []).length = level + 1 := by
    rw [List.length_append, List.length_replicate]
    omega
  obtain ⟨first, last, hsplit⟩ : ∃ first last,
      levels ++ List.replicate (level + 1 - levels.length) [] = first ++ [last] :=
    ⟨_, _, (List.dropLast_concat_getLast (List.ne_nil_of_length_eq_add_one hlen)).symm⟩
  have hflat : levels.flatten = first.flatten ++ last := by
    have hf := congrArg List.flatten hsplit
    rw [List.flatten_append, List.flatten_append, List.flatten_replicate_nil, List.append_nil] at hf
    rw [hf]
    simp
  have hfirst : first.length = level := by
    rw [hsplit, List.length_append] at hlen
    simpa using hlen
  have hget : (first ++ [last]).modify level (· ++ [a]) = first ++ [last ++ [a]] := by
    subst hfirst
    rw [List.modify_eq_take_cons_drop (by simp)]
    simp
  rw [addAtLevel, hsplit, hflat, hget]
  simp

namespace Scope

variable {s : Scope}

/-- The parameters of a mixin are the last level. -/
theorem declareAll_declared {line level : Nat} (parameters : List Parameter)
    (h : s.declared.length ≤ level + 1) :
    (s.declareAll parameters line level).declared.flatten =
        s.declared.flatten ++ parameters.map (fun p => ⟨p.name, line⟩) ∧
      ∀ k, (s.declareAll parameters line level).declared.getD k [] =
        if k = level then s.declared.getD level [] ++ parameters.map (fun p => ⟨p.name, line⟩)
        else s.declared.getD k [] := by
  induction parameters generalizing s with
  | nil =>
    refine ⟨by simp [declareAll], fun k => ?_⟩
    simp only [declareAll, List.foldl_nil, List.map_nil, List.append_nil]
    split
    · subst_vars; rfl
    · rfl
  | cons p rest ih =>
    have htake : s.declared.take (level + 1) = s.declared := List.take_of_length_le h
    have hone : (s.declareParameter p.name line level).declared =
        addAtLevel level ⟨p.name, line⟩ s.declared := by
      rw [declareParameter, htake]
    have hlen : (s.declareParameter p.name line level).declared.length ≤ level + 1 := by
      rw [hone, addAtLevel, List.length_modify, List.length_append, List.length_replicate]
      omega
    obtain ⟨hflatten, hget⟩ := ih hlen
    refine ⟨?_, fun k => ?_⟩
    · rw [show s.declareAll (p :: rest) line level =
        (s.declareParameter p.name line level).declareAll rest line level from rfl, hflatten, hone,
        addAtLevel_flatten _ h]
      simp
    · rw [show s.declareAll (p :: rest) line level =
        (s.declareParameter p.name line level).declareAll rest line level from rfl, hget, hone,
        addAtLevel_getD, addAtLevel_getD]
      split <;> simp

/-- A block that is opened leaves the levels above it as they are, and its parameters are the next
    one. -/
theorem declared_getD_opened (s : Scope) (level : Nat) (path : TreePath)
    (parameters : List Parameter) (line k : Nat) :
    ((s.enter level path).declareAll parameters line (level + 1)).declared.getD k [] =
      if k ≤ level then s.declared.getD k []
      else if k = level + 1 then parameters.map (fun p => ⟨p.name, line⟩) else [] := by
  have hshort : (s.declared.take (level + 1)).length ≤ level + 1 := List.length_take_le _ _
  have hbelow : ∀ i, level < i → (s.declared.take (level + 1)).getD i [] = [] := by
    intro i hi
    rw [List.getD_eq_getElem?_getD, List.getElem?_eq_none (by omega)]
    rfl
  have henter : (s.enter level path).declared = s.declared.take (level + 1) := rfl
  rw [(declareAll_declared parameters (by rw [henter]; omega)).2, henter]
  by_cases hk : k ≤ level
  · rw [if_pos hk, if_neg (by omega), List.getD_eq_getElem?_getD,
      List.getElem?_take_of_lt (by omega), List.getD_eq_getElem?_getD]
  · rw [if_neg hk, hbelow k (by omega), hbelow (level + 1) (Nat.lt_succ_self level), List.nil_append]

/-! ## Looking up -/

theorem visibleVariables_eq (s : Scope) (level : Nat) :
    s.visibleVariables level = (s.declared.take (level + 1)).flatten.reverse := by
  rw [visibleVariables, List.reverse_flatten, List.flatMap_def, List.map_reverse]

/-- A variable of a level is declared before those of deeper levels, when all of them are in the
    order of their lines. -/
theorem line_le_of_lt {levels : List (List Declared)}
    (hsorted : levels.flatten.Pairwise (·.line ≤ ·.line)) {k l : Nat} (hlt : k < l) {v w : Declared}
    (hv : v ∈ levels.getD k []) (hw : w ∈ levels.getD l []) : v.line ≤ w.line := by
  have hget : ∀ {n : Nat} {u : Declared}, u ∈ levels.getD n [] →
      ∃ hn : n < levels.length, u ∈ levels[n] := by
    intro n u hu
    rcases Nat.lt_or_ge n levels.length with hn | hn
    · exact ⟨hn, by rwa [List.getD_eq_getElem _ _ hn] at hu⟩
    · rw [List.getD_eq_default _ _ hn] at hu
      cases hu
  obtain ⟨hk, hv⟩ := hget hv
  obtain ⟨hl, hw⟩ := hget hw
  exact List.pairwise_iff_getElem.1 (List.pairwise_flatten.1 hsorted).2 k l hk hl hlt v hv w hw

/-- A reference leads to the latest visible variable with its name, when there is one. -/
theorem resolve_visible (find : Finder) {level : Nat}
    (hsorted : (s.declared.take (level + 1)).flatten.Pairwise (·.line ≤ ·.line)) {x : Text} {i : Nat}
    (hi : ⟨x, i⟩ ∈ (s.declared.take (level + 1)).flatten) :
    ∃ j, IsGreatest {j | ⟨x, j⟩ ∈ (s.declared.take (level + 1)).flatten} j ∧
      s.resolve find x none level = some ⟨s.uri, j⟩ := by
  unfold resolve
  rw [visibleVariables_eq]
  generalize (s.declared.take (level + 1)).flatten = visible at hsorted hi
  simp only [Option.isNone_none, if_true]
  cases hfound : visible.reverse.find? (fun v => v.name == x) with
  | none =>
    have hnone := List.find?_eq_none.1 hfound ⟨x, i⟩ (List.mem_reverse.2 hi)
    simp at hnone
  | some v =>
    obtain ⟨hname, before, after, hsplit, hbefore⟩ := List.find?_eq_some_iff_append.1 hfound
    have hname : v.name = x := by simpa using hname
    refine ⟨v.line, ⟨?_, ?_⟩, rfl⟩
    · have hmem : v ∈ visible := List.mem_reverse.1 (by rw [hsplit]; simp)
      show ⟨x, v.line⟩ ∈ visible
      rw [← hname]
      exact hmem
    · -- what was declared later has another name, what was declared before a smaller line
      intro j hj
      have hmem : (⟨x, j⟩ : Declared) ∈ before ++ v :: after := by
        rw [← hsplit]
        exact List.mem_reverse.2 hj
      rw [← List.reverse_reverse visible, hsplit, List.pairwise_reverse,
        List.pairwise_append, List.pairwise_cons] at hsorted
      rcases List.mem_append.1 hmem with hlate | hrest
      · have habs := hbefore ⟨x, j⟩ hlate
        simp at habs
      · rcases List.mem_cons.1 hrest with heq | hearly
        · rw [← heq]
        · exact hsorted.2.1.1 ⟨x, j⟩ hearly

/-- Without other files, a reference leads to the latest visible variable with its
    name; a reference with a qualifier leads nowhere. -/
theorem resolve_eq {find : Finder} (hfind : ∀ turn uri name, find turn uri name = none)
    {level : Nat}
    (hsorted : (s.declared.take (level + 1)).flatten.Pairwise (·.line ≤ ·.line)) (x : Text) :
    ((∃ j, IsGreatest {j | ⟨x, j⟩ ∈ (s.declared.take (level + 1)).flatten} j ∧
        s.resolve find x none level = some ⟨s.uri, j⟩) ∨
      ((∀ j, ⟨x, j⟩ ∉ (s.declared.take (level + 1)).flatten) ∧
        s.resolve find x none level = none)) ∧
      ∀ qualifier, s.resolve find x (some qualifier) level = none := by
  have himports : ∀ imports : List (Imported × Nat),
      imports.findSome? (fun asked => find asked.2 asked.1.uri x) = none := by
    intro imports
    rw [List.findSome?_eq_none_iff]
    exact fun asked _ => hfind asked.2 asked.1.uri x
  refine ⟨?_, fun qualifier => ?_⟩
  · by_cases hvisible : ∃ i, ⟨x, i⟩ ∈ (s.declared.take (level + 1)).flatten
    · exact .inl (resolve_visible find hsorted hvisible.choose_spec)
    · refine .inr ⟨not_exists.1 hvisible, ?_⟩
      have hnone : (s.visibleVariables level).find? (fun v => v.name == x) = none := by
        rw [visibleVariables_eq, List.find?_eq_none]
        rintro ⟨name, line⟩ hv hname
        obtain rfl : name = x := by simpa using hname
        exact hvisible ⟨line, List.mem_reverse.1 hv⟩
      rw [resolve, hnone]
      exact himports _
  · unfold resolve
    simp only [Option.isNone_some, Bool.false_eq_true, if_false]
    exact himports _

end Scope

end IndentedSass
