/-
  The scope as a log.

  A scope holds its variables and imports in stacks, level by level, and cuts the stacks
  whenever a line comes back to a shallower level.  The same is said without stacks: what was
  declared is live until something happens at a shallower level, and what is live at the level
  of a line or above it is visible there, in the order in which it was declared.

  * `Scope.Event` is what is done to a scope, `Scope.after` the scope after some events;
  * `Scope.live` lists what the events declare and do not end again (`live_concat`), for
    variables and parameters (`Scope.liveVariables`) and for imports (`Scope.liveImports`),
    which the parameters of a mixin do not end;
  * `Scope.Holds`: cut at any level, the stacks hold what is live down to there; each event
    keeps this (`Holds.cut`, `Holds.add`);
  * `Scope.after_visible`: after any events, what is visible is what is live, and a reference
    leads to the latest live variable with its name or to the first import that answers, of
    those that its qualifier admits (`Imported.admits_iff`).
-/
import Mathlib
import IndentedSass.Proofs.Scope.Levels

namespace IndentedSass

/-! ## Levels, cut -/

/-- What is added at a level does not show above it. -/
theorem addAtLevel_take_of_lt {α : Type} {level k : Nat} (h : k < level) (a : α)
    (levels : List (List α)) :
    ((addAtLevel level a levels).take (k + 1)).flatten = (levels.take (k + 1)).flatten := by
  rw [addAtLevel, List.take_modify, List.modify_eq_self (by simp; omega), List.take_append,
    List.take_replicate, List.flatten_append, List.flatten_replicate_nil, List.append_nil]

/-- What is added at the deepest level is the last item of all levels down to it. -/
theorem addAtLevel_take_of_le {α : Type} {level k : Nat} (h : level ≤ k) (a : α)
    {levels : List (List α)} (hlength : levels.length ≤ level + 1) :
    ((addAtLevel level a levels).take (k + 1)).flatten = levels.flatten ++ [a] := by
  rw [List.take_of_length_le, addAtLevel_flatten a hlength]
  rw [addAtLevel, List.length_modify, List.length_append, List.length_replicate]
  omega

/-- A reference may mean a variable of a merged file whatever its qualifier, and one of a file
    with a qualifier of its own only with that one. -/
theorem Imported.admits_iff {qualifier : Option Text} {imported : Imported} :
    imported.admits qualifier = true ↔
      (∃ uri, imported = .merged uri) ∨ ∃ uri, imported = .qualified uri qualifier := by
  cases imported with
  | merged uri => exact iff_of_true rfl (.inl ⟨uri, rfl⟩)
  | qualified uri own => simp [admits]

namespace Scope

/-! ## Events -/

/-- What is done to a scope while a file is read. -/
inductive Event where
  /-- A block is opened. -/
  | enter (level : Nat) (path : TreePath)
  /-- A line comes that declares nothing. -/
  | truncate (level : Nat)
  /-- A variable is declared. -/
  | declare (name : Text) (line level : Nat)
  /-- A parameter of a mixin is declared. -/
  | parameter (name : Text) (line level : Nat)
  /-- A file is imported. -/
  | imports (imported : Imported) (level : Nat)
  deriving DecidableEq, Repr

namespace Event

/-- The level at which something happens. -/
def level : Event → Nat
  | enter level _ | truncate level | declare _ _ level | parameter _ _ level | imports _ level =>
    level

/-- The variable or parameter that is declared. -/
def declared? : Event → Option Declared
  | declare name line _ | parameter name line _ => some ⟨name, line⟩
  | enter .. | truncate _ | imports .. => none

/-- The file that is imported. -/
def import? : Event → Option Imported
  | imports imported _ => some imported
  | enter .. | truncate _ | declare .. | parameter .. => none

/-- Whether a parameter is declared. -/
def isParameter : Event → Bool
  | parameter .. => true
  | enter .. | truncate _ | declare .. | imports .. => false

end Event

/-- The scope after an event. -/
def apply (s : Scope) : Event → Scope
  | .enter level path => s.enter level path
  | .truncate level => s.truncate level
  | .declare name line level => s.declare name line level
  | .parameter name line level => s.declareParameter name line level
  | .imports imported level => s.declareImport imported level

/-- The scope of a file after some events. -/
def after (uri : Uri) (events : List Event) : Scope := events.foldl apply { uri }

/-! ## What is live -/

/-- Something that was declared, and the level of its declaration. -/
structure Entry (α : Type) where
  level : Nat
  item : α

section

variable {α : Type} (declares : Event → Option α) (ends : Event → Bool)

/-- What the events declare and no later event at a shallower level ends, in the order of
    declaration; only the events with `ends` can end something. -/
def live : List Event → List (Entry α)
  | [] => []
  | e :: later =>
    match declares e with
    | none => live later
    | some a =>
      if ∃ e' ∈ later, ends e' ∧ e'.level < e.level then live later
      else ⟨e.level, a⟩ :: live later

/-- One more event ends what is deeper and declares something itself. -/
theorem live_concat (events : List Event) (e : Event) :
    live declares ends (events ++ [e]) =
      (live declares ends events).filter (fun entry => !(ends e && e.level < entry.level)) ++
        (declares e).toList.map (⟨e.level, ·⟩) := by
  induction events with
  | nil => cases h : declares e <;> simp [live, h]
  | cons first later ih =>
    rw [List.cons_append]
    cases hfirst : declares first with
    | none => simp only [live, hfirst, ih]
    | some a =>
      have hsplit : (∃ e' ∈ later ++ [e], ends e' ∧ e'.level < first.level) ↔
          (∃ e' ∈ later, ends e' ∧ e'.level < first.level) ∨ ends e ∧ e.level < first.level := by
        simp only [List.mem_append, List.mem_singleton, or_and_right, exists_or, exists_eq_left]
      simp only [live, hfirst, ih, hsplit]
      by_cases hlater : ∃ e' ∈ later, ends e' ∧ e'.level < first.level
      · rw [if_pos (.inl hlater), if_pos hlater]
      · rw [if_neg hlater]
        by_cases hend : ends e ∧ e.level < first.level
        · rw [if_pos (.inr hend), List.filter_cons_of_neg (by simp [hend])]
        · rw [if_neg (not_or.2 ⟨hlater, hend⟩),
            List.filter_cons_of_pos (by simpa [imp_iff_not_or] using hend), List.cons_append]

/-- What is live down to a level. -/
def down (k : Nat) (entries : List (Entry α)) : List α :=
  (entries.filter fun entry => entry.level ≤ k).map Entry.item

end

/-- The variables and parameters that are live after some events. -/
def liveVariables (events : List Event) : List (Entry Declared) :=
  live Event.declared? (fun _ => true) events

/-- The imports that are live after some events. -/
def liveImports (events : List Event) : List (Entry Imported) :=
  live Event.import? (fun e => !e.isParameter) events

/-! ## What the stacks hold -/

/-- Cut at any level, the stacks hold what is live down to there. -/
def Holds {α : Type} (levels : List (List α)) (entries : List (Entry α)) : Prop :=
  ∀ k, (levels.take (k + 1)).flatten = down k entries

section

variable {α : Type} {levels : List (List α)} {entries : List (Entry α)}

/-- What is live down to the smaller of two levels. -/
theorem down_filter (level k : Nat) (entries : List (Entry α)) :
    down k (entries.filter fun entry => !decide (level < entry.level)) = down (min level k) entries := by
  rw [down, List.filter_filter, down]
  congr 2
  funext entry
  rw [Bool.eq_iff_iff]
  simp only [Bool.and_eq_true, decide_eq_true_eq, Bool.not_eq_true', decide_eq_false_iff_not]
  omega

/-- Cutting the stacks ends what is deeper. -/
theorem Holds.cut (h : Holds levels entries) (level : Nat) :
    Holds (levels.take (level + 1)) (entries.filter fun entry => !decide (level < entry.level)) := by
  intro k
  rw [List.take_take, Nat.add_min_add_right, h, down_filter, Nat.min_comm]

/-- Cutting the stacks and adding to the last one declares something. -/
theorem Holds.add (h : Holds levels entries) (level : Nat) (a : α) :
    Holds (addAtLevel level a (levels.take (level + 1)))
      ((entries.filter fun entry => !decide (level < entry.level)) ++ [⟨level, a⟩]) := by
  intro k
  have hadded : down k ((entries.filter fun entry => !decide (level < entry.level)) ++ [⟨level, a⟩]) =
      down (min level k) entries ++ if level ≤ k then [a] else [] := by
    rw [← down_filter, down, List.filter_append, List.map_append, down]
    congr 1
    by_cases hk : level ≤ k <;> simp [hk]
  rw [hadded]
  by_cases hk : level ≤ k
  · rw [if_pos hk, Nat.min_eq_left hk, ← h, addAtLevel_take_of_le hk a (List.length_take_le ..)]
  · rw [if_neg hk, List.append_nil, Nat.min_eq_right (by omega), ← h,
      addAtLevel_take_of_lt (by omega), List.take_take, Nat.min_eq_left (by omega)]

end

/-- A scope and the events that led to it. -/
structure Follows (s : Scope) (events : List Event) : Prop where
  declared : Holds s.declared (liveVariables events)
  imports : Holds s.imports (liveImports events)

theorem declared_apply (s : Scope) (e : Event) : (s.apply e).declared =
    match e.declared? with
    | none => s.declared.take (e.level + 1)
    | some v => addAtLevel e.level v (s.declared.take (e.level + 1)) := by
  cases e <;> rfl

theorem imports_apply (s : Scope) (e : Event) : (s.apply e).imports =
    if e.isParameter then s.imports
    else match e.import? with
      | none => s.imports.take (e.level + 1)
      | some i => addAtLevel e.level i (s.imports.take (e.level + 1)) := by
  cases e <;> rfl

/-- Each event does to the stacks what it does to the log. -/
theorem Follows.apply {s : Scope} {events : List Event} (h : s.Follows events) (e : Event) :
    (s.apply e).Follows (events ++ [e]) := by
  constructor
  · rw [declared_apply, liveVariables, live_concat, ← liveVariables]
    cases e.declared? with
    | none => simpa using h.declared.cut e.level
    | some v => simpa using h.declared.add e.level v
  · rw [imports_apply, liveImports, live_concat, ← liveImports]
    cases hparameter : e.isParameter with
    | true =>
      have hnone : e.import? = none := by cases e <;> first | rfl | cases hparameter
      simpa [hnone] using h.imports
    | false =>
      cases e.import? with
      | none => simpa using h.imports.cut e.level
      | some i => simpa using h.imports.add e.level i

theorem follows_after (uri : Uri) (events : List Event) : (after uri events).Follows events := by
  induction events using List.reverseRecOn with
  | nil =>
    constructor <;>
    · intro k
      simp [after, liveVariables, liveImports, live, down]
  | append_singleton events e ih =>
    rw [after, List.foldl_append]
    exact ih.apply e

theorem uri_after (uri : Uri) (events : List Event) : (after uri events).uri = uri := by
  induction events using List.reverseRecOn with
  | nil => rfl
  | append_singleton events e ih =>
    rw [after, List.foldl_append]
    refine Eq.trans ?_ ih
    cases e <;> rfl

/-- **A scope is a log of what is live.**  After any events, the variables visible at a level
    are the live variables and parameters down to it, the latest first, and the imports
    visible there are the live imports, the earliest first.  A reference without a qualifier
    leads to the latest live variable with its name; if there is none, and always for a
    reference with a qualifier, the live imports that the qualifier admits are asked one after
    the other. -/
theorem after_visible (uri : Uri) (events : List Event) (k : Nat) :
    (after uri events).visibleVariables k = (down k (liveVariables events)).reverse ∧
      (after uri events).visibleImports k = down k (liveImports events) ∧
      ∀ (find : Finder) (x : Text),
        (∀ earlier v later, down k (liveVariables events) = earlier ++ v :: later → v.name = x →
          (∀ w ∈ later, w.name ≠ x) →
          (after uri events).resolve find x none k = some ⟨uri, v.line⟩) ∧
        ∀ qualifier, (qualifier = none → ∀ v ∈ down k (liveVariables events), v.name ≠ x) →
          (after uri events).resolve find x qualifier k =
            ((down k (liveImports events)).filter (Imported.admits qualifier)).zipIdx.findSome?
              fun asked => find asked.2 asked.1.uri x := by
  have h := follows_after uri events
  have hvariables : (after uri events).visibleVariables k =
      (down k (liveVariables events)).reverse := by
    rw [visibleVariables_eq, h.declared]
  have himports : (after uri events).visibleImports k = down k (liveImports events) := h.imports k
  refine ⟨hvariables, himports, fun find x => ⟨?_, ?_⟩⟩
  · intro earlier v later hsplit hname hlater
    have hfound : ((after uri events).visibleVariables k).find? (fun v => v.name == x) = some v := by
      rw [hvariables, hsplit, List.find?_eq_some_iff_append]
      refine ⟨by simpa using hname, later.reverse, earlier.reverse, by simp, fun w hw => ?_⟩
      simpa using hlater w (List.mem_reverse.1 hw)
    rw [resolve, hfound, uri_after]
    rfl
  · intro qualifier hnone
    rw [resolve, himports]
    cases qualifier with
    | some name => rfl
    | none =>
      have hmissing : ((after uri events).visibleVariables k).find? (fun v => v.name == x) = none := by
        rw [hvariables, List.find?_eq_none]
        intro v hv
        simpa using hnone rfl v (List.mem_reverse.1 hv)
      rw [hmissing]
      rfl

/-- A merged import in a block ends with the block, one with a qualifier at the top level stays:
    a reference to it needs its qualifier, while a variable of the block is found without. -/
theorem after_visible_imports :
    let file (name : String) : Uri := ⟨"file".toList, none, name.toList, none, none⟩
    let events : List Event :=
      [.imports (.merged (file "/a")) 0, .enter 0 [1], .imports (.merged (file "/b")) 1,
        .declare "$x".toList 3 1, .imports (.qualified (file "/c") (some "m".toList)) 0,
        .enter 0 [3], .declare "$x".toList 6 1]
    let find : Uri → Text → Option Location := fun uri _ =>
      if uri = file "/a" then none else some ⟨uri, 9⟩
    let s := after (file "/main") events
    s.visibleImports 1 =
        [.merged (file "/a"), .qualified (file "/c") (some "m".toList)] ∧
      s.resolve find "$x".toList none 1 = some ⟨file "/main", 6⟩ ∧
      s.resolve find "$x".toList none 0 = none ∧
      s.resolve find "$x".toList (some "m".toList) 1 = some ⟨file "/c", 9⟩ ∧
      s.resolve find "$x".toList (some "n".toList) 1 = none := by
  intro file events find s
  obtain ⟨-, himports, hblock⟩ := after_visible (file "/main") events 1
  obtain ⟨-, -, htop⟩ := after_visible (file "/main") events 0
  obtain ⟨hlatest, hasked⟩ := hblock find "$x".toList
  have hnone := (htop find "$x".toList).2 none
  refine ⟨himports.trans (by decide +kernel), ?_, ?_, ?_, ?_⟩
  · exact hlatest [] ⟨"$x".toList, 6⟩ [] (by decide +kernel) rfl (by decide)
  · exact (hnone (by decide +kernel)).trans (by decide +kernel)
  · exact (hasked (some "m".toList) nofun).trans (by decide +kernel)
  · exact (hasked (some "n".toList) nofun).trans (by decide +kernel)

end Scope

end IndentedSass
