/-
  Values restored from their text.

  A value in which every string is closed is restored from its text wherever the same
  variables are visible: the parts, how they are nested and joined, and where the references
  lead.  Its brackets need not match; what was closed by another bracket, or not at all, is
  written with its own.

  * `Value.eq_of_shape`: a value is determined by its shape and a lookup;
  * `closedAll_readValue`: no string of a part is left open where none of the text is, since
    no word ends in a string (`ValueState.Every.run_closed`);
  * `readValue_render_readValue`: the value is read back from its text.
-/
import Mathlib
import IndentedSass.Proofs.Reader.Rendered

namespace IndentedSass

namespace Value

variable {lookup : Lookup} {level : Nat}

mutual

/-- A part is determined by its shape and by where its references lead. -/
theorem eq_of_shapeOne : ∀ (v w : Value),
    retargetOfOne (fun _ => none) v = retargetOfOne (fun _ => none) w →
    (∀ ref ∈ referencesOfOne v, ValueState.Resolved lookup level ref) →
    (∀ ref ∈ referencesOfOne w, ValueState.Resolved lookup level ref) → v = w
  | literal .., literal .., h, _, _ => h
  | reference ref _, reference ref' _, h, hv, hw => by
    obtain ⟨_, hleads⟩ := hv ref (List.mem_singleton_self ref)
    obtain ⟨_, hleads'⟩ := hw ref' (List.mem_singleton_self ref')
    obtain ⟨text, name, qualifier, target⟩ := ref
    obtain ⟨text', name', qualifier', target'⟩ := ref'
    simp only [retargetOfOne, reference.injEq, Reference.mk.injEq, and_true] at h
    obtain ⟨⟨rfl, rfl, rfl⟩, rfl⟩ := h
    dsimp only at hleads hleads'
    rw [hleads, hleads']
  | compound _ body _, compound _ body' _, h, hv, hw => by
    simp only [retargetOfOne, compound.injEq] at h
    obtain ⟨rfl, hbody, rfl⟩ := h
    rw [eq_of_shape body body' hbody hv hw]
  | literal .., reference .., h, _, _ | literal .., compound .., h, _, _
  | reference .., literal .., h, _, _ | reference .., compound .., h, _, _
  | compound .., literal .., h, _, _ | compound .., reference .., h, _, _ => nomatch h

/-- A value is determined by its shape and by where its references lead. -/
theorem eq_of_shape : ∀ (vs ws : List Value), shape vs = shape ws →
    (∀ ref ∈ references vs, ValueState.Resolved lookup level ref) →
    (∀ ref ∈ references ws, ValueState.Resolved lookup level ref) → vs = ws
  | [], [], _, _, _ => rfl
  | v :: vs, w :: ws, h, hv, hw => by
    simp only [shape, retarget, List.cons.injEq] at h
    simp only [references, List.forall_mem_append] at hv hw
    rw [eq_of_shapeOne v w h.1 hv.1 hw.1, eq_of_shape vs ws h.2 hv.2 hw.2]
  | [], _ :: _, h, _, _ | _ :: _, [], h, _, _ => nomatch h

end

end Value

/-! ## Closed strings -/

namespace ValueState

variable {lookup : Lookups} {place : ValuePlace} {st : ValueState}

/-- Every string of a value is closed in its part. -/
theorem additive_closedAll : Additive fun vs => Value.closedAll vs = true where
  nil := rfl
  append hvs hws := by rw [Value.closedAll_append, hvs, hws, Bool.and_self]
  compound _ _ hbody := by rw [Value.closedAll, Value.closedOne, hbody, Value.closedAll, Bool.and_self]

theorem Every.flush_closed (h : Every (fun vs => Value.closedAll vs = true) st)
    (hword : st.word.Closed .paired) :
    Every (fun vs => Value.closedAll vs = true) (st.flush lookup place) := by
  refine h.flush additive_closedAll (fun _ => ?_) fun _ _ _ => rfl
  rw [Value.closedAll, Value.closedOne, decide_eq_true hword, Value.closedAll, Bool.and_self]

variable (lookup place) in
/-- A word is ended only where it is outside of strings, so a part holds whole strings. -/
theorem Every.run_closed {t : Text} (h : Every (fun vs => Value.closedAll vs = true) st)
    (htidy : st.Tidy t.head?) :
    Every (fun vs => Value.closedAll vs = true) (st.run lookup place t) := by
  induction t generalizing st with
  | nil => exact h
  | cons c cs ih =>
    have hflush : st.quote.isOutside = true →
        Every (fun vs => Value.closedAll vs = true) (st.flush lookup place) := by
      intro hout
      refine h.flush_closed ?_
      rw [Text.Closed, ← htidy.quote]
      cases hq : st.quote with
      | outside => rfl
      | inside mark escaped => rw [hq] at hout; cases hout
    have hact := h.act additive_closedAll hflush c cs.head?
    have htidy' := htidy.act lookup place cs.head?
    exact ih ⟨hact.body, hact.opened⟩ ⟨htidy'.framed, htidy'.word, htidy'.quote, htidy'.joins,
      htidy'.hash, htidy'.brace⟩

end ValueState

/-- Where every string of a text is closed, every string of its value is closed in its part. -/
theorem closedAll_readValue (lookup : Lookups) (place : ValuePlace) {raw : Text}
    (h : raw.Closed .paired) : Value.closedAll (readValue lookup place raw).1 = true := by
  have hstart := ValueState.every_start ValueState.additive_closedAll
  have htidy := ValueState.tidy_start raw.head?
  have hexpects : ValueState.Expects raw.head? {} := fun h => nomatch h
  have hquote := (hexpects.run lookup place).1
  have hrun := hstart.run_closed lookup place htidy
  refine (ValueState.Every.finish ValueState.additive_closedAll (hrun.flush_closed ?_)).body
  rw [Text.Closed, ← (htidy.run lookup place).quote, hquote]
  exact h

theorem Value.closed_of_closedAll {vs : List Value} (h : closedAll vs = true) : Closed vs := by
  rcases vs.eq_nil_or_concat' with rfl | ⟨front, last, rfl⟩
  · exact ⟨rfl, nofun⟩
  · rw [closedAll_append, Bool.and_eq_true, closedAll, Bool.and_eq_true] at h
    rw [Closed, List.dropLast_concat, List.getLast?_concat]
    refine ⟨h.1, fun v hv => ?_⟩
    cases hv
    exact .inl h.2.1

/-- **A value is read back from its text.**  Where every string of `raw` is closed, reading
    the text of its value gives the same value at the same level and with the same variables
    in sight. -/
theorem readValue_render_readValue (lookup : Lookup) (place place' : ValuePlace) (raw : Text)
    (hclosed : raw.Closed .paired) (hlevel : place'.level = place.level) :
    (readValue lookup place' (Value.render (readValue lookup place raw).1)).1 =
      (readValue lookup place raw).1 := by
  have hparts : valueParts (Value.render (readValue lookup place raw).1) =
      Value.shape (readValue lookup place raw).1 :=
    valueParts_render (readable_readValue lookup place raw)
      (Value.closed_of_closedAll (closedAll_readValue lookup place hclosed))
  have hshape : Value.shape (readValue lookup place'
      (Value.render (readValue lookup place raw).1)).1 =
      Value.shape (readValue lookup place raw).1 :=
    (shape_eq_valueParts ..).trans hparts
  refine Value.eq_of_shape _ _ hshape (fun ref href => ?_) (readValue_target lookup place raw)
  rw [ValueState.Resolved, ← hlevel]
  exact readValue_target lookup place' _ ref href

/-- Strings with escaped marks, a bracket closed by another one, stray brackets, a call named
    by what stands before it, and expressions that are never closed. -/
theorem readValue_render_readValue_unbalanced :
    let lookup : Lookup := fun _ _ level =>
      some ⟨⟨"file".toList, none, "/a.sass".toList, none, none⟩, level⟩
    let raw := ")a\x7d \"it\\\"s )\" -#\x7b$w)px f( g($v, ,\x7d \")\"#\x7bm.$n x".toList
    Text.Closed .paired raw ∧ (ValuePlace.mk 7 3 2).level = (ValuePlace.mk 0 0 2).level ∧
      (readValue lookup ⟨7, 3, 2⟩ (Value.render (readValue lookup ⟨0, 0, 2⟩ raw).1)).1 =
        (readValue lookup ⟨0, 0, 2⟩ raw).1 := by
  refine ⟨by decide, rfl, ?_⟩
  exact readValue_render_readValue _ _ _ _ (by decide) rfl

end IndentedSass
