/-
  What a value is read as.

  The parts of a value depend on where it stands and on what is visible in one
  respect only: where its references lead.

  * `ValueState.Every`: what holds of all parts read so far; a character keeps it when the
    ends of words do (`Every.act`);
  * `readValue_target`: every reference of a value leads where the lookup says;
  * `readValue_retarget`: lookups that agree up to `e` give values that agree up to
    `e`, also when one of them is read behind a space;
  * `render_readValue`: the value is written back as the same text, whatever is
    visible and wherever it stands;
  * `readValue_blanks`: blanks behind a value in which every string is closed are
    not part of it.
-/
import Mathlib
import IndentedSass.Reader.Value
import IndentedSass.Proofs.Line.Indented
import IndentedSass.Proofs.Tree.Outline

namespace IndentedSass

namespace ValueState

variable {lookup lookup' : Lookups} {place place' : ValuePlace} {st st' : ValueState}

/-! ## What holds of all parts -/

/-- A property of values that those have which are put together from such values. -/
structure Additive (P : List Value → Prop) : Prop where
  nil : P []
  append {vs ws : List Value} : P vs → P ws → P (vs ++ ws)
  compound {body : List Value} (form : Form) (joined : Bool) : P body → P [.compound form body joined]

/-- A property holds of the value read so far and of all that is still open. -/
structure Every (P : List Value → Prop) (st : ValueState) : Prop where
  body : P st.body
  opened : ∀ o ∈ st.opened, P o.body

/-- A reference leads where the lookup says, at some column. -/
def Resolved (lookup : Lookups) (level : Nat) (ref : Reference) : Prop :=
  ∃ column, ref.target = lookup column ref.name ref.qualifier level

section Every

variable {P : List Value → Prop} (hP : Additive P)

include hP

theorem every_start : Every P {} := ⟨hP.nil, by simp⟩

theorem Every.push (h : Every P st) {v : Value} (hv : P [v]) : Every P (st.push v) := by
  unfold ValueState.push
  split
  · exact ⟨hP.append h.body hv, h.opened⟩
  · rename_i o os hopen
    refine ⟨h.body, fun o' ho' => ?_⟩
    rcases List.mem_cons.1 ho' with rfl | hmem
    · exact hP.append (h.opened o (by rw [hopen]; exact List.mem_cons_self ..)) hv
    · exact h.opened o' (by rw [hopen]; exact List.mem_cons_of_mem _ hmem)

theorem Every.enter (h : Every P st) (form : Form) : Every P (st.enter form) := by
  refine ⟨h.body, fun o ho => ?_⟩
  rcases List.mem_cons.1 ho with rfl | hmem
  · exact hP.nil
  · exact h.opened o hmem

theorem Every.close (h : Every P st) : Every P st.close := by
  unfold ValueState.close
  split
  · exact h
  · rename_i o os hopen
    have hrest : Every P { st with opened := os } :=
      ⟨h.body, fun o' ho' => h.opened o' (by rw [hopen]; exact List.mem_cons_of_mem _ ho')⟩
    exact hrest.push hP (hP.compound _ _ (h.opened o (by rw [hopen]; exact List.mem_cons_self ..)))

/-- The end of a word adds what the word is read as. -/
theorem Every.flush (h : Every P st) (hliteral : ∀ joined, P [.literal st.word joined])
    (hreference : ∀ ref joined, Resolved lookup place.level ref → P [.reference ref joined]) :
    Every P (st.flush lookup place) := by
  have hcut : ∀ ds, Every P { st with word := [], diagnostics := ds } :=
    fun _ => ⟨h.body, h.opened⟩
  unfold ValueState.flush
  split
  · exact h
  · dsimp only
    split
    · exact (hcut _).push hP (hliteral _)
    · exact (hcut _).push hP (hreference _ _ ⟨_, rfl⟩)

/-- A character adds at most the word before it, and that only outside of strings. -/
theorem Every.act (h : Every P st)
    (hflush : st.quote.isOutside = true → Every P (st.flush lookup place)) (c : Char)
    (next : Option Char) : Every P (st.act lookup place c next) := by
  have hcut : Every P { st with word := [] } := ⟨h.body, h.opened⟩
  unfold ValueState.act
  split_ifs with _ hquote
  · exact ⟨h.body, h.opened⟩
  · exact ⟨h.body, h.opened⟩
  all_goals rw [Bool.not_eq_true', Bool.not_eq_false] at hquote
  · exact ⟨(hflush hquote).body, (hflush hquote).opened⟩
  · have henter := (hflush hquote).enter hP .interpolation
    exact ⟨henter.body, henter.opened⟩
  · exact hcut.enter hP _
  · exact ⟨h.body, h.opened⟩
  · exact (hflush hquote).close hP
  · exact ⟨h.body, h.opened⟩

theorem Every.finish (hflush : Every P (st.flush lookup place)) :
    Every P (st.finish lookup place) := by
  have hclose : ∀ (opened : List OpenCompound) {st : ValueState}, Every P st →
      Every P (opened.foldl (fun st _ => st.close) st) := by
    intro opened
    induction opened with
    | nil => exact fun h => h
    | cons o os ih => exact fun h => ih (h.close hP)
  exact hclose _ hflush

end Every

/-! ## References -/

/-- Every reference of a value leads where the lookup says. -/
def AllResolved (lookup : Lookups) (level : Nat) (vs : List Value) : Prop :=
  ∀ ref ∈ Value.references vs, Resolved lookup level ref

theorem additive_allResolved (lookup : Lookups) (level : Nat) :
    Additive (AllResolved lookup level) where
  nil := by simp [AllResolved, Value.references]
  append hvs hws := by
    rw [AllResolved, Value.references_append]
    exact List.forall_mem_append.2 ⟨hvs, hws⟩
  compound _ _ hbody := by simpa [AllResolved, Value.references, Value.referencesOfOne] using hbody

theorem Every.flush_resolved (h : Every (AllResolved lookup place.level) st) :
    Every (AllResolved lookup place.level) (st.flush lookup place) := by
  refine h.flush (additive_allResolved ..) (fun _ ref href => nomatch href) ?_
  intro ref joined hleads ref' href
  rwa [List.mem_singleton.1 href]

theorem Every.run_resolved (h : Every (AllResolved lookup place.level) st) (t : Text) :
    Every (AllResolved lookup place.level) (st.run lookup place t) := by
  induction t generalizing st with
  | nil => exact h
  | cons c cs ih =>
    have hact := h.act (additive_allResolved ..) (fun _ => h.flush_resolved) c cs.head?
    exact ih ⟨hact.body, hact.opened⟩

/-! ## Two lookups -/

variable {e : Option Location → Option Location}

/-- Two open compounds agree up to `e`. -/
def SameCompound (e : Option Location → Option Location) (o o' : OpenCompound) : Prop :=
  o.form = o'.form ∧ o.joined = o'.joined ∧ Value.retarget e o.body = Value.retarget e o'.body

/-- No part was read yet. -/
def Untouched (st : ValueState) : Prop := st.body = [] ∧ ∀ o ∈ st.opened, o.body = []

/-- Two states agree up to `e`.  A blank before the first part makes no difference. -/
structure Alike (e : Option Location → Option Location) (st st' : ValueState) : Prop where
  body : Value.retarget e st.body = Value.retarget e st'.body
  opened : List.Forall₂ (SameCompound e) st.opened st'.opened
  word : st.word = st'.word
  spaced : st.spaced = st'.spaced ∨ st.Untouched
  quote : st.quote = st'.quote
  atBrace : st.atBrace = st'.atBrace

theorem Alike.joins_eq (h : Alike e st st') : st.joins = st'.joins := by
  have hempty : st.innermost.isEmpty = st'.innermost.isEmpty := by
    have hopened := h.opened
    unfold innermost
    generalize st.opened = os at hopened ⊢
    generalize st'.opened = os' at hopened ⊢
    cases hopened with
    | nil =>
      dsimp only
      rw [← Value.isEmpty_retarget e, h.body, Value.isEmpty_retarget]
    | cons ho _ =>
      dsimp only
      rw [← Value.isEmpty_retarget e, ho.2.2, Value.isEmpty_retarget]
  rcases h.spaced with hspaced | ⟨hbody, hopened⟩
  · rw [joins, joins, hspaced, hempty]
  · -- before the first part nothing is joined
    have hnothing : st.innermost.isEmpty = true := by
      unfold innermost
      split
      · rw [hbody]
        rfl
      · rename_i o os heq
        rw [hopened o (by rw [heq]; exact List.mem_cons_self ..)]
        rfl
    rw [joins, joins, ← hempty, hnothing, Bool.not_true, Bool.and_false, Bool.and_false]

theorem Alike.push (h : Alike e st st') {v w : Value}
    (hv : Value.retargetOfOne e v = Value.retargetOfOne e w) :
    Alike e (st.push v) (st'.push w) := by
  have hsnoc : ∀ {vs ws : List Value}, Value.retarget e vs = Value.retarget e ws →
      Value.retarget e (vs ++ [v]) = Value.retarget e (ws ++ [w]) := by
    intro vs ws hvs
    rw [Value.retarget_append, Value.retarget_append, hvs, Value.retarget, Value.retarget, hv]
    rfl
  obtain ⟨body, opened, word, spaced, quote, atBrace, count, ds⟩ := st
  obtain ⟨body', opened', word', spaced', quote', atBrace', count', ds'⟩ := st'
  obtain ⟨hbody, hopened, hword, -, hquote, hbrace⟩ := h
  dsimp only at hopened
  cases hopened with
  | nil => exact ⟨hsnoc hbody, .nil, hword, .inl rfl, hquote, hbrace⟩
  | cons ho hrest =>
    exact ⟨hbody, .cons ⟨ho.1, ho.2.1, hsnoc ho.2.2⟩ hrest, hword, .inl rfl, hquote, hbrace⟩

theorem Alike.enter (h : Alike e st st') (form : Form) :
    Alike e (st.enter form) (st'.enter form) := by
  refine ⟨h.body, .cons ⟨rfl, h.joins_eq, rfl⟩ h.opened, h.word, ?_, h.quote, h.atBrace⟩
  refine h.spaced.imp id fun huntouched => ⟨huntouched.1, fun o ho => ?_⟩
  rcases List.mem_cons.1 ho with rfl | hmem
  · rfl
  · exact huntouched.2 o hmem

theorem Alike.close (h : Alike e st st') : Alike e st.close st'.close := by
  obtain ⟨body, opened, word, spaced, quote, atBrace, count, ds⟩ := st
  obtain ⟨body', opened', word', spaced', quote', atBrace', count', ds'⟩ := st'
  obtain ⟨hbody, hopened, hword, hspaced, hquote, hbrace⟩ := h
  dsimp only at hopened
  cases hopened with
  | nil => exact ⟨hbody, .nil, hword, hspaced, hquote, hbrace⟩
  | @cons o o' os os' ho hrest =>
    obtain ⟨hform, hjoined, hinner⟩ := ho
    have hcut : Alike e ⟨body, os, word, spaced, quote, atBrace, count, ds⟩
        ⟨body', os', word', spaced', quote', atBrace', count', ds'⟩ := by
      refine ⟨hbody, hrest, hword, hspaced.imp id fun huntouched => ?_, hquote, hbrace⟩
      exact ⟨huntouched.1, fun o ho => huntouched.2 o (List.mem_cons_of_mem _ ho)⟩
    refine hcut.push ?_
    rw [Value.retargetOfOne, Value.retargetOfOne, hform, hjoined, hinner]

theorem Alike.flush (h : Alike e st st')
    (hlookup : ∀ column column' name q,
      e (lookup column name q place.level) = e (lookup' column' name q place'.level)) :
    Alike e (st.flush lookup place) (st'.flush lookup' place') := by
  have hjoins := h.joins_eq
  have hcut : ∀ ds ds' : List Diagnostic, Alike e { st with word := [], diagnostics := ds }
      { st' with word := [], diagnostics := ds' } :=
    fun _ _ => ⟨h.body, h.opened, rfl, h.spaced, h.quote, h.atBrace⟩
  unfold ValueState.flush
  rw [← h.word]
  split
  · exact h
  · dsimp only
    split
    · refine (hcut st.diagnostics st'.diagnostics).push ?_
      rw [hjoins]
    · refine (hcut _ _).push ?_
      rw [Value.retargetOfOne, Value.retargetOfOne, hjoins]
      exact congrArg (fun target => Value.reference ⟨_, _, _, target⟩ _) (hlookup ..)

theorem Alike.keep (h : Alike e st st') (c : Char) : Alike e (st.keep c) (st'.keep c) :=
  ⟨h.body, h.opened, by simp only [ValueState.keep, h.word], h.spaced,
    by simp only [ValueState.keep, h.quote], h.atBrace⟩

theorem Alike.ite {p p' : Prop} [Decidable p] [Decidable p'] {a b a' b' : ValueState}
    (hp : p ↔ p') (h : Alike e a a') (h' : Alike e b b') :
    Alike e (if p then a else b) (if p' then a' else b') := by
  by_cases hc : p
  · rw [if_pos hc, if_pos (hp.1 hc)]
    exact h
  · rw [if_neg hc, if_neg fun hc' => hc (hp.2 hc')]
    exact h'

theorem Alike.act (h : Alike e st st')
    (hlookup : ∀ column column' name q,
      e (lookup column name q place.level) = e (lookup' column' name q place'.level))
    (c : Char) (next : Option Char) :
    Alike e (st.act lookup place c next) (st'.act lookup' place' c next) := by
  have hflush := h.flush hlookup
  have hempty : st.opened.isEmpty = st'.opened.isEmpty := by
    have hlen := h.opened.length_eq
    rw [Bool.eq_iff_iff, List.isEmpty_iff_length_eq_zero, List.isEmpty_iff_length_eq_zero, hlen]
  have henter := hflush.enter .interpolation
  have hcut : Alike e { st with word := [] } { st' with word := [] } :=
    ⟨h.body, h.opened, rfl, h.spaced, h.quote, h.atBrace⟩
  have hcall : Alike e ({ st with word := [] }.enter (.call st.word))
      ({ st' with word := [] }.enter (.call st'.word)) := by
    rw [h.word]
    exact hcut.enter _
  refine .ite (by rw [h.atBrace]) ⟨h.body, h.opened, h.word, h.spaced, h.quote, rfl⟩
    (.ite (by rw [h.quote]) (h.keep c) (.ite .rfl ?_ (.ite .rfl ?_ (.ite .rfl hcall
      (.ite .rfl (.ite (by rw [hempty]) (h.keep c) hflush.close) (h.keep c))))))
  · exact ⟨hflush.body, hflush.opened, hflush.word, .inl rfl, hflush.quote, hflush.atBrace⟩
  · exact ⟨henter.body, henter.opened, henter.word, henter.spaced, henter.quote, rfl⟩

theorem Alike.run (h : Alike e st st')
    (hlookup : ∀ column column' name q,
      e (lookup column name q place.level) = e (lookup' column' name q place'.level))
    (t : Text) : Alike e (st.run lookup place t) (st'.run lookup' place' t) := by
  induction t generalizing st st' with
  | nil => exact h
  | cons c cs ih =>
    have hact := h.act hlookup c cs.head?
    exact ih ⟨hact.body, hact.opened, hact.word, hact.spaced, hact.quote, hact.atBrace⟩

theorem Alike.finish (h : Alike e st st')
    (hlookup : ∀ column column' name q,
      e (lookup column name q place.level) = e (lookup' column' name q place'.level)) :
    Alike e (st.finish lookup place) (st'.finish lookup' place') := by
  have hclose : ∀ (opened opened' : List OpenCompound), opened.length = opened'.length →
      ∀ st st', Alike e st st' → Alike e (opened.foldl (fun st _ => st.close) st)
        (opened'.foldl (fun st _ => st.close) st') := by
    intro opened
    induction opened with
    | nil =>
      intro opened' hlen st st' h
      rw [List.length_eq_zero_iff.1 hlen.symm]
      exact h
    | cons o os ih =>
      intro opened' hlen st st' h
      cases opened' with
      | nil => cases hlen
      | cons o' os' => exact ih os' (Nat.succ.inj hlen) _ _ h.close
  have hflush := h.flush hlookup
  exact hclose _ _ hflush.opened.length_eq _ _ hflush

/-! ## Blanks behind a value -/

theorem push_frame (st : ValueState) (v : Value) :
    (st.push v).quote = st.quote ∧ (st.push v).atBrace = st.atBrace ∧ (st.push v).word = st.word := by
  unfold push
  split <;> exact ⟨rfl, rfl, rfl⟩

theorem close_frame (st : ValueState) :
    st.close.quote = st.quote ∧ st.close.atBrace = st.atBrace := by
  unfold close
  split
  · exact ⟨rfl, rfl⟩
  · exact ⟨(push_frame ..).1, (push_frame ..).2.1⟩

theorem flush_frame (lookup : Lookups) (place : ValuePlace) (st : ValueState) :
    (st.flush lookup place).quote = st.quote ∧ (st.flush lookup place).atBrace = st.atBrace ∧
      (st.flush lookup place).word = [] := by
  unfold flush
  split
  · exact ⟨rfl, rfl, List.isEmpty_iff.1 ‹_›⟩
  · dsimp only
    split <;> exact push_frame ..

/-- The state waits for a brace only where one comes next, outside of strings. -/
def Expects (next : Option Char) (st : ValueState) : Prop :=
  st.atBrace = true → next = some '\x7b' ∧ st.quote = .outside

variable (lookup place) in
/-- The strings of a value are those that a scan of its characters finds. -/
theorem Expects.act {c : Char} (h : st.Expects (some c)) (next : Option Char) :
    (st.act lookup place c next).quote = st.quote.step .paired c ∧
      (st.act lookup place c next).Expects next := by
  obtain ⟨hquote, hflush, -⟩ := flush_frame lookup place st
  unfold ValueState.act
  by_cases hbrace : st.atBrace = true
  · obtain ⟨hc, houtside⟩ := h hbrace
    cases hc
    rw [if_pos hbrace, houtside]
    exact ⟨rfl, fun h => nomatch h⟩
  rw [if_neg hbrace]
  have hnone : ∀ {st' : ValueState}, st'.atBrace = st.atBrace → st'.Expects next :=
    fun heq h => absurd (heq.symm.trans h) hbrace
  cases hq : st.quote with
  | inside mark escaped =>
    rw [if_pos (show (!(Quote.inside mark escaped).isOutside) = true from rfl), keep, hq]
    exact ⟨rfl, hnone rfl⟩
  | outside =>
    rw [hq] at hquote
    have houtside : isQuoteMark c = false → Quote.step .paired .outside c = .outside := by
      intro hc
      rw [Quote.step, hc, if_neg Bool.false_ne_true]
    have hkeep : (st.keep c).quote = Quote.step .paired .outside c := by rw [keep, hq]
    rw [if_neg (by decide)]
    split
    · rename_i hblank
      have hmark : isQuoteMark c = false := by
        rcases isBlank_iff.1 hblank with rfl | rfl <;> decide
      exact ⟨hquote.trans (houtside hmark).symm, hnone hflush⟩
    split
    · rename_i hinterpolation
      obtain ⟨rfl, hnext⟩ := hinterpolation
      exact ⟨hquote, fun _ => ⟨hnext, hquote⟩⟩
    split
    · rename_i hcall
      subst hcall
      exact ⟨rfl, hnone rfl⟩
    split
    · rename_i hclose
      have hmark : isQuoteMark c = false := by
        rcases hclose with rfl | rfl <;> decide
      obtain ⟨hquote', hclosed⟩ := close_frame (st.flush lookup place)
      split
      · exact ⟨hkeep, hnone rfl⟩
      · exact ⟨hquote'.trans (hquote.trans (houtside hmark).symm), hnone (hclosed.trans hflush)⟩
    · exact ⟨hkeep, hnone rfl⟩

variable (lookup place) in
theorem Expects.run {t : Text} (h : st.Expects t.head?) :
    (st.run lookup place t).quote = Quote.run .paired st.quote t ∧
      (st.run lookup place t).Expects none := by
  induction t generalizing st with
  | nil => exact ⟨rfl, h⟩
  | cons c cs ih =>
    obtain ⟨hquote, hnext⟩ := h.act lookup place cs.head?
    have hrest := @ih (st.step lookup place c cs.head?) hnext
    refine ⟨hrest.1.trans ?_, hrest.2⟩
    rw [show (st.step lookup place c cs.head?).quote = _ from hquote]
    rfl

/-- Blanks are read after what stands before them. -/
theorem run_append_blanks {ws : Text} (hws : Blanks ws) (st : ValueState) (t : Text) :
    st.run lookup place (t ++ ws) = (st.run lookup place t).run lookup place ws := by
  -- a blank is no brace, so the last character of the text is read as if nothing followed it
  have hbrace : ws.head? ≠ some '\x7b' := by
    intro hhead
    exact absurd (hws _ (List.mem_of_head? hhead)) (by decide)
  induction t generalizing st with
  | nil => rfl
  | cons c cs ih =>
    have hstep : st.step lookup place c (cs ++ ws).head? = st.step lookup place c cs.head? := by
      cases cs with
      | nil => simp [step, act, hbrace]
      | cons d rest => rfl
    rw [List.cons_append, ValueState.run, ValueState.run, hstep, ih]

/-- Two states with the same parts end as the same value. -/
theorem body_close {st st' : ValueState} (hbody : st.body = st'.body) (hopened : st.opened = st'.opened)
    (opened : List OpenCompound) :
    (opened.foldl (fun st _ => st.close) st).body =
      (opened.foldl (fun st _ => st.close) st').body := by
  induction opened generalizing st st' with
  | nil => exact hbody
  | cons o os ih =>
    have hclose : st.close.body = st'.close.body ∧ st.close.opened = st'.close.opened := by
      unfold close
      rw [← hopened]
      split
      · exact ⟨hbody, hopened⟩
      · unfold push
        dsimp only
        split <;> simp [hbody]
    exact ih hclose.1 hclose.2

/-- Blanks end a word and are forgotten at the end. -/
theorem finish_run_blanks {ws : Text} (hws : Blanks ws) (hquote : st.quote = .outside)
    (hbrace : st.atBrace = false) :
    ((st.run lookup place ws).finish lookup place).body = (st.finish lookup place).body := by
  induction ws generalizing st with
  | nil => rfl
  | cons c ws ih =>
    obtain ⟨hquote', hbrace', hword⟩ := flush_frame lookup place st
    have hstep : st.step lookup place c ws.head? =
        { st.flush lookup place with
          spaced := true
          count := (st.flush lookup place).count + 1 } := by
      unfold step act
      rw [hbrace, hquote, hws.head]
      rfl
    have hnext := @ih (st.step lookup place c ws.head?) hws.tail
      (by rw [hstep]; exact hquote'.trans hquote) (by rw [hstep]; exact hbrace'.trans hbrace)
    have hflush : (st.step lookup place c ws.head?).flush lookup place =
        st.step lookup place c ws.head? := by
      rw [hstep, flush, hword]
      rfl
    rw [ValueState.run, hnext, finish, finish, hflush, hstep]
    apply body_close
    · rfl
    · rfl

end ValueState

/-- Every reference of a value leads where the lookup says. -/
theorem readValue_target (lookup : Lookups) (place : ValuePlace) (raw : Text) :
    ∀ ref ∈ Value.references (readValue lookup place raw).1,
      ∃ column, ref.target = lookup column ref.name ref.qualifier place.level := by
  have hall := ValueState.additive_allResolved lookup place.level
  have hrun : ValueState.Every (ValueState.AllResolved lookup place.level)
      (ValueState.run lookup place {} raw) := (ValueState.every_start hall).run_resolved raw
  exact (ValueState.Every.finish hall hrun.flush_resolved).body

section

variable {e : Option Location → Option Location} {lookup lookup' : Lookups}
  {place place' : ValuePlace}

/-- Lookups that agree up to `e` give values that agree up to `e`. -/
theorem readValue_retarget
    (hlookup : ∀ column column' name q,
      e (lookup column name q place.level) = e (lookup' column' name q place'.level))
    (raw : Text) :
    Value.retarget e (readValue lookup place raw).1 =
      Value.retarget e (readValue lookup' place' raw).1 := by
  have hstart : ValueState.Alike e {} {} := ⟨rfl, .nil, rfl, .inl rfl, rfl, rfl⟩
  exact ((hstart.run hlookup raw).finish hlookup).body

/-- A space before a value is not part of it. -/
theorem readValue_space
    (hlookup : ∀ column column' name q,
      e (lookup column name q place.level) = e (lookup' column' name q place'.level))
    (raw : Text) :
    Value.retarget e (readValue lookup place (' ' :: raw)).1 =
      Value.retarget e (readValue lookup' place' raw).1 := by
  have hstart : ValueState.Alike e (ValueState.step lookup place {} ' ' raw.head?) {} :=
    ⟨rfl, .nil, rfl, .inr ⟨rfl, fun o ho => nomatch ho⟩, rfl, rfl⟩
  exact ((hstart.run hlookup raw).finish hlookup).body

end

/-- A value is written back as the same text, whatever is visible. -/
theorem render_readValue (lookup lookup' : Lookups) (place place' : ValuePlace) (raw : Text) :
    Value.render (readValue lookup place raw).1 = Value.render (readValue lookup' place' raw).1 := by
  have hsame : Value.retarget (fun _ => none) (readValue lookup place raw).1 =
      Value.retarget (fun _ => none) (readValue lookup' place' raw).1 := by
    apply readValue_retarget
    exact fun _ _ _ _ => rfl
  rw [← Value.render_retarget fun _ => none, hsame, Value.render_retarget]

/-- Blanks behind a value are not part of it, unless they stand in a string. -/
theorem readValue_blanks (lookup : Lookups) (place : ValuePlace) {raw ws : Text}
    (hclosed : raw.Closed .paired) (hws : Blanks ws) :
    (readValue lookup place (raw ++ ws)).1 = (readValue lookup place raw).1 := by
  have hstart : ValueState.Expects raw.head? {} := fun h => nomatch h
  obtain ⟨hquote, hnext⟩ := hstart.run lookup place
  have hbrace : (ValueState.run lookup place {} raw).atBrace = false :=
    Bool.eq_false_iff.2 fun h => nomatch (hnext h).1
  unfold readValue
  dsimp only
  rw [ValueState.run_append_blanks hws]
  exact ValueState.finish_run_blanks hws (hquote.trans hclosed) hbrace

end IndentedSass
