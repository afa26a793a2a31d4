/-
  What brace syntax becomes.

  Converting a line leaves out braces and semicolons, cuts the line into pieces and
  trims them.  So every line that comes out of it has no white space at its ends
  (`trimEnd_convertBraces`, `splitRule_cut`) and holds no characters but those of the
  line and blanks (`mem_of_mem_convertBraces`).
-/
import Mathlib
import IndentedSass.Format.Convert
import IndentedSass.Proofs.Format.Repeat

namespace IndentedSass

variable {t line : Text} {c : Char}

namespace Text

/-- The end of what is left of a trimmed text is trimmed. -/
theorem trimEnd_of_suffix {pre s : Text} (h : trimEnd (pre ++ s) = pre ++ s) :
    trimEnd s = s := by
  by_cases hs : s = []
  · rw [hs]
    rfl
  · refine trimEnd_eq_self fun c hc => getLast?_trimEnd (pre ++ s) c ?_
    rwa [h, List.getLast?_append_of_ne_nil _ hs]

theorem trimEnd_trimStart (h : trimEnd t = t) : trimEnd (trimStart t) = trimStart t := by
  rw [← t.takeWhile_append_dropWhile (p := isWhite)] at h
  exact trimEnd_of_suffix h

end Text

/-! ## Pieces of a line -/

theorem mem_of_mem_stripBracesFrom {q : Quote} {hash : Bool} {interpolations parens : Nat}
    (h : c ∈ stripBracesFrom q hash interpolations parens t) : c ∈ t := by
  induction t generalizing q hash interpolations parens with
  | nil => exact h
  | cons d rest ih =>
    -- every character is written or left out
    have hkeep : ∀ {i p : Nat}, c ∈ d :: stripBracesFrom (q.step .adjacent d) (d == '#') i p rest →
        c ∈ d :: rest := by
      intro i p hc
      rcases List.mem_cons.1 hc with rfl | hc
      · exact List.mem_cons_self ..
      · exact List.mem_cons_of_mem d (ih hc)
    have hdrop : ∀ {i p : Nat}, c ∈ stripBracesFrom (q.step .adjacent d) (d == '#') i p rest →
        c ∈ d :: rest := fun hc => List.mem_cons_of_mem d (ih hc)
    simp only [stripBracesFrom] at h
    split_ifs at h <;> first | exact hkeep h | exact hdrop h

/-- A block is opened by a brace between two parts of a text. -/
theorem Line.splitBlockOpenFrom?_eq {q : Quote} {hash : Bool} {before after : Text}
    (h : splitBlockOpenFrom? q hash t = some (before, after)) : t = before ++ '\x7b' :: after := by
  induction t generalizing q hash before with
  | nil => cases h
  | cons d rest ih =>
    simp only [splitBlockOpenFrom?] at h
    split at h
    · rename_i hopen
      simp only [Bool.and_eq_true, beq_iff_eq] at hopen
      simp only [Option.some.injEq, Prod.mk.injEq] at h
      rw [← h.1, ← h.2, hopen.1.2, List.nil_append]
    · obtain ⟨⟨a, b⟩, hsplit, hpair⟩ := Option.map_eq_some_iff.1 h
      simp only [Prod.mk.injEq] at hpair
      rw [← hpair.1, List.cons_append, ← ih (hpair.2 ▸ hsplit)]

theorem mem_of_mem_splitClose {q : Quote} {depth : Nat}
    (h : c ∈ (splitClose q depth t).1 ∨ c ∈ (splitClose q depth t).2) : c ∈ t := by
  induction t generalizing q depth with
  | nil => simp [splitClose] at h
  | cons d rest ih =>
    have hnext : ∀ {n : Nat}, c ∈ d :: (splitClose (q.step .paired d) n rest).1 ∨
        c ∈ (splitClose (q.step .paired d) n rest).2 → c ∈ d :: rest := by
      intro n hc
      rcases hc with hc | hc
      · rcases List.mem_cons.1 hc with rfl | hc
        · exact List.mem_cons_self ..
        · exact List.mem_cons_of_mem d (ih (.inl hc))
      · exact List.mem_cons_of_mem d (ih (.inr hc))
    simp only [splitClose] at h
    split_ifs at h with _ _ _ hzero
    · exact hnext h
    · exact hnext h
    · exact List.mem_cons_of_mem d (h.resolve_left List.not_mem_nil)
    · exact hnext h
    · exact hnext h

/-! ## Rules on one line -/

/-- The text of a line of a rule: what was trimmed, perhaps with the space after its
    colon. -/
def RuleLine.Cut (l : RuleLine) (x : Text) : Prop :=
  x.trim ≠ [] ∧ (l.text = x.trim ∨ l.text = Line.spaceAfterColon x.trim)

theorem RuleState.cut_declaration {st : RuleState} {depth : Nat} {l : RuleLine}
    (h : l ∈ st.declaration depth) : l.Cut st.current := by
  unfold RuleState.declaration at h
  split at h
  · cases h
  · rename_i hne
    rw [List.mem_singleton.1 h]
    exact ⟨fun hnil => hne (List.isEmpty_iff.2 hnil), .inr rfl⟩

theorem RuleState.cut_header {st : RuleState} {depth : Nat} {l : RuleLine}
    (h : l ∈ st.header depth) : l.Cut st.current := by
  unfold RuleState.header at h
  split at h
  · cases h
  · rename_i hne
    rw [List.mem_singleton.1 h]
    exact ⟨fun hnil => hne (List.isEmpty_iff.2 hnil), .inl rfl⟩

/-- Every line of a rule is cut out of it. -/
theorem splitRule_cut {depth : Nat} {st : RuleState} {l : RuleLine}
    (h : l ∈ splitRule depth st t) :
    ∃ x : Text, (∀ c ∈ x, c ∈ st.current ∨ c ∈ t) ∧ l.Cut x := by
  have hcons : ∀ {d : Char} {current rest x : Text},
      (∀ c ∈ x, c ∈ current ++ [d] ∨ c ∈ rest) → ∀ c ∈ x, c ∈ current ∨ c ∈ d :: rest := by
    intro d current rest x hx c hc
    have := hx c hc
    simp only [List.mem_append, List.mem_cons] at this ⊢
    tauto
  induction depth, st, t using splitRule.induct with
  | case1 depth st =>
    rw [splitRule] at h
    exact ⟨st.current, fun c hc => .inl hc, RuleState.cut_declaration h⟩
  | case2 depth st d rest hquote ih =>
    rw [splitRule, if_pos hquote] at h
    obtain ⟨x, hx, hcut⟩ := ih h
    exact ⟨x, hcons hx, hcut⟩
  | case3 depth st d rest hquote hhash opened ih =>
    rw [splitRule, if_neg hquote, if_pos hhash] at h
    obtain ⟨x, hx, hcut⟩ := ih h
    obtain ⟨-, hhead⟩ := hhash
    obtain ⟨rest', rfl⟩ : ∃ rest', rest = '\x7b' :: rest' := List.head?_eq_some_iff.1 hhead
    exact ⟨x, hcons (hcons hx), hcut⟩
  | case4 depth st rest hquote hhash ih₁ ih₂ =>
    rw [splitRule, if_neg hquote, if_neg hhash, if_pos rfl] at h
    simp only [List.mem_append] at h
    rcases h with (h | h) | h
    · exact ⟨st.current, fun c hc => .inl hc, RuleState.cut_header h⟩
    · obtain ⟨x, hx, hcut⟩ := ih₁ h
      refine ⟨x, fun c hc => .inr (List.mem_cons_of_mem _ ?_), hcut⟩
      exact mem_of_mem_splitClose (.inl ((hx c hc).resolve_left List.not_mem_nil))
    · obtain ⟨x, hx, hcut⟩ := ih₂ h
      refine ⟨x, fun c hc => .inr (List.mem_cons_of_mem _ ?_), hcut⟩
      exact mem_of_mem_splitClose (.inr ((hx c hc).resolve_left List.not_mem_nil))
  | case5 depth st rest hquote hinterpolation hhash hopen ih =>
    rw [splitRule, if_neg hquote, if_neg hhash, if_neg hopen, if_pos rfl, if_pos hinterpolation] at h
    obtain ⟨x, hx, hcut⟩ := ih h
    exact ⟨x, hcons hx, hcut⟩
  | case6 depth st rest hquote hinterpolation hhash hopen ih =>
    rw [splitRule, if_neg hquote, if_neg hhash, if_neg hopen, if_pos rfl, if_neg hinterpolation] at h
    obtain ⟨x, hx, hcut⟩ := ih h
    exact ⟨x, fun c hc => (hx c hc).imp_right (List.mem_cons_of_mem _), hcut⟩
  | case7 depth st rest hquote hhash hopen hclose ih =>
    rw [splitRule, if_neg hquote, if_neg hhash, if_neg hopen, if_neg hclose, if_pos rfl] at h
    obtain ⟨x, hx, hcut⟩ := ih h
    exact ⟨x, hcons hx, hcut⟩
  | case8 depth st rest hquote hhash hopen hclose hparen ih =>
    rw [splitRule, if_neg hquote, if_neg hhash, if_neg hopen, if_neg hclose, if_neg hparen,
      if_pos rfl] at h
    obtain ⟨x, hx, hcut⟩ := ih h
    exact ⟨x, hcons hx, hcut⟩
  | case9 depth st d rest hquote hhash hopen hclose hparen hparen' hsemicolon ih =>
    rw [splitRule, if_neg hquote, if_neg hhash, if_neg hopen, if_neg hclose, if_neg hparen,
      if_neg hparen', if_pos hsemicolon] at h
    rcases List.mem_append.1 h with h | h
    · exact ⟨st.current, fun c hc => .inl hc, RuleState.cut_declaration h⟩
    · obtain ⟨x, hx, hcut⟩ := ih h
      refine ⟨x, fun c hc => .inr (List.mem_cons_of_mem _ ?_), hcut⟩
      exact (hx c hc).resolve_left List.not_mem_nil
  | case10 depth st d rest hquote hhash hopen hclose hparen hparen' hsemicolon ih =>
    rw [splitRule, if_neg hquote, if_neg hhash, if_neg hopen, if_neg hclose, if_neg hparen,
      if_neg hparen', if_neg hsemicolon] at h
    obtain ⟨x, hx, hcut⟩ := ih h
    exact ⟨x, hcons hx, hcut⟩

theorem RuleLine.Cut.trimEnd_text {l : RuleLine} {x : Text} (h : l.Cut x) :
    l.text.trimEnd = l.text := by
  refine Text.trimEnd_eq_self ?_
  obtain ⟨-, h | h⟩ := h
  · rw [h]
    exact Text.getLast?_trimEnd _
  · rw [h, Line.getLast?_spaceAfterColon]
    exact Text.getLast?_trimEnd _

/-- No line of a rule is empty. -/
theorem RuleLine.Cut.text_ne_nil {l : RuleLine} {x : Text} (h : l.Cut x) : l.text ≠ [] := by
  obtain ⟨hne, h | h⟩ := h
  · rw [h]
    exact hne
  · intro hnil
    have hlast := Line.getLast?_spaceAfterColon x.trim
    rw [← h, hnil] at hlast
    exact hne (List.getLast?_eq_none_iff.1 hlast.symm)

/-- A line of a rule has no indentation of its own. -/
theorem RuleLine.Cut.width_text {l : RuleLine} {x : Text} (h : l.Cut x) (tab : Nat) :
    Indent.width tab l.text = 0 := by
  obtain ⟨hne, h⟩ := h
  have htrim : Indent.width tab x.trim = 0 := by
    obtain ⟨c, rest, hc⟩ := List.exists_cons_of_ne_nil hne
    have hvisible := Text.head_trim hc
    have hspace : c ≠ ' ' := by
      rintro rfl
      exact absurd hvisible (by decide)
    have htab : c ≠ '\t' := by
      rintro rfl
      exact absurd hvisible (by decide)
    rw [hc, Indent.width, if_neg hspace, if_neg htab]
  rcases h with h | h
  · rw [h, htrim]
  · rw [h, Line.width_spaceAfterColon, htrim]

theorem Line.mem_of_mem_spaceAfterColon (h : c ∈ Line.spaceAfterColon t) :
    isBlank c = true ∨ c ∈ t := by
  have hspaced : Line.spaceAfterColon t =
      Format.spaced {} ⟨false, false, false, false, false, true⟩ t := rfl
  exact Format.mem_of_mem_spaced (hspaced ▸ h)

theorem RuleLine.Cut.mem_of_mem {l : RuleLine} {x : Text} (h : l.Cut x) (hc : c ∈ l.text) :
    isBlank c = true ∨ c ∈ x := by
  obtain ⟨-, h | h⟩ := h
  · exact .inr (Text.mem_of_mem_trim (h ▸ hc))
  · exact (Line.mem_of_mem_spaceAfterColon (h ▸ hc)).imp_right Text.mem_of_mem_trim

/-! ## Converted lines -/

section

variable {indent code comment : Text}

theorem trimEnd_joinComment (hcode : code.trimEnd = code) (hcomment : comment.trimEnd = comment) :
    (joinComment indent code comment).trimEnd = joinComment indent code comment := by
  have hlast : ∀ {pre t : Text}, t.isEmpty = false → t.trimEnd = t →
      (pre ++ t).trimEnd = pre ++ t := by
    intro pre t hne htrim
    rw [Text.trimEnd_append, htrim]
    rw [htrim]
    exact fun hnil => by simp [hnil] at hne
  unfold joinComment
  split_ifs with hnone hempty hempty
  · rfl
  · exact hlast (by simpa using hempty) hcode
  · exact hlast (by simpa using hnone) hcomment
  · have hsplit : indent ++ code ++ ' ' :: comment = (indent ++ code ++ [' ']) ++ comment := by simp
    rw [hsplit]
    exact hlast (by simpa using hnone) hcomment

theorem mem_of_mem_joinComment (h : c ∈ joinComment indent code comment) :
    isBlank c = true ∨ c ∈ indent ∨ c ∈ code ∨ c ∈ comment := by
  unfold joinComment at h
  split_ifs at h
  · cases h
  · simp only [List.mem_append] at h
    tauto
  · simp only [List.mem_append] at h
    tauto
  · simp only [List.mem_append, List.mem_cons] at h
    rcases h with (h | h) | rfl | h
    · tauto
    · tauto
    · exact .inl (by decide)
    · tauto

end

/-- The characters of the code of a line, and of what stands behind its indentation. -/
theorem Line.mem_of_mem_code (h : c ∈ Text.trimEnd (Line.code line)) : c ∈ line := by
  rw [← Line.splitComment_append line]
  exact List.mem_append_left _ (Text.mem_of_mem_trimEnd h)

/-- The code of a line behind its indentation. -/
def Line.codeBody (line : Text) : Text := Text.body (Text.trimEnd (Line.code line))

theorem Line.mem_of_mem_codeBody (h : c ∈ Line.codeBody line) : c ∈ line :=
  Line.mem_of_mem_code (List.dropWhile_subset isBlank h)

section

variable {before after : Text}

/-- A line that opens no block. -/
theorem convertBraces_of_none (h : Line.splitBlockOpen? (Line.codeBody line) = none)
    (lastSelector : Text) :
    convertBraces line lastSelector =
      ⟨joinComment (Text.blanks (Line.code line).trimEnd) (stripBraces (Line.codeBody line)).trimEnd
        (Line.splitComment line).2.trim, [], lastSelector, false⟩ := by
  rw [Line.codeBody, Line.code] at h
  simp only [convertBraces, h]
  rfl

/-- A line whose header repeats the last selector. -/
theorem convertBraces_of_nested {lastSelector rest : Text}
    (h : Line.splitBlockOpen? (Line.codeBody line) = some (before, after))
    (hunnest : unnest? lastSelector before.trim = some rest) :
    convertBraces line lastSelector =
      ⟨joinComment (Text.blanks (Line.code line).trimEnd) rest (Line.splitComment line).2.trim,
        splitRule 1 {} after, lastSelector, true⟩ := by
  rw [Line.codeBody, Line.code] at h
  simp only [convertBraces, h, hunnest]
  rfl

/-- A line with a header of its own. -/
theorem convertBraces_of_header {lastSelector : Text}
    (h : Line.splitBlockOpen? (Line.codeBody line) = some (before, after))
    (hunnest : unnest? lastSelector before.trim = none) :
    convertBraces line lastSelector =
      ⟨joinComment (Text.blanks (Line.code line).trimEnd) before.trim
        (Line.splitComment line).2.trim, splitRule 1 {} after, before.trim, false⟩ := by
  rw [Line.codeBody, Line.code] at h
  simp only [convertBraces, h, hunnest]
  rfl

end

theorem unnest?_spec {lastSelector header rest : Text} (htrim : header.trimEnd = header)
    (h : unnest? lastSelector header = some rest) :
    rest.trimEnd = rest ∧ ∀ c ∈ rest, c ∈ header := by
  unfold unnest? at h
  split at h
  · cases h
  obtain ⟨s, hs, rfl⟩ := Option.map_eq_some_iff.1 h
  rw [Text.dropPrefix?_eq_some_iff] at hs
  rw [hs] at htrim ⊢
  refine ⟨Text.trimEnd_trimStart (Text.trimEnd_of_suffix htrim), fun c hc => ?_⟩
  exact List.mem_append_right _ (List.dropWhile_subset isWhite hc)

/-- What a line is converted to: its code and its comment, each trimmed, behind the
    indentation it had, and the lines that its rule is cut into. -/
theorem convertBraces_spec (line lastSelector : Text) :
    (∃ code, (convertBraces line lastSelector).text =
        joinComment (Text.blanks (Line.code line).trimEnd) code (Line.splitComment line).2.trim ∧
      code.trimEnd = code ∧ ∀ c ∈ code, c ∈ line) ∧
    ∀ l ∈ (convertBraces line lastSelector).lines, ∃ x : Text, (∀ c ∈ x, c ∈ line) ∧ l.Cut x := by
  cases hopen : Line.splitBlockOpen? (Line.codeBody line) with
  | none =>
    rw [convertBraces_of_none hopen]
    refine ⟨⟨_, rfl, Text.trimEnd_trimEnd _, fun c hc => ?_⟩, fun l hl => absurd hl List.not_mem_nil⟩
    exact Line.mem_of_mem_codeBody (mem_of_mem_stripBracesFrom (Text.mem_of_mem_trimEnd hc))
  | some parts =>
    obtain ⟨before, after⟩ := parts
    have hbody := Line.splitBlockOpenFrom?_eq hopen
    have hbefore : ∀ c ∈ before.trim, c ∈ line := by
      intro c hc
      refine Line.mem_of_mem_codeBody ?_
      rw [hbody]
      exact List.mem_append_left _ (Text.mem_of_mem_trim hc)
    have hafter : ∀ l ∈ splitRule 1 {} after, ∃ x : Text, (∀ c ∈ x, c ∈ line) ∧ l.Cut x := by
      intro l hl
      obtain ⟨x, hx, hcut⟩ := splitRule_cut hl
      refine ⟨x, fun c hc => Line.mem_of_mem_codeBody ?_, hcut⟩
      rw [hbody]
      exact List.mem_append_right _
        (List.mem_cons_of_mem _ ((hx c hc).resolve_left List.not_mem_nil))
    cases hunnest : unnest? lastSelector before.trim with
    | none =>
      rw [convertBraces_of_header hopen hunnest]
      exact ⟨⟨_, rfl, Text.trimEnd_trimEnd _, hbefore⟩, hafter⟩
    | some rest =>
      rw [convertBraces_of_nested hopen hunnest]
      obtain ⟨htrim, hrest⟩ := unnest?_spec (Text.trimEnd_trimEnd _) hunnest
      exact ⟨⟨rest, rfl, htrim, fun c hc => hbefore c (hrest c hc)⟩, hafter⟩

theorem trimEnd_convertBraces (line lastSelector : Text) :
    (convertBraces line lastSelector).text.trimEnd = (convertBraces line lastSelector).text := by
  obtain ⟨⟨code, htext, htrim, -⟩, -⟩ := convertBraces_spec line lastSelector
  rw [htext]
  exact trimEnd_joinComment htrim (Text.trimEnd_trimEnd _)

theorem mem_of_mem_convertBraces {lastSelector : Text}
    (h : c ∈ (convertBraces line lastSelector).text) : isBlank c = true ∨ c ∈ line := by
  obtain ⟨⟨code, htext, -, hcode⟩, -⟩ := convertBraces_spec line lastSelector
  rw [htext] at h
  rcases mem_of_mem_joinComment h with h | h | h | h
  · exact .inl h
  · exact .inr (Line.mem_of_mem_code (List.takeWhile_subset _ h))
  · exact .inr (hcode c h)
  · refine .inr ?_
    rw [← Line.splitComment_append line]
    exact List.mem_append_right _ (Text.mem_of_mem_trim h)

end IndentedSass
