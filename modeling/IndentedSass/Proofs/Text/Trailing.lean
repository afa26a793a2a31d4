/-
  White space at the end of a text.

  `White ws` are the texts of white space only.  Such a text behind another one is
  not seen by the scans that stop at white space.

  * `isWord_of_isWhite`, `isNameChar_of_isWhite`: no white space is part of a word;
  * `takeWhile_white`, `dropPrefix?_white`, `after?_white`, `trim_white`: scans of a
    text with white space behind it;
  * `getLast?_trimEnd`: what trimming the end leaves ends in no white space.
-/
import Mathlib
import IndentedSass.Text.Blank
import IndentedSass.Text.Word

namespace IndentedSass

/-! ## White space is no part of words -/

/-- The code points of white space. -/
def whiteCodes : List Nat :=
  [0x9, 0xA, 0xB, 0xC, 0xD, 0x20, 0x85, 0xA0, 0x1680, 0x2000, 0x2001, 0x2002, 0x2003, 0x2004,
    0x2005, 0x2006, 0x2007, 0x2008, 0x2009, 0x200A, 0x2028, 0x2029, 0x202F, 0x205F, 0x3000]

theorem mem_whiteCodes {c : Char} (h : isWhite c = true) : c.toNat ∈ whiteCodes := by
  simp only [isWhite, Bool.or_eq_true, Bool.and_eq_true, decide_eq_true_eq, beq_iff_eq] at h
  simp only [whiteCodes, List.mem_cons, List.not_mem_nil, or_false]
  omega

/-- A test that fails on all white space. -/
theorem false_of_isWhite {p : Char → Bool} (hp : ∀ n ∈ whiteCodes, p (Char.ofNat n) = false)
    {c : Char} (h : isWhite c = true) : p c = false := by
  have hc := hp c.toNat (mem_whiteCodes h)
  rwa [Char.ofNat_toNat] at hc

theorem isWord_of_isWhite {c : Char} (h : isWhite c = true) : isWord c = false :=
  false_of_isWhite (by decide +kernel) h

theorem isDigit_of_isWhite {c : Char} (h : isWhite c = true) : isDigit c = false :=
  false_of_isWhite (by decide +kernel) h

theorem ne_of_isWhite {a c : Char} (ha : isWhite a = false) (hc : isWhite c = true) : a ≠ c := by
  rintro rfl
  rw [hc] at ha
  cases ha

theorem isNameChar_of_isWhite {c : Char} (h : isWhite c = true) : isNameChar c = false := by
  have hne : c ≠ '-' := (ne_of_isWhite (by decide) h).symm
  rw [isNameChar, isWord_of_isWhite h, Bool.false_or, beq_eq_false_iff_ne]
  exact hne

/-! ## Scans -/

/-- A text of white space only. -/
def White (ws : Text) : Prop := ∀ c ∈ ws, isWhite c = true

namespace Text

variable {t ws : Text} {p : Char → Bool}

theorem takeWhile_of_white (hp : ∀ c, isWhite c = true → p c = false) (hw : White ws) :
    ws.takeWhile p = [] := by
  cases ws with
  | nil => rfl
  | cons c ws => rw [List.takeWhile_cons_of_neg]; simp [hp c (hw c (List.mem_cons_self ..))]

theorem dropWhile_of_white (hp : ∀ c, isWhite c = true → p c = false) (hw : White ws) :
    ws.dropWhile p = ws := by
  have hsplit := List.takeWhile_append_dropWhile (p := p) (l := ws)
  rwa [takeWhile_of_white hp hw] at hsplit

theorem takeWhile_white (hp : ∀ c, isWhite c = true → p c = false) (hw : White ws) (t : Text) :
    (t ++ ws).takeWhile p = t.takeWhile p := by
  induction t with
  | nil => exact takeWhile_of_white hp hw
  | cons c t ih => simp only [List.cons_append, List.takeWhile_cons, ih]

theorem dropWhile_white (hp : ∀ c, isWhite c = true → p c = false) (hw : White ws) (t : Text) :
    (t ++ ws).dropWhile p = t.dropWhile p ++ ws := by
  induction t with
  | nil => exact dropWhile_of_white hp hw
  | cons c t ih =>
    simp only [List.cons_append, List.dropWhile_cons, ih]
    split <;> rfl

/-- What is left of white space after its blanks is white space. -/
theorem white_body (hw : White ws) : White (body ws) :=
  fun c hc => hw c (List.dropWhile_subset _ hc)

/-- The white space behind a text is still behind it without its indentation, unless
    there is nothing else. -/
theorem body_white (hw : White ws) (t : Text) :
    (body t = [] ∧ White (body (t ++ ws))) ∨ (body t ≠ [] ∧ body (t ++ ws) = body t ++ ws) := by
  unfold body
  rw [List.dropWhile_append]
  by_cases h : t.dropWhile isBlank = []
  · refine .inl ⟨h, ?_⟩
    rw [h, if_pos List.isEmpty_nil]
    exact white_body hw
  · refine .inr ⟨h, ?_⟩
    rw [if_neg]
    simpa using h

theorem trimEnd_white (hw : White ws) (t : Text) : trimEnd (t ++ ws) = trimEnd t := by
  have hw' : ∀ c ∈ ws.reverse, isWhite c = true := fun c hc => hw c (List.mem_reverse.1 hc)
  rw [trimEnd, dropEnd, List.reverse_append, List.dropWhile_append_of_pos hw']
  rfl

theorem trim_white (hw : White ws) (t : Text) : trim (t ++ ws) = trim t := by
  unfold trim trimStart
  rw [List.dropWhile_append]
  by_cases h : t.dropWhile isWhite = []
  · have hnil : ws.dropWhile isWhite = [] := List.dropWhile_eq_nil_iff.2 hw
    rw [h, if_pos List.isEmpty_nil, hnil]
  · rw [if_neg (by simpa using h), trimEnd_white hw]

/-- Whether a text is free of white space. -/
def noWhite (q : Text) : Bool := q.all fun c => !isWhite c

theorem noWhite_cons {a : Char} {q : Text} :
    noWhite (a :: q) = true ↔ isWhite a = false ∧ noWhite q = true := by
  simp [noWhite]

/-- A pattern without white space is not found in white space. -/
theorem dropPrefix?_white {q : Text} (hq : noWhite q = true) (hw : White ws) (t : Text) :
    dropPrefix? q (t ++ ws) = (dropPrefix? q t).map (· ++ ws) := by
  induction q generalizing t with
  | nil => rfl
  | cons a q ih =>
    cases t with
    | nil =>
      cases ws with
      | nil => rfl
      | cons c ws =>
        have hne := ne_of_isWhite (noWhite_cons.1 hq).1 (hw c (List.mem_cons_self ..))
        simp [dropPrefix?, hne]
    | cons c t =>
      simp only [List.cons_append, dropPrefix?]
      split
      · exact ih (noWhite_cons.1 hq).2 t
      · rfl

theorem after?_white {a : Char} {q : Text} (hq : noWhite (a :: q) = true) (hw : White ws)
    (t : Text) : after? (t ++ ws) (a :: q) = (after? t (a :: q)).map (· ++ ws) := by
  have hnone : ∀ ws : Text, White ws → after? ws (a :: q) = none := by
    intro ws hw
    induction ws with
    | nil => rfl
    | cons c ws ih =>
      have hne := ne_of_isWhite (noWhite_cons.1 hq).1 (hw c (List.mem_cons_self ..))
      rw [after?, dropPrefix?, if_neg hne]
      exact ih fun d hd => hw d (List.mem_cons_of_mem c hd)
  induction t with
  | nil => rw [List.nil_append, hnone ws hw, hnone [] (by simp [White])]; rfl
  | cons c t ih =>
    have hcut := dropPrefix?_white hq hw (c :: t)
    rw [List.cons_append] at hcut
    rw [List.cons_append, after?, hcut, after?]
    cases dropPrefix? (a :: q) (c :: t) with
    | none => exact ih
    | some rest => rfl

theorem atWordEnd_white (hw : White ws) (t : Text) : atWordEnd (t ++ ws) = atWordEnd t := by
  cases t with
  | nil =>
    cases ws with
    | nil => rfl
    | cons c ws => simp [atWordEnd, isWord_of_isWhite (hw c (List.mem_cons_self ..))]
  | cons c t => rfl

/-! ## Trimming the end -/

/-- A text is what trimming its end leaves, and white space. -/
theorem exists_white (t : Text) : ∃ ws, White ws ∧ t = trimEnd t ++ ws := by
  refine ⟨(t.reverse.takeWhile isWhite).reverse, fun c hc => ?_, (trimmed_append_end t).symm⟩
  exact List.mem_takeWhile_imp (List.mem_reverse.1 hc)

variable {p : Char → Bool}

theorem exists_dropEnd (p : Char → Bool) (t : Text) : ∃ ws, t = dropEnd p t ++ ws := by
  refine ⟨(t.reverse.takeWhile p).reverse, ?_⟩
  rw [dropEnd, ← List.reverse_append, List.takeWhile_append_dropWhile, List.reverse_reverse]

theorem mem_of_mem_dropEnd {c : Char} (h : c ∈ dropEnd p t) : c ∈ t := by
  obtain ⟨ws, hsplit⟩ := exists_dropEnd p t
  rw [hsplit]
  exact List.mem_append_left _ h

theorem head?_dropWhile (t : Text) : ∀ c ∈ (t.dropWhile p).head?, p c = false := by
  intro c hc
  have hhead := List.head?_dropWhile_not p t
  rw [Option.mem_def.1 hc] at hhead
  simpa using hhead

theorem getLast?_dropEnd (t : Text) : ∀ c ∈ (dropEnd p t).getLast?, p c = false := by
  intro c hc
  rw [dropEnd, List.getLast?_reverse] at hc
  exact head?_dropWhile t.reverse c hc

/-- A text whose last character stays is left as it is. -/
theorem dropEnd_eq_self (h : ∀ c ∈ t.getLast?, p c = false) : dropEnd p t = t := by
  rw [dropEnd]
  cases hr : t.reverse with
  | nil => rw [List.reverse_eq_nil_iff.1 hr]; rfl
  | cons c rest =>
    have hlast : t.getLast? = some c := by rw [List.getLast?_eq_head?_reverse, hr]; rfl
    rw [List.dropWhile_cons_of_neg (by simp [h c hlast]), ← hr, List.reverse_reverse]

theorem dropEnd_concat {c : Char} (hc : p c = true) (h : ∀ d ∈ t.getLast?, p d = false) :
    dropEnd p (t ++ [c]) = t := by
  conv_rhs => rw [← dropEnd_eq_self h]
  rw [dropEnd, List.reverse_append, List.reverse_singleton, List.singleton_append,
    List.dropWhile_cons_of_pos hc, dropEnd]

/-- What trimming the end leaves ends in no white space. -/
theorem getLast?_trimEnd (t : Text) : ∀ c ∈ (trimEnd t).getLast?, isWhite c = false :=
  getLast?_dropEnd t

/-- A text that ends in no white space is left as it is. -/
theorem trimEnd_eq_self (h : ∀ c ∈ t.getLast?, isWhite c = false) : trimEnd t = t :=
  dropEnd_eq_self h

/-- The end of a text is trimmed behind anything else, unless it is white space only. -/
theorem trimEnd_append {pre t : Text} (hne : trimEnd t ≠ []) :
    trimEnd (pre ++ t) = pre ++ trimEnd t := by
  obtain ⟨ws, hw, ht⟩ := exists_white t
  have hsplit : pre ++ t = (pre ++ trimEnd t) ++ ws := by rw [List.append_assoc, ← ht]
  rw [hsplit, trimEnd_white hw]
  refine trimEnd_eq_self ?_
  rw [List.getLast?_append_of_ne_nil _ hne]
  exact getLast?_trimEnd t

theorem trimEnd_cons {c : Char} (hc : isWhite c = false) (t : Text) :
    trimEnd (c :: t) = c :: trimEnd t := by
  obtain ⟨ws, hw, ht⟩ := exists_white t
  have hsplit : c :: t = (c :: trimEnd t) ++ ws := congrArg (c :: ·) ht
  rw [hsplit, trimEnd_white hw]
  refine trimEnd_eq_self fun d hd => ?_
  cases hrest : trimEnd t with
  | nil =>
    rw [hrest] at hd
    cases hd
    exact hc
  | cons e rest =>
    rw [hrest, List.getLast?_cons_cons, ← hrest] at hd
    exact getLast?_trimEnd t d hd

@[simp] theorem trimEnd_trimEnd (t : Text) : trimEnd (trimEnd t) = trimEnd t :=
  trimEnd_eq_self (getLast?_trimEnd t)

theorem mem_of_mem_trimEnd {c : Char} (h : c ∈ trimEnd t) : c ∈ t := mem_of_mem_dropEnd h

theorem mem_of_mem_trim {c : Char} (h : c ∈ trim t) : c ∈ t :=
  List.dropWhile_subset isWhite (mem_of_mem_trimEnd h)

/-- A text without white space at its ends is left as it is. -/
theorem trim_eq_self (hhead : ∀ c ∈ t.head?, isWhite c = false)
    (hlast : ∀ c ∈ t.getLast?, isWhite c = false) : trim t = t := by
  have hstart : trimStart t = t := by
    cases t with
    | nil => rfl
    | cons c t => exact List.dropWhile_cons_of_neg (by simp [hhead c rfl])
  rw [trim, hstart, trimEnd_eq_self hlast]

end Text

end IndentedSass
