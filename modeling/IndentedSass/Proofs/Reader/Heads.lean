/-
  What stands behind the head of a line.

  A `@use`, a `@font-face` and a mixin are told by how their line begins, and the node records
  what the line begins with: the path and the qualifier, nothing, or the name and the list.
  What stands behind this head, a configuration or a comment, is recorded by no node.

  * `UseClause.WrittenPath` and `UseClause.WrittenAlias` are the parts of a `@use` line as they are
    written, and `UseClause.ofLine?_head` reads them;
  * `Line.HeadOf` is the head of a line of each kind; every such line has one (`Line.exists_headOf`);
  * `Line.HeadOf.exists_text` and `Line.HeadOf.body_readDetached`: a line is written back and read
    as its head is, and `readDetached_headOf` tells which words behind the head are written again.
-/
import Mathlib
import IndentedSass.Proofs.Reader.Parameters
import IndentedSass.Proofs.Reader.Written

namespace IndentedSass

/-! ## `@use` -/

namespace UseClause

/-- A path as it is written in front of `rest`. -/
inductive WrittenPath (rest : Text) : Text → Text → Prop
  /-- `"path"` or `'path'` -/
  | quoted {mark : Char} {path : Text} (hmark : isQuoteMark mark = true) (hpath : mark ∉ path) :
      WrittenPath rest path (mark :: (path ++ [mark]))
  /-- What ends at white space, and does not begin with a path between marks. -/
  | bare {path : Text} (hne : path ≠ []) (hvisible : ∀ c ∈ path, isWhite c = false)
      (hend : ∀ c ∈ rest.head?, isWhite c = true)
      (hopen : ∀ mark inner more, isQuoteMark mark = true →
        path ++ rest ≠ mark :: (inner ++ mark :: more)) :
      WrittenPath rest path path

/-- The part that names the qualifier as it is written in front of `behind`, if there is one. -/
inductive WrittenAlias (behind : Text) : Option (Option Text) → Text → Prop
  | missing (h : alias? behind = none) : WrittenAlias behind none []
  /-- `as *` -/
  | star {gap gap' : Text} (hgap : Blanks gap) (hne : gap ≠ []) (hgap' : Blanks gap')
      (hne' : gap' ≠ []) :
      WrittenAlias behind (some none) (gap ++ ("as".toList ++ (gap' ++ ['*'])))
  /-- `as name` -/
  | name {gap gap' word : Text} (hgap : Blanks gap) (hne : gap ≠ []) (hgap' : Blanks gap')
      (hne' : gap' ≠ []) (hword : word ≠ []) (hname : ∀ c ∈ word, isNameChar c = true)
      (hend : ∀ c ∈ behind.head?, isNameChar c = false) :
      WrittenAlias behind (some (some word)) (gap ++ ("as".toList ++ (gap' ++ word)))

variable {rest path written named behind t : Text} {found : Option (Option Text)}

/-! ### The parts are read -/

theorem quoted?_eq_none {mark : Char}
    (h : ∀ inner more, t ≠ mark :: (inner ++ mark :: more)) : quoted? mark t = none := by
  cases t with
  | nil => rfl
  | cons c t =>
    by_cases hc : c = mark
    · subst hc
      refine quoted?_of_not_mem fun hmem => ?_
      obtain ⟨inner, more, rfl⟩ := List.append_of_mem hmem
      exact h inner more rfl
    · exact quoted?_of_ne hc t

/-- A scan stops where the first character does not pass. -/
theorem scan_stop {p : Char → Bool} (h : ∀ c ∈ t.head?, p c = false) :
    t.takeWhile p = [] ∧ t.dropWhile p = t := by
  cases t with
  | nil => exact ⟨rfl, rfl⟩
  | cons c t =>
    have hc : ¬p c = true := by simp [h c rfl]
    exact ⟨List.takeWhile_cons_of_neg hc, List.dropWhile_cons_of_neg hc⟩

theorem WrittenPath.path?_eq (h : WrittenPath rest path written) :
    path? (written ++ rest) = some (path, rest) := by
  cases h with
  | quoted hmark hpath =>
    rw [List.cons_append, List.append_assoc, List.singleton_append, path?]
    rcases isQuoteMark_iff.1 hmark with rfl | rfl
    · rw [quoted?_of_mem hpath]
    · rw [quoted?_of_ne (by decide), quoted?_of_mem hpath]
  | bare hne hvisible hend hopen =>
    have hshown : ∀ c ∈ path, (!isWhite c) = true := fun c hc => by rw [hvisible c hc]; rfl
    obtain ⟨htake, hdrop⟩ := scan_stop (t := rest) (p := (!isWhite ·)) fun c hc => by simp [hend c hc]
    rw [path?, quoted?_eq_none fun inner more => hopen '"' inner more rfl,
      quoted?_eq_none fun inner more => hopen '\'' inner more rfl]
    dsimp only
    rw [List.takeWhile_append_of_pos hshown, List.dropWhile_append_of_pos hshown, htake, hdrop,
      List.append_nil]
    obtain ⟨c, more, rfl⟩ := List.exists_cons_of_ne_nil hne
    rfl

/-- Behind a blank, `as` and another blank, the name is read. -/
theorem alias?_as {gap gap' : Text} (hgap : Blanks gap) (hne : gap ≠ []) (hgap' : Blanks gap')
    (hne' : gap' ≠ []) (t : Text) :
    alias? (gap ++ ("as".toList ++ (gap' ++ t))) = aliasName? (Text.body t) := by
  obtain ⟨c, gap, rfl⟩ := List.exists_cons_of_ne_nil hne
  obtain ⟨d, gap', rfl⟩ := List.exists_cons_of_ne_nil hne'
  have hbody := Text.body_blanks hgap ("as".toList ++ (d :: gap' ++ t))
  rw [List.cons_append] at hbody ⊢
  rw [alias?_cons, hgap.head, hbody, if_neg (by decide)]
  show (if !isBlank d then none else aliasName? (Text.body (gap' ++ t))) = _
  rw [hgap'.head, if_neg (by decide), Text.body_blanks hgap'.tail]

theorem WrittenAlias.alias?_eq (h : WrittenAlias behind found named) :
    alias? (named ++ behind) = found := by
  cases h with
  | missing h => exact h
  | star hgap hne hgap' hne' =>
    rw [List.append_assoc, List.append_assoc, List.append_assoc, alias?_as hgap hne hgap' hne']
    rfl
  | @name gap gap' word hgap hne hgap' hne' hword hname hend =>
    rw [List.append_assoc, List.append_assoc, List.append_assoc, alias?_as hgap hne hgap' hne']
    exact aliasName?_name hword hname (scan_stop hend).1

theorem WrittenPath.body_eq (h : WrittenPath rest path written) (t : Text) :
    Text.body (written ++ t) = written ++ t := by
  have hhead : ∀ {c : Char} {more : Text}, isWhite c = false →
      Text.body (c :: more ++ t) = c :: more ++ t := fun hc =>
    List.dropWhile_cons_of_neg fun hblank => by
      rw [isWhite_of_isBlank hblank] at hc
      cases hc
  cases h with
  | quoted hmark =>
    refine hhead (Bool.eq_false_iff.2 fun hwhite => ?_)
    rw [isQuoteMark_of_isWhite hwhite] at hmark
    cases hmark
  | bare hne hvisible =>
    obtain ⟨c, more, rfl⟩ := List.exists_cons_of_ne_nil hne
    exact hhead (hvisible c (List.mem_cons_self ..))

/-- A `@use` line says what is written in its head. -/
theorem ofLine?_head {pre gap : Text} (hpre : Blanks pre) (hgap : Blanks gap) (hne : gap ≠ [])
    (hpath : WrittenPath (named ++ behind) path written)
    (halias : WrittenAlias behind found named) :
    ofLine? (pre ++ ("@use".toList ++ (gap ++ (written ++ (named ++ behind))))) =
      some ⟨path, found.getD (some (defaultQualifier path))⟩ := by
  obtain ⟨c, gap, rfl⟩ := List.exists_cons_of_ne_nil hne
  have hstart : Text.dropPrefix? "@use".toList (Text.body (pre ++ ("@use".toList ++
      (c :: gap ++ (written ++ (named ++ behind)))))) =
        some (c :: (gap ++ (written ++ (named ++ behind)))) := by
    rw [Text.body_blanks hpre]
    exact Text.dropPrefix?_eq_some_iff.2 rfl
  have hbody : Text.body (gap ++ (written ++ (named ++ behind))) = written ++ (named ++ behind) := by
    rw [Text.body_blanks hgap.tail, hpath.body_eq]
  rw [ofLine?, hstart]
  dsimp only
  rw [hgap.head, if_neg (by decide), hbody, hpath.path?_eq, Option.map_some]
  dsimp only
  rw [halias.alias?_eq]

/-! ### Nothing in them depends on what follows -/

theorem WrittenPath.of_append {more : Text} (h : WrittenPath (rest ++ more) path written) :
    WrittenPath rest path written := by
  cases h with
  | quoted hmark hpath => exact .quoted hmark hpath
  | bare hne hvisible hend hopen =>
    refine .bare hne hvisible (fun c hc => hend c ?_) fun mark inner tail hmark heq => ?_
    · rw [List.head?_append, Option.mem_def.1 hc]
      rfl
    · refine hopen mark inner (tail ++ more) hmark ?_
      rw [← List.append_assoc, heq, List.cons_append, List.append_assoc, List.cons_append]

theorem WrittenAlias.alone (h : WrittenAlias behind found named) : WrittenAlias [] found named := by
  cases h with
  | missing => exact .missing rfl
  | star hgap hne hgap' hne' => exact .star hgap hne hgap' hne'
  | name hgap hne hgap' hne' hword hname => exact .name hgap hne hgap' hne' hword hname nofun

/-! ### Every line has them -/

theorem quoted?_eq_some {mark : Char} (h : quoted? mark t = some (path, rest)) :
    t = mark :: (path ++ mark :: rest) ∧ mark ∉ path := by
  cases t with
  | nil => cases h
  | cons c t =>
    by_cases hc : c = mark
    · subst hc
      by_cases hmem : c ∈ t
      · obtain ⟨found, more, rfl, hfound⟩ := List.eq_append_cons_of_mem hmem
        rw [quoted?_of_mem hfound] at h
        cases h
        exact ⟨rfl, hfound⟩
      · rw [quoted?_of_not_mem hmem] at h
        cases h
    · rw [quoted?_of_ne hc] at h
      cases h

theorem exists_writtenPath (h : path? t = some (path, rest)) :
    ∃ written, t = written ++ rest ∧ WrittenPath rest path written := by
  have hquoted : ∀ {mark : Char}, isQuoteMark mark = true → quoted? mark t = some (path, rest) →
      ∃ written, t = written ++ rest ∧ WrittenPath rest path written := by
    intro mark hmark hq
    obtain ⟨rfl, hpath⟩ := quoted?_eq_some hq
    exact ⟨_, by simp, .quoted hmark hpath⟩
  unfold path? at h
  cases hdouble : quoted? '"' t with
  | some found =>
    rw [hdouble] at h
    exact hquoted (by decide) (hdouble.trans h)
  | none =>
    cases hsingle : quoted? '\'' t with
    | some found =>
      rw [hdouble, hsingle] at h
      exact hquoted (by decide) (hsingle.trans h)
    | none =>
      rw [hdouble, hsingle] at h
      dsimp only at h
      split at h
      · cases h
      · rename_i hne
        cases h
        refine ⟨_, List.takeWhile_append_dropWhile.symm, .bare hne ?_ ?_ ?_⟩
        · intro c hc
          simpa using List.mem_takeWhile_imp hc
        · intro c hc
          simpa using Text.head?_dropWhile t c hc
        · intro mark inner more hmark heq
          rw [List.takeWhile_append_dropWhile] at heq
          obtain ⟨path, rest, hsplit, hpath⟩ := List.eq_append_cons_of_mem
            (show mark ∈ inner ++ mark :: more by simp)
          have hfound : quoted? mark t = some (path, rest) := by
            rw [heq, hsplit, quoted?_of_mem hpath]
          rcases isQuoteMark_iff.1 hmark with rfl | rfl
          · exact absurd (hdouble.symm.trans hfound) nofun
          · exact absurd (hsingle.symm.trans hfound) nofun

/-- Without its blanks, what follows the path names the qualifier. -/
theorem exists_aliasTail {found : Option Text} (h : aliasTail? t = some found) :
    ∃ gap' rest, t = "as".toList ++ (gap' ++ rest) ∧ Blanks gap' ∧ gap' ≠ [] ∧
      aliasName? rest = some found := by
  unfold aliasTail? at h
  split at h
  · rename_i d rest
    split at h
    · cases h
    · rename_i hd
      refine ⟨d :: Text.blanks rest, Text.body rest, ?_, ?_, List.cons_ne_nil _ _, h⟩
      · rw [List.cons_append, Text.blanks_append_body]
        rfl
      · exact List.forall_mem_cons.2 ⟨by simpa using hd, Text.blanks_blanks rest⟩
  · cases h

theorem exists_writtenAlias (t : Text) :
    ∃ named behind, t = named ++ behind ∧ WrittenAlias behind (alias? t) named := by
  cases hfound : alias? t with
  | none => exact ⟨[], t, rfl, .missing hfound⟩
  | some found =>
    cases t with
    | nil => cases hfound
    | cons c t =>
      rw [alias?_cons] at hfound
      split at hfound
      · cases hfound
      · rename_i hc
        have hgap : Text.blanks (c :: t) ≠ [] := by
          rw [Text.blanks, List.takeWhile_cons_of_pos (by simpa using hc)]
          exact List.cons_ne_nil _ _
        have hsplit := (Text.blanks_append_body (c :: t)).symm
        obtain ⟨gap', rest, hbody, hgap', hne', hname⟩ := exists_aliasTail hfound
        rw [hbody] at hsplit
        have hblanks := Text.blanks_blanks (c :: t)
        unfold aliasName? at hname
        split at hname
        · rename_i behind
          cases hname
          exact ⟨_, behind, hsplit.trans (by simp), .star hblanks hgap hgap' hne'⟩
        · split at hname
          · cases hname
          · rename_i hword
            cases hname
            refine ⟨_, _, hsplit.trans ?_, .name hblanks hgap hgap' hne' hword
              (fun c hc => List.mem_takeWhile_imp hc) (Text.head?_dropWhile rest)⟩
            conv_lhs => rw [← List.takeWhile_append_dropWhile (p := isNameChar) (l := rest)]
            simp

end UseClause

/-! ## Heads -/

namespace Line

/-- The part of a line of a kind that its node is made of, in front of `behind`. -/
inductive HeadOf (behind : Text) : LineKind → Text → Prop
  | fontFace {pre : Text} (hpre : Blanks pre) : HeadOf behind .fontFace (pre ++ "@font-face".toList)
  /-- It ends with the path or the qualifier. -/
  | useModule {pre gap path written named : Text} {found : Option (Option Text)} (hpre : Blanks pre)
      (hgap : Blanks gap) (hne : gap ≠ []) (hpath : UseClause.WrittenPath (named ++ behind) path written)
      (halias : UseClause.WrittenAlias behind found named) :
      HeadOf behind .useModule (pre ++ ("@use".toList ++ (gap ++ (written ++ named))))
  /-- It ends with the last parenthesis, which closes the list. -/
  | mixin {pre name inner : Text} {spelling : Spelling} (hpre : Blanks pre) (hparen : '(' ∉ name)
      (hbehind : ')' ∉ behind) :
      HeadOf behind .mixin (pre ++ (spelling.mixinSign ++ (name ++ '(' :: (inner ++ [')']))))
  /-- It is all of the line when no list is closed. -/
  | unlisted {head : Text} (hbehind : behind = [])
      (hlist : ∀ name inner, head = name ++ '(' :: inner → ')' ∉ inner) : HeadOf behind .mixin head

variable {behind head line : Text} {kind : LineKind}

theorem HeadOf.kind_cases (h : HeadOf behind kind head) :
    kind = .fontFace ∨ kind = .mixin ∨ kind = .useModule := by
  cases h <;> simp

/-- What a head says does not depend on what stands behind it. -/
theorem HeadOf.useClause (h : HeadOf behind .useModule head) :
    (UseClause.ofLine? (head ++ behind)).isSome = true ∧
      UseClause.ofLine? (head ++ behind) = UseClause.ofLine? head := by
  cases h with
  | @useModule pre gap path written named found hpre hgap hne hpath halias =>
    have halone : UseClause.WrittenPath (named ++ []) path written := by
      rw [List.append_nil]
      exact hpath.of_append
    have hhead := UseClause.ofLine?_head hpre hgap hne halone halias.alone
    rw [List.append_nil] at hhead
    have hline := UseClause.ofLine?_head hpre hgap hne hpath halias
    simp only [← List.append_assoc] at hline hhead ⊢
    rw [hline, hhead]
    exact ⟨rfl, rfl⟩

theorem HeadOf.mixinClause (h : HeadOf behind .mixin head) :
    MixinClause.ofLine (head ++ behind) = MixinClause.ofLine head := by
  cases h with
  | @mixin pre name inner spelling hpre hparen hbehind =>
    have hline := MixinClause.ofLine_signed spelling hpre hparen inner hbehind
    have hhead := MixinClause.ofLine_signed spelling hpre hparen inner (List.not_mem_nil (a := ')'))
    have hjoin : pre ++ (spelling.mixinSign ++ (name ++ '(' :: (inner ++ [')']))) ++ behind =
        pre ++ (spelling.mixinSign ++ (name ++ '(' :: (inner ++ ')' :: behind))) := by simp
    rw [hjoin]
    exact hline.trans hhead.symm
  | unlisted hbehind =>
    rw [hbehind, List.append_nil]

/-- What a head is written back as does not depend on it either, and it is one line. -/
theorem HeadOf.exists_text (h : HeadOf behind kind head) : ∃ written,
    texts head kind = [written] ∧ texts (head ++ behind) kind = [written] := by
  rcases h.kind_cases with rfl | rfl | rfl
  · exact ⟨_, rfl, rfl⟩
  · exact ⟨_, rfl, by simp only [texts, h.mixinClause]⟩
  · obtain ⟨clause, hclause⟩ := Option.isSome_iff_exists.1 h.useClause.1
    have halone := h.useClause.2.symm.trans hclause
    exact ⟨useText clause.path clause.qualifier, by simp only [texts, halone],
      by simp only [texts, hclause]⟩

/-! ### The kind of a head -/

theorem kind_use {c : Char} (hc : isBlank c = true) (t : Text) :
    kindOutsideComment ("@use".toList ++ c :: t) = .useModule := by
  obtain ⟨hblank, -, -⟩ := kind_of_head (c := '@') (by decide) (by decide) ("use".toList ++ c :: t)
  unfold kindOutsideComment
  rw [show isBlankLine ("@use".toList ++ c :: t) = false from hblank]
  rcases isBlank_iff.1 hc with rfl | rfl <;> rfl

theorem kind_mixin_word {t : Text} (ht : t.atWordEnd = true) :
    kindOutsideComment ("@mixin".toList ++ t) = .mixin := by
  obtain ⟨hblank, -, -⟩ := kind_of_head (c := '@') (by decide) (by decide) ("mixin".toList ++ t)
  have hmixin : isMixin ("@mixin".toList ++ t) = true := by
    show (t.atWordEnd || false || false) = true
    rw [ht]
    rfl
  unfold kindOutsideComment
  rw [show isBlankLine ("@mixin".toList ++ t) = false from hblank, hmixin]
  rfl

/-- A head is of the kind of its line. -/
theorem HeadOf.kind_eq (h : HeadOf behind kind head)
    (hkind : kindOutsideComment (head ++ behind) = kind) : kindOutsideComment head = kind := by
  cases h with
  | fontFace hpre =>
    rw [kindOutsideComment_blanks hpre]
    decide
  | @useModule pre gap path written named found hpre hgap hne =>
    obtain ⟨c, gap, rfl⟩ := List.exists_cons_of_ne_nil hne
    rw [kindOutsideComment_blanks hpre]
    exact kind_use hgap.head _
  | @mixin pre name inner spelling hpre =>
    rw [kindOutsideComment_blanks hpre]
    cases spelling with
    | sigil => exact kind_mixin .sigil _
    | keyword =>
      -- the word ends at the same character, in the name or at the list
      refine kind_mixin_word ?_
      have hpassed := passed_kind (pre ++ (Spelling.keyword.mixinSign ++
        (name ++ '(' :: (inner ++ [')']))) ++ behind)
      rw [hkind, List.append_assoc] at hpassed
      have hbody : Text.body (pre ++ (Spelling.keyword.mixinSign ++
          (name ++ '(' :: (inner ++ [')'])) ++ behind)) =
            "@mixin".toList ++ (name ++ '(' :: (inner ++ [')']) ++ behind) := by
        rw [Text.body_blanks hpre, List.append_assoc]
        rfl
      rcases Bool.or_eq_true_iff.1 (show (_ || _) = true from hpassed) with hword | hsign
      · obtain ⟨rest, hrest, hend⟩ := hasAtRule_eq hword
        have hsame : rest = name ++ '(' :: (inner ++ [')']) ++ behind :=
          List.append_cancel_left (hrest.symm.trans hbody)
        subst hsame
        cases name <;> exact hend
      · rw [headIs, hbody] at hsign
        cases hsign
  | unlisted hbehind => rwa [hbehind, List.append_nil] at hkind

theorem exists_listEnd {t : Text} (h : ')' ∈ t) :
    ∃ inner behind, t = inner ++ ')' :: behind ∧ ')' ∉ behind := by
  obtain ⟨front, rest, hsplit, hfront⟩ := List.eq_append_cons_of_mem (List.mem_reverse.2 h)
  refine ⟨rest.reverse, front.reverse, ?_, by simpa using hfront⟩
  rw [← t.reverse_reverse, hsplit]
  simp

/-- A line that is a mixin has a head. -/
theorem exists_headOf_mixin {pre rest : Text} {spelling : Spelling} (hpre : Blanks pre) :
    ∃ head behind, pre ++ (spelling.mixinSign ++ rest) = head ++ behind ∧
      HeadOf behind .mixin head := by
  by_cases hlist : ∃ name inner, rest = name ++ '(' :: inner ∧ '(' ∉ name ∧ ')' ∈ inner
  · obtain ⟨name, list, rfl, hparen, hclosed⟩ := hlist
    obtain ⟨inner, behind, rfl, hbehind⟩ := exists_listEnd hclosed
    exact ⟨pre ++ (spelling.mixinSign ++ (name ++ '(' :: (inner ++ [')']))), behind, by simp,
      .mixin hpre hparen hbehind⟩
  · refine ⟨_, [], (List.append_nil _).symm, .unlisted rfl fun name inner heq hmem => hlist ?_⟩
    -- the parenthesis is not in front of the name, and the first one opens the list
    have hsign : '(' ∉ pre ++ spelling.mixinSign := by
      intro hmem
      rcases List.mem_append.1 hmem with hmem | hmem
      · exact absurd (hpre _ hmem) (by decide)
      · revert hmem
        cases spelling <;> decide
    have hrest : '(' ∈ rest := by
      have hall : '(' ∈ pre ++ (spelling.mixinSign ++ rest) := heq ▸ by simp
      rw [← List.append_assoc] at hall
      exact (List.mem_append.1 hall).resolve_left hsign
    obtain ⟨first, list, rfl, hfirst⟩ := List.eq_append_cons_of_mem hrest
    refine ⟨first, list, rfl, hfirst, ?_⟩
    have hfront : '(' ∉ pre ++ (spelling.mixinSign ++ first) := by
      rw [← List.append_assoc]
      exact fun hmem => (List.mem_append.1 hmem).elim hsign hfirst
    have hsame : (pre ++ (spelling.mixinSign ++ first)) ++ '(' :: list = name ++ '(' :: inner := by
      rw [← heq]
      simp
    rcases List.append_eq_append_iff.1 hsame with ⟨as, rfl, has⟩ | ⟨as, has, hinner⟩
    · have hlong : ')' ∈ as ++ '(' :: inner := List.mem_append_right _ (List.mem_cons_of_mem _ hmem)
      rw [← has] at hlong
      exact (List.mem_cons.1 hlong).resolve_left (by decide)
    · cases as with
      | nil => exact (List.cons.inj hinner).2 ▸ hmem
      | cons c as =>
        obtain ⟨rfl, -⟩ := List.cons.inj hinner
        exact absurd (has ▸ by simp) hfront

/-- A line that is read as a module, a font face or a mixin has a head. -/
theorem exists_headOf (hkind : kindOutsideComment line = kind)
    (hnode : kind = .fontFace ∨ kind = .mixin ∨
      (kind = .useModule ∧ (UseClause.ofLine? line).isSome = true)) :
    ∃ head behind, line = head ++ behind ∧ HeadOf behind kind head := by
  have hpassed := passed_kind line
  rw [hkind] at hpassed
  have hsplit := line.blanks_append_body
  rcases hnode with rfl | rfl | ⟨rfl, hclause⟩
  · obtain ⟨behind, hbody, -⟩ := hasAtRule_eq (show hasAtRule ["font-face"] line = true from hpassed)
    refine ⟨_, behind, hsplit.symm.trans ?_, .fontFace line.blanks_blanks⟩
    rw [hbody, List.append_assoc]
    rfl
  · have hsigned : ∃ spelling rest, line.body = Spelling.mixinSign spelling ++ rest := by
      rcases Bool.or_eq_true_iff.1 (show (_ || _) = true from hpassed) with hword | hsign
      · obtain ⟨rest, hbody, -⟩ := hasAtRule_eq hword
        exact ⟨.keyword, rest, hbody⟩
      · unfold headIs at hsign
        split at hsign
        · rename_i c rest hbody
          obtain rfl : c = '=' := eq_of_beq hsign
          exact ⟨.sigil, rest, hbody⟩
        · cases hsign
    obtain ⟨spelling, rest, hbody⟩ := hsigned
    rw [← hsplit, hbody]
    exact exists_headOf_mixin line.blanks_blanks
  · obtain ⟨clause, hclause⟩ := Option.isSome_iff_exists.1 hclause
    unfold UseClause.ofLine? at hclause
    split at hclause
    · rename_i c rest hstart
      split at hclause
      · cases hclause
      · rename_i hc
        obtain ⟨⟨path, tail⟩, hpath, -⟩ := Option.map_eq_some_iff.1 hclause
        obtain ⟨written, hwritten, hpathWritten⟩ := UseClause.exists_writtenPath hpath
        obtain ⟨named, behind, rfl, halias⟩ := UseClause.exists_writtenAlias tail
        have hgap : Blanks (c :: Text.blanks rest) :=
          List.forall_mem_cons.2 ⟨by simpa using hc, Text.blanks_blanks rest⟩
        have hbody : line.body = "@use".toList ++ (c :: Text.blanks rest ++ Text.body rest) := by
          rw [Text.dropPrefix?_eq_some_iff.1 hstart, List.cons_append, Text.blanks_append_body]
        refine ⟨_, behind, hsplit.symm.trans ?_,
          .useModule line.blanks_blanks hgap (List.cons_ne_nil _ _) hpathWritten halias⟩
        rw [hbody, hwritten]
        simp
    · cases hclause

/-- What stands behind a head does not belong to the indentation. -/
theorem HeadOf.width_eq (h : HeadOf behind kind head) (tab : Nat) :
    Indent.width tab (head ++ behind) = Indent.width tab head := by
  have hsign : ∀ {pre rest : Text} {c : Char}, isBlank c = false → head = pre ++ c :: rest →
      Indent.width tab (head ++ behind) = Indent.width tab head := by
    rintro pre rest c hc rfl
    rw [List.append_assoc]
    exact width_congr hc pre (rest ++ behind) rest
  cases h with
  | fontFace => exact hsign (c := '@') (by decide) rfl
  | useModule => exact hsign (c := '@') (by decide) rfl
  | @mixin _ _ _ spelling =>
    cases spelling with
    | keyword => exact hsign (c := '@') (by decide) rfl
    | sigil => exact hsign (c := '=') (by decide) rfl
  | unlisted hbehind => rw [hbehind, List.append_nil]

end Line

/-! ## Reading -/

namespace Reading

variable {σ : Type} {g : Reading σ} {info : LineInfo} {behind head : Text} {kind : LineKind}

/-- A line is read as its head is; only the notes about it cover all of the line. -/
theorem readKind_headOf (resolver : Resolver σ) (h : g.reader.HasTarget info)
    (huse : kind = .useModule → g.reader.useAllowed = true) (hhead : Line.HeadOf behind kind head) :
    ∃ ds, (g.readKind resolver info (head ++ behind) kind).reader =
      { (g.readKind resolver info head kind).reader with diagnostics := ds } := by
  have hblock : ∀ (r : Reader), r.HasTarget info → ∀ header, ∃ ds,
      r.addBlock info (head ++ behind) header =
        { r.addBlock info head header with diagnostics := ds } := by
    intro r hr header
    obtain ⟨ds, hline⟩ := Reader.addBlock_eq hr (head ++ behind) header
    obtain ⟨ds', hown⟩ := Reader.addBlock_eq hr head header
    exact ⟨ds, by rw [hline, hown]⟩
  rcases hhead.kind_cases with rfl | rfl | rfl
  · exact hblock g.reader.forbidUse h .fontFace
  · obtain ⟨ds, hread⟩ := Reader.readParameters_eq (resolver.find g.files info.index) g.reader.forbidUse info
      (MixinClause.ofLine head).parameters
    obtain ⟨ds', hadd⟩ := hblock { g.reader.forbidUse with diagnostics := ds } h
      (.mixin (MixinClause.ofLine head).spelling (MixinClause.ofLine head).name
        ((MixinClause.ofLine head).parameters.map (Parameter.ofText
          (g.reader.forbidUse.lookup (resolver.find g.files info.index)) info.index
            (g.reader.forbidUse.levelOf info))))
    refine ⟨ds', ?_⟩
    simp only [readKind, Reader.readMixin, hhead.mixinClause, hread, hadd]
  · obtain ⟨clause, hclause⟩ := Option.isSome_iff_exists.1 hhead.useClause.1
    have hown := hhead.useClause.2.symm.trans hclause
    have hallowed : ¬(!g.reader.useAllowed) = true := by simp [huse rfl]
    have hsame : g.readUse resolver info (head ++ behind) = g.readUse resolver info head := by
      unfold readUse
      rw [if_neg hallowed, if_neg hallowed, hclause, hown]
    exact ⟨_, congrArg Reading.reader hsame⟩

end Reading

/-- A text of one line is what the line adds to the tree. -/
theorem readDetached_single (uri : Uri) (style : IndentStyle) {text line : Text}
    (hone : text.lines.map Text.dropReturn = [line]) : (readDetached uri style text).body =
      ((Reading.readLine .detached ⟨.start uri style, (), []⟩ 0 line).reader.flushBlanks []).nodes := by
  obtain ⟨raw, hraw, rfl⟩ := List.map_eq_singleton_iff.1 hone
  simp only [readDetached, readFile, hraw]
  rfl

/-- It is written back as the line is. -/
theorem render_readDetached_single (uri : Uri) (style : IndentStyle) {text line : Text}
    (hone : text.lines.map Text.dropReturn = [line]) (hvisible : Line.isBlankLine line = false) :
    Tree.render style (readDetached uri style text).body =
      Text.unlines (Line.texts line (Line.kindOutsideComment line)) := by
  obtain ⟨raw, hraw, rfl⟩ := List.map_eq_singleton_iff.1 hone
  have htext : raw = text := by
    rw [← Text.unlines_lines text, hraw, Text.unlines_singleton]
  have hline : '\n' ∉ raw := Text.not_mem_of_mem_lines (hraw ▸ List.mem_singleton_self raw)
  subst htext
  exact render_readDetached_line uri style hline hvisible

/-- A line is read as its head is, when each is all of a text. -/
theorem Line.HeadOf.body_readDetached {behind head : Text} {kind : LineKind}
    (hhead : Line.HeadOf behind kind head) (uri : Uri) (style : IndentStyle)
    (hkind : Line.kindOutsideComment (head ++ behind) = kind) {text alone : Text}
    (hone : text.lines.map Text.dropReturn = [head ++ behind])
    (halone : alone.lines.map Text.dropReturn = [head]) :
    (readDetached uri style text).body = (readDetached uri style alone).body := by
  have hheadKind := hhead.kind_eq hkind
  have hkinds : kind ≠ .blank ∧ kind ≠ .blockCommentContent := by
    rcases hhead.kind_cases with rfl | rfl | rfl <;> decide
  have hs : (Reader.start uri style).Sound := Reader.sound_start uri style
  have hinfo : (Reader.start uri style).lineInfo 0 (head ++ behind) =
      (Reader.start uri style).lineInfo 0 head := by
    rw [Reader.lineInfo, Reader.lineInfo, hhead.width_eq]
  have hread : ∀ l, Line.kindOutsideComment l = kind →
      Reading.readLine .detached ⟨.start uri style, (), []⟩ 0 l = Reading.readKind .detached
        ⟨(Reader.start uri style).settled ((Reader.start uri style).lineInfo 0 l), (), []⟩
        ((Reader.start uri style).lineInfo 0 l) l kind := by
    rintro l rfl
    exact Reading.readLine_of_visible (g := ⟨.start uri style, (), []⟩) .detached hs 0 hkinds.1 hkinds.2
  obtain ⟨ds, hsame⟩ := Reading.readKind_headOf (g := ⟨(Reader.start uri style).settled
      ((Reader.start uri style).lineInfo 0 head), (), []⟩) .detached
    ((hs.settled _).hasTarget ((Reader.start uri style).lineInfo 0 head)) (fun _ => rfl) hhead
  rw [readDetached_single uri style hone, readDetached_single uri style halone, hread _ hkind,
    hread _ hheadKind, hinfo, hsame, Reader.flushBlanks_eq rfl, Reader.flushBlanks_eq rfl]

/-- A text of one line that is read as a module, a font face or a mixin is read as the head of the
    line is.  The words behind the head occur in what is written exactly if they occur in what the
    head is written back as. -/
theorem readDetached_headOf (uri : Uri) (style : IndentStyle) {text line : Text} {kind : LineKind}
    (hone : text.lines.map Text.dropReturn = [line]) (hkind : Line.kindOutsideComment line = kind)
    (hnode : kind = .fontFace ∨ kind = .mixin ∨
      (kind = .useModule ∧ (UseClause.ofLine? line).isSome = true)) :
    (∃ head behind, line = head ++ behind ∧ Line.HeadOf behind kind head) ∧
    ∀ head behind, line = head ++ behind → Line.HeadOf behind kind head →
      (∀ alone : Text, alone.lines.map Text.dropReturn = [head] →
        (readDetached uri style text).body = (readDetached uri style alone).body) ∧
      ∃ written, Line.texts head kind = [written] ∧
        ((∀ token ∈ behind.splitOnP isWhite,
            (Tree.render style (readDetached uri style text).body).has token = true) ↔
          ∀ token ∈ behind.splitOnP isWhite, written.has token = true) := by
  refine ⟨Line.exists_headOf hkind hnode, ?_⟩
  rintro head behind rfl hhead
  refine ⟨fun alone halone => hhead.body_readDetached uri style hkind hone halone, ?_⟩
  have hvisible : Line.isBlankLine (head ++ behind) = false := by
    refine Bool.eq_false_iff.2 fun hblank => ?_
    have hkindBlank : Line.kind style.tabStop none (head ++ behind) = .blank :=
      Line.kind_eq_blank_iff.2 hblank
    rw [Line.kind_none, hkind] at hkindBlank
    rcases hhead.kind_cases with rfl | rfl | rfl <;> cases hkindBlank
  obtain ⟨written, hwritten, hline⟩ := hhead.exists_text
  have hrender : Tree.render style (readDetached uri style text).body = written := by
    rw [render_readDetached_single uri style hone hvisible, hkind, hline, Text.unlines_singleton]
  exact ⟨written, hwritten, by rw [hrender]⟩

/-- A comment behind the qualifier of a module: what is written back is `@use 'a/b' as c`. -/
theorem readDetached_headOf_module :
    let uri : Uri := ⟨"file".toList, none, "/a.sass".toList, none, none⟩
    let head : Text := "\t@use  \"a/b\" as c".toList
    let text : Text := "\t@use  \"a/b\" as c // d\r".toList
    Line.HeadOf " // d".toList .useModule head ∧
      (readDetached uri {} text).body = (readDetached uri {} head).body ∧
      ¬∀ token ∈ (" // d".toList : Text).splitOnP isWhite,
        (Tree.render {} (readDetached uri {} text).body).has token = true := by
  intro uri head text
  have hspace : Blanks [' '] := List.forall_mem_singleton.2 rfl
  have hpath : UseClause.WrittenPath (" as c".toList ++ " // d".toList) "a/b".toList
      ('"' :: ("a/b".toList ++ ['"'])) := .quoted (by decide) (by decide)
  have halias : UseClause.WrittenAlias " // d".toList (some (some ['c']))
      ([' '] ++ ("as".toList ++ ([' '] ++ ['c']))) :=
    .name hspace (List.cons_ne_nil _ _) hspace (List.cons_ne_nil _ _) (List.cons_ne_nil _ _)
      (List.forall_mem_singleton.2 (by decide)) (by rintro c ⟨⟩; decide)
  have hhead : Line.HeadOf " // d".toList .useModule head :=
    .useModule (List.forall_mem_singleton.2 (rfl : isBlank '\t' = true))
      (List.forall_mem_cons.2 ⟨rfl, hspace⟩) (List.cons_ne_nil _ _) hpath halias
  have hsplit : "\t@use  \"a/b\" as c // d".toList = head ++ " // d".toList := by decide +kernel
  have hwritten : Line.texts head .useModule = ["@use 'a/b' as c".toList] := by decide +kernel
  obtain ⟨-, hread⟩ := readDetached_headOf uri {} 
    (show text.lines.map Text.dropReturn = ["\t@use  \"a/b\" as c // d".toList] by decide +kernel)
    (by decide +kernel) (.inr (.inr ⟨rfl, by decide +kernel⟩))
  obtain ⟨hbody, written, hown, hsurvives⟩ := hread head " // d".toList hsplit hhead
  obtain rfl := List.singleton_inj.1 (hwritten.symm.trans hown)
  exact ⟨hhead, hbody head (by decide +kernel), hsurvives.not.2 (by decide +kernel)⟩

/-- What stands behind the head of a line is dropped: the configuration of a module, a comment behind
    a font face, a comment behind the parameters of a mixin. -/
theorem readDetached_drops_behind :
    let uri : Uri := ⟨"file".toList, none, "/a.sass".toList, none, none⟩
    let written (t : String) : Text := Tree.render {} (readDetached uri {} t.toList).body
    Line.kindOutsideComment "@use 'x' with ($a: 1)".toList = .useModule ∧
      written "@use 'x' with ($a: 1)" = "@use 'x'".toList ∧
      (written "@use 'x' with ($a: 1)").has "with".toList = false ∧
      written "@font-face // c" = "@font-face".toList ∧
      written "@mixin m($a) // c" = "@mixin m($a)".toList := by
  decide +kernel

end IndentedSass
