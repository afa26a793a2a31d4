/-
  Paths of files, and the URIs that they have.

  A path that was read, and every path that an import can mean, is made of names
  that lead somewhere and hold no slash (`Path.Clean`).

  * `Path.Clean.candidates`: so are the files that an import path can mean;
  * `Path.exists_code`: there are at most `256 ^ (n + 1)` such paths of at most `n`
    bytes, since each is one number;
  * `Uri.path?_ofPath`: the URI of such a path stands for the path.
-/
import Mathlib
import IndentedSass.Workspace.Import

namespace IndentedSass

namespace FileName

/-- A name that can stand on a path. -/
def Clean (n : FileName) : Prop := slash ∉ n ∧ n.isStay = false

theorem clean_of_mem_splitOn {bytes : List UInt8} {n : FileName} (h : n ∈ bytes.splitOn slash) :
    slash ∉ n := by
  induction bytes generalizing n with
  | nil => simp_all
  | cons b bytes ih =>
    rw [List.splitOn_cons_eq_if_modifyHead] at h
    split at h
    · rcases List.mem_cons.1 h with rfl | hrest
      · simp
      · exact ih hrest
    · rename_i hne
      cases hpieces : bytes.splitOn slash with
      | nil => simp [hpieces] at h
      | cons m rest =>
        rw [hpieces, List.modifyHead_cons] at h
        rcases List.mem_cons.1 h with rfl | hrest
        · have hm := ih (n := m) (by simp [hpieces])
          rw [List.mem_cons]
          rintro (heq | hmem)
          · exact hne (by simp [heq])
          · exact hm hmem
        · exact ih (by rw [hpieces]; exact List.mem_cons_of_mem _ hrest)

theorem Clean.asPartial {n : FileName} (h : n.Clean) : n.asPartial.Clean := by
  refine ⟨?_, ?_⟩
  · have hmark : slash ∉ ofString "_" := by decide
    simp [FileName.asPartial, hmark, h.1]
  · rfl

theorem Clean.withExtension {n e : FileName} (hn : slash ∉ n) (he : slash ∉ e) (hne : e ≠ []) :
    (n.withExtension e).Clean := by
  refine ⟨?_, ?_⟩
  · have hdot : slash ≠ dot := by decide
    simp [FileName.withExtension, hn, he, hdot]
  · cases n with
    | nil => cases e with
      | nil => exact absurd rfl hne
      | cons b e => simp [FileName.withExtension, isStay]
    | cons b n => simp [FileName.withExtension, isStay]

theorem clean_extensions {e : FileName} (h : e ∈ importExtensions) : slash ∉ e ∧ e ≠ [] := by
  have hall : ∀ e ∈ importExtensions, slash ∉ e ∧ e ≠ [] := by decide
  exact hall e h

end FileName

namespace Path

variable {p : Path}

/-- The names of a path lead somewhere and hold no slash. -/
def Clean (p : Path) : Prop := ∀ n ∈ p.names, n.Clean

theorem clean_ofBytes (bytes : List UInt8) : (ofBytes bytes).Clean := by
  intro n hn
  obtain ⟨hpiece, hstay⟩ := List.mem_filter.1 hn
  exact ⟨FileName.clean_of_mem_splitOn hpiece, by simpa using hstay⟩

theorem Clean.join (h : p.Clean) (t : Text) : (p.join t).Clean := by
  have hq := clean_ofBytes t.utf8
  unfold Path.join
  dsimp only
  split
  · exact hq
  · intro n hn
    rcases List.mem_append.1 hn with hp | hn
    · exact h n hp
    · exact hq n hn

theorem Clean.parent {q : Path} (h : p.Clean) (hq : p.parent? = some q) : q.Clean := by
  unfold parent? at hq
  split at hq
  · cases hq
  · cases hq
    exact fun n hn => h n (List.mem_of_mem_dropLast hn)

theorem Clean.withFileName (h : p.Clean) {n : FileName} (hn : n.Clean) :
    (p.withFileName n).Clean := by
  intro m hm
  rcases List.mem_append.1 hm with hp | hm
  · exact h m (List.mem_of_mem_dropLast hp)
  · rw [List.mem_singleton.1 hm]
    exact hn

theorem Clean.child (h : p.Clean) {n : FileName} (hn : n.Clean) : (p.child n).Clean := by
  intro m hm
  rcases List.mem_append.1 hm with hp | hm
  · exact h m hp
  · rw [List.mem_singleton.1 hm]
    exact hn

/-- An import path means files under clean names. -/
theorem Clean.candidates (h : p.Clean) {q : Path} (hq : q ∈ p.candidates) : q.Clean := by
  unfold Path.candidates at hq
  split at hq
  · cases hq
  · rename_i n hname
    have hn : n.Clean :=
      h n (List.mem_of_getLast? (Option.filter_eq_some_iff.1 hname).1)
    split at hq
    · cases hq
    split at hq
    · simp only [List.mem_cons, List.not_mem_nil, or_false] at hq
      rcases hq with rfl | rfl
      · exact h
      · exact h.withFileName hn.asPartial
    · simp only [List.mem_append, List.mem_flatMap, List.mem_cons, List.not_mem_nil, or_false] at hq
      rcases hq with ⟨e, he, rfl | rfl⟩ | ⟨e, he, rfl | rfl⟩
      all_goals obtain ⟨hslash, hne⟩ := FileName.clean_extensions he
      · exact h.withFileName (.withExtension hn.1 hslash hne)
      · exact h.withFileName (.withExtension hn.asPartial.1 hslash hne)
      · exact h.child (FileName.Clean.asPartial (.withExtension (by decide) hslash hne))
      · exact h.child (.withExtension (by decide) hslash hne)

/-! ## Paths as bytes -/

/-- A path as it is written. -/
def bytes (p : Path) : List UInt8 := p.names.flatMap fun n => FileName.slash :: n

theorem length_bytes (p : Path) : p.bytes.length = p.size := by
  unfold bytes size
  induction p.names with
  | nil => rfl
  | cons n names ih =>
    rw [List.flatMap_cons, List.length_append, ih, List.length_cons, List.foldr_cons]

theorem Clean.splitOn_bytes (h : p.Clean) : p.bytes.splitOn FileName.slash = [] :: p.names := by
  have key : ∀ names : List FileName, names.flatMap (fun n => FileName.slash :: n) =
      [FileName.slash].intercalate ([] :: names) := by
    intro names
    induction names with
    | nil => rfl
    | cons n names ih =>
      rw [List.flatMap_cons, ih]
      cases names <;> simp [List.intercalate]
  rw [bytes, key]
  refine List.splitOn_intercalate _ (fun n hn => ?_) (by simp)
  rcases List.mem_cons.1 hn with rfl | hn
  · simp
  · exact (h n hn).1

/-- The names that a number stands for: its digits to the base 256 are the bytes
    of the path, behind a last digit that marks the end. -/
def decodeNames (k : Nat) : List FileName :=
  (((Nat.digits 256 k).dropLast.map UInt8.ofNat).splitOn FileName.slash).tail

theorem Clean.exists_code (h : p.Clean) : ∃ k < 256 ^ (p.size + 1), decodeNames k = p.names := by
  have hlt : ∀ d ∈ p.bytes.map UInt8.toNat ++ [1], d < 256 := by
    intro d hd
    rcases List.mem_append.1 hd with hd | hd
    · obtain ⟨b, -, rfl⟩ := List.mem_map.1 hd
      exact b.toNat_lt
    · rw [List.mem_singleton.1 hd]
      norm_num
  have hlen : (p.bytes.map UInt8.toNat ++ [1]).length = p.size + 1 := by
    simp [length_bytes]
  refine ⟨Nat.ofDigits 256 (p.bytes.map UInt8.toNat ++ [1]), ?_, ?_⟩
  · rw [← hlen]
    exact Nat.ofDigits_lt_base_pow_length (by norm_num) hlt
  · have hdigits := Nat.digits_ofDigits 256 (by norm_num) _ hlt fun _ => by simp
    rw [decodeNames, hdigits, List.dropLast_concat, List.map_map]
    have hid : UInt8.ofNat ∘ UInt8.toNat = id := by
      funext b
      simp
    rw [hid, List.map_id, h.splitOn_bytes, List.tail_cons]

end Path

/-! ## Percent forms -/

namespace Percent

theorem decode_kept {c : Char} (hc : c ≠ '%') (t : Text) :
    decode (c :: t) = Text.utf8 [c] ++ decode t := by
  rw [decode]
  rintro a b rest ⟨⟩
  exact absurd rfl hc

theorem decode_byte (b : UInt8) (t : Text) : decode (byte b ++ t) = b :: decode t := by
  have hdigits : ∀ n : Nat, n < 16 → Radix.digit? 16 (digit n) = some n := by decide
  have hb := b.toNat_lt
  simp only [byte, List.cons_append, List.nil_append, decode]
  rw [hdigits _ (by omega), hdigits _ (by omega)]
  simp only [List.cons.injEq, and_true]
  rw [show 16 * (b.toNat / 16) + b.toNat % 16 = b.toNat by omega]
  simp

/-- An ASCII byte is its own UTF-8 form. -/
theorem utf8_ascii {b : UInt8} (hb : b < 0x80) : Text.utf8 [Char.ofNat b.toNat] = [b] := by
  have hall : ∀ b : UInt8, b < 0x80 → Text.utf8 [Char.ofNat b.toNat] = [b] := by decide +kernel
  exact hall b hb

theorem decode_encodeBytes {keep : Char → Bool} (hkeep : keep '%' = false) (bytes : List UInt8)
    (t : Text) : decode (encodeBytes keep bytes ++ t) = bytes ++ decode t := by
  induction bytes with
  | nil => rfl
  | cons b bytes ih =>
    simp only [encodeBytes, List.flatMap_cons, List.append_assoc] at ih ⊢
    split
    · rename_i hb
      simp only [Bool.and_eq_true, decide_eq_true_eq] at hb
      have hne : Char.ofNat b.toNat ≠ '%' := by
        intro heq
        rw [heq, hkeep] at hb
        exact absurd hb.2 (by decide)
      rw [List.singleton_append, decode_kept hne, utf8_ascii hb.1, ih]
      rfl
    · rw [decode_byte, ih]
      rfl

end Percent

namespace Uri

variable {p : Path}

theorem decode_ofPath (hne : p.names ≠ []) : Percent.decode (ofPath p).path = p.bytes := by
  have hslash : Text.utf8 ['/'] = [FileName.slash] := by decide
  have key : ∀ names : List FileName,
      Percent.decode (names.flatMap fun n => '/' :: Percent.encodeBytes isFileNameChar n) =
        names.flatMap fun n => FileName.slash :: n := by
    intro names
    induction names with
    | nil => rfl
    | cons n names ih =>
      rw [List.flatMap_cons, List.cons_append, Percent.decode_kept (by decide), hslash,
        Percent.decode_encodeBytes (by decide), ih]
      rfl
  simp only [ofPath, hne, if_false]
  exact key p.names

/-- The URI of a path stands for the path. -/
theorem path?_ofPath (h : p.Clean) (hne : p.names ≠ []) :
    ∃ q, (ofPath p).path? = some q ∧ q.names = p.names := by
  have hhead : (ofPath p).path.head? = some '/' := by
    cases hp : p.names with
    | nil => exact absurd hp hne
    | cons n names => simp [ofPath, hp]
  have hnames : ∀ pieces : List FileName, pieces = [] :: p.names ∨ pieces = [] :: p.names ++ [[]] →
      pieces.filter (fun n => !n.isStay) = p.names := by
    have hself : p.names.filter (fun n => !n.isStay) = p.names :=
      List.filter_eq_self.2 fun n hn => by simp [(h n hn).2]
    rintro pieces (rfl | rfl)
    · simpa [FileName.isStay] using hself
    · simpa [FileName.isStay, List.filter_append] using hself
  have hhost : ["", "localhost"].contains (ofPath p).host.string = true := by
    show ["", "localhost"].contains (Text.string []) = true
    decide
  have hbytes : ∃ bytes, (ofPath p).pathBytes? = some bytes ∧
      (bytes = p.bytes ∨ bytes = p.bytes ++ [FileName.slash]) := by
    simp only [pathBytes?, hhead, hhost, decode_ofPath hne, decide_true, Bool.and_self, if_true]
    exact ⟨_, rfl, (ite_eq_or_eq _ _ _).symm⟩
  obtain ⟨bytes, hsome, hwritten⟩ := hbytes
  refine ⟨.ofBytes bytes, by rw [path?, hsome]; rfl, hnames _ ?_⟩
  rcases hwritten with rfl | rfl
  · exact .inl h.splitOn_bytes
  · exact .inr (by rw [List.splitOn_append_cons_self, h.splitOn_bytes, List.splitOn_nil])

end Uri

end IndentedSass
