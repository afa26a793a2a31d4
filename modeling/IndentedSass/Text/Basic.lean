/-
  Source text, character by character.

  A text is the list of its Unicode scalar values, so that every function on it
  is a recursion on a list.  Byte offsets (UTF-8) are a measure on texts, not a
  second representation.

  * `size` counts the bytes of a text, `takeBytes` and `dropBytes` cut it at a
    byte offset;
  * `splitOn` and `lines` cut a text at a separator (`lines_ne_nil`: there is
    always at least one line), `dropReturn` drops the one `\r` that may stand
    before a line break;
  * `dropPrefix?` and `after?` look for a fixed text at the start or anywhere.
-/
namespace IndentedSass

/-- A stretch of source text, one character at a time. -/
abbrev Text := List Char

namespace Text

/-! ## Bytes -/

/-- The number of bytes of a text in UTF-8. -/
def size : Text → Nat
  | [] => 0
  | c :: cs => c.utf8Size + size cs

@[simp] theorem size_nil : size [] = 0 := rfl

@[simp] theorem size_cons (c : Char) (cs : Text) : size (c :: cs) = c.utf8Size + size cs := rfl

@[simp] theorem size_append (s t : Text) : size (s ++ t) = size s + size t := by
  induction s with
  | nil => simp
  | cons c s ih => simp [ih, Nat.add_assoc]

/-- The longest beginning of a text that has at most `n` bytes. -/
def takeBytes (n : Nat) : Text → Text
  | [] => []
  | c :: cs => if c.utf8Size ≤ n then c :: takeBytes (n - c.utf8Size) cs else []

/-- What `takeBytes` leaves. -/
def dropBytes (n : Nat) : Text → Text
  | [] => []
  | c :: cs => if c.utf8Size ≤ n then dropBytes (n - c.utf8Size) cs else c :: cs

theorem takeBytes_append_dropBytes (n : Nat) (t : Text) : takeBytes n t ++ dropBytes n t = t := by
  induction t generalizing n with
  | nil => rfl
  | cons c cs ih =>
    by_cases h : c.utf8Size ≤ n <;> simp [takeBytes, dropBytes, h, ih]

/-! ## Separators and lines -/

/-- The pieces of a text between the characters `sep`. -/
def splitOn (sep : Char) : Text → List Text
  | [] => [[]]
  | c :: cs =>
    if c = sep then [] :: splitOn sep cs
    else match splitOn sep cs with
      | [] => [[c]]
      | piece :: pieces => (c :: piece) :: pieces

theorem splitOn_ne_nil (sep : Char) (t : Text) : splitOn sep t ≠ [] := by
  cases t with
  | nil => simp [splitOn]
  | cons c cs =>
    simp only [splitOn]
    split
    · simp
    · split <;> simp

/-- The lines of a text, without their line feeds. -/
def lines (t : Text) : List Text := splitOn '\n' t

theorem lines_ne_nil (t : Text) : lines t ≠ [] := splitOn_ne_nil '\n' t

/-- Lines written one after the other, with a line feed between them. -/
def unlines (ls : List Text) : Text := List.intercalate ['\n'] ls

/-- A line without the carriage return that may end it (only one is dropped). -/
def dropReturn (t : Text) : Text := if t.getLast? = some '\r' then t.dropLast else t

/-! ## Searching -/

/-- What follows `p` when the text starts with `p`. -/
def dropPrefix? : (p t : Text) → Option Text
  | [], t => some t
  | _ :: _, [] => none
  | a :: p, c :: t => if a = c then dropPrefix? p t else none

theorem dropPrefix?_eq_some_iff {p t r : Text} : dropPrefix? p t = some r ↔ t = p ++ r := by
  induction p generalizing t with
  | nil => simp [dropPrefix?]
  | cons a p ih =>
    cases t with
    | nil => simp [dropPrefix?]
    | cons c t =>
      by_cases h : a = c
      · subst h; simp [dropPrefix?, ih]
      · simp only [dropPrefix?, if_neg h, List.cons_append, List.cons.injEq]
        exact ⟨fun h' => by simp at h', fun h' => absurd h'.1.symm h⟩

/-- Whether the text starts with `p`. -/
def startsWith (t p : Text) : Bool := (dropPrefix? p t).isSome

/-- What follows the first occurrence of `p` in the text. -/
def after? : (t p : Text) → Option Text
  | [], p => dropPrefix? p []
  | c :: cs, p =>
    match dropPrefix? p (c :: cs) with
    | some rest => some rest
    | none => after? cs p

/-- Whether `p` occurs in the text. -/
def has (t p : Text) : Bool := (after? t p).isSome

/-- The text without the copies of `a :: p` at its start, however many. -/
def dropCopies (a : Char) (p t : Text) : Text :=
  match _h : dropPrefix? (a :: p) t with
  | some rest => dropCopies a p rest
  | none => t
termination_by t.length
decreasing_by
  rw [dropPrefix?_eq_some_iff.1 _h]
  simp only [List.length_append, List.length_cons]
  omega

/-- The text without the characters satisfying `p` at its end. -/
def dropEnd (p : Char → Bool) (t : Text) : Text := (t.reverse.dropWhile p).reverse

/-- The text as a string. -/
def string (t : Text) : String := String.ofList t

end Text

end IndentedSass
