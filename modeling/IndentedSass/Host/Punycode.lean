/-
  Labels in ASCII.

  A label of a host name with characters above ASCII is written in ASCII: first
  its ASCII characters, then, behind a hyphen, where the others are to be put in.
  They go in by increasing code point.  A state is a code point and a place in
  the label; each number counts the states from one insertion to the next, and is
  written with digits of a radix that follows the size of the numbers so far.

  * `Punycode.encode` writes a label, `Punycode.decode?` reads one;
  * `Punycode.writeNumber` and `Punycode.readNumber?` write and read one number;
    reading takes at least one digit (`readNumber?_length`).
-/
import IndentedSass.Text.Basic

namespace IndentedSass.Punycode

/-! ## Digits -/

/-- The number of digits. -/
def base : Nat := 36

/-- The digit with a value below 36. -/
def digit (n : Nat) : Char := Char.ofNat (if n < 26 then 97 + n else 22 + n)

/-- The value of a digit. -/
def digit? (c : Char) : Option Nat :=
  if 'a' ≤ c ∧ c ≤ 'z' then some (c.toNat - 97)
  else if 'A' ≤ c ∧ c ≤ 'Z' then some (c.toNat - 65)
  else if '0' ≤ c ∧ c ≤ '9' then some (c.toNat - 22)
  else none

/-- The value below which the digit at place `k` is the last of its number. -/
def threshold (k bias : Nat) : Nat := if k ≤ bias then 1 else min 26 (k - bias)

theorem threshold_pos (k bias : Nat) : 0 < threshold k bias := by
  unfold threshold
  split <;> omega

/-- The bias for numbers around `delta`, with `k` for the steps so far. -/
def biasFor (delta k : Nat) : Nat :=
  if 455 < delta then biasFor (delta / 35) (k + base) else k + base * delta / (delta + 38)
termination_by delta

/-- The bias after the number `delta` that put in the character number `count`. -/
def adapt (delta count : Nat) (isFirst : Bool) : Nat :=
  let delta := if isFirst then delta / 700 else delta / 2
  biasFor (delta + delta / count) 0

/-- The bias at the start. -/
def firstBias : Nat := 72

/-- The code point at the start. -/
def firstPoint : Nat := 128

/-! ## Writing -/

/-- The digits of a number from place `k` on. -/
def writeNumber (bias k n : Nat) : Text :=
  let t := threshold k bias
  if n < t then [digit n]
  else digit (t + (n - t) % (base - t)) :: writeNumber bias (k + base) ((n - t) / (base - t))
termination_by n
decreasing_by
  have hpos := threshold_pos k bias
  have hdiv := Nat.div_le_self (n - threshold k bias) (base - threshold k bias)
  omega

/-- A label that is partly written. -/
structure Writer where
  /-- What is written. -/
  out : Text
  /-- The states since the last insertion. -/
  delta : Nat
  /-- The bias for the next number. -/
  bias : Nat
  /-- How many characters of the label are written. -/
  count : Nat
  deriving DecidableEq, Repr

namespace Writer

/-- Goes over one character of the label, at a place where `point` could be put
    in. -/
def visit (basics point : Nat) (w : Writer) (c : Char) : Writer :=
  if c.toNat < point then { w with delta := w.delta + 1 }
  else if c.toNat = point then
    { out := w.out ++ writeNumber w.bias base w.delta
      delta := 0
      bias := adapt w.delta (w.count + 1) (w.count == basics)
      count := w.count + 1 }
  else w

/-- Writes where the characters go, whose code points are given in increasing
    order; `point` is the code point of the state reached. -/
def insertAll (label : Text) (basics : Nat) : Nat → List Nat → Writer → Writer
  | _, [], w => w
  | point, next :: rest, w =>
    let w := { w with delta := w.delta + (next - point) * (w.count + 1) }
    let w := label.foldl (visit basics next) w
    insertAll label basics (next + 1) rest { w with delta := w.delta + 1 }

end Writer

/-- Writes a label. -/
def encode (label : Text) : Text :=
  let basic := label.filter fun c => c.toNat < firstPoint
  let points := ((label.filter fun c => firstPoint ≤ c.toNat).map Char.toNat).mergeSort.eraseDups
  let start : Writer := { out := [], delta := 0, bias := firstBias, count := basic.length }
  basic ++ (if basic = [] then [] else ['-']) ++
    (Writer.insertAll label basic.length firstPoint points start).out

/-! ## Reading -/

/-- The number of different words, which bounds every number that is read. -/
def wordSize : Nat := UInt32.size

/-- Reads the digits of a number from place `k` on, each of which counts `weight`
    and is added to `n`; gives the sum and what follows. -/
def readNumber? (bias k weight n : Nat) : Text → Option (Nat × Text)
  | [] => none
  | c :: rest =>
    match digit? c with
    | none => none
    | some d =>
      let t := threshold k bias
      if wordSize ≤ n + d * weight then none
      else if d < t then some (n + d * weight, rest)
      else if wordSize ≤ weight * (base - t) then none
      else readNumber? bias (k + base) (weight * (base - t)) (n + d * weight) rest

theorem readNumber?_length {bias k weight n m : Nat} {t rest : Text}
    (h : readNumber? bias k weight n t = some (m, rest)) : rest.length < t.length := by
  induction t generalizing k weight n with
  | nil => simp [readNumber?] at h
  | cons c t ih =>
    rw [readNumber?] at h
    split at h
    · simp at h
    · dsimp only at h
      split at h
      · simp at h
      · split at h
        · simp only [Option.some.injEq, Prod.mk.injEq] at h
          simp [h.2]
        · split at h
          · simp at h
          · have := ih h
            simp only [List.length_cons]
            omega

/-- Puts the characters into the label that the rest of the digits tell of, from
    the state that is the code point `point` at the place `place`. -/
def insertRest (bias point place : Nat) (label : Text) (digits : Text) : Option Text :=
  if digits = [] then some label
  else match _h : readNumber? bias base 1 place digits with
    | none => none
    | some (state, rest) =>
      let count := label.length + 1
      let point := point + state / count
      if point.isValidChar then
        insertRest (adapt (state - place) count (place == 0)) point (state % count + 1)
          (label.insertIdx (state % count) (Char.ofNat point)) rest
      else none
termination_by digits.length
decreasing_by exact readNumber?_length _h

/-- Reads a label.  A hyphen that nothing stands before is no digit. -/
def decode? (t : Text) : Option Text :=
  let tail := (t.reverse.takeWhile (· ≠ '-')).reverse
  let basic := t.take (t.length - tail.length - 1)
  insertRest firstBias firstPoint 0 basic (if basic = [] then t else tail)

end IndentedSass.Punycode
