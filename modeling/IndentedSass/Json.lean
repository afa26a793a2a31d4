/-
  JSON values.

  * `Json` is a JSON value; an object keeps the order of its fields;
  * `Json.get?` looks a field up, `Json.depth` is the nesting depth;
  * a `Record` is a view of an object, or of an array that lists the values of
    the fields in their order.
-/
namespace IndentedSass

/-- A JSON value. -/
inductive Json where
  /-- `null` -/
  | null
  /-- `true` or `false` -/
  | bool (b : Bool)
  /-- A whole number. -/
  | int (n : Int)
  /-- A number with a fraction: `mantissa / 10 ^ places`. -/
  | decimal (mantissa : Int) (places : Nat)
  /-- A string. -/
  | str (s : String)
  /-- An array. -/
  | arr (items : List Json)
  /-- An object. -/
  | obj (fields : List (String × Json))
  deriving Inhabited, Repr

namespace Json

/-- A natural number. -/
def nat (n : Nat) : Json := int n

/-- A value or `null`. -/
def ofOption {α : Type} (f : α → Json) : Option α → Json
  | some a => f a
  | none => null

/-- The field of an object. -/
def get? (name : String) : Json → Option Json
  | obj fields => fields.lookup name
  | _ => none

mutual

/-- How deeply arrays and objects are nested. -/
def depth : Json → Nat
  | arr items => depthOfItems items + 1
  | obj fields => depthOfFields fields + 1
  | null | bool _ | int _ | decimal _ _ | str _ => 0

/-- The greatest depth of the items of an array. -/
def depthOfItems : List Json → Nat
  | [] => 0
  | j :: js => max (depth j) (depthOfItems js)

/-- The greatest depth of the fields of an object. -/
def depthOfFields : List (String × Json) → Nat
  | [] => 0
  | (_, j) :: fields => max (depth j) (depthOfFields fields)

end

/-- A truth value. -/
def bool? : Json → Option Bool
  | bool b => some b
  | _ => none

/-- A 64-bit count. -/
def nat? : Json → Option Nat
  | int n => if 0 ≤ n ∧ n < UInt64.size then some n.toNat else none
  | _ => none

/-- A string. -/
def str? : Json → Option String
  | str s => some s
  | _ => none

/-- An array. -/
def items? : Json → Option (List Json)
  | arr items => some items
  | _ => none

end Json

/-- The fields of a structure, by name. -/
abbrev Record := String → Option Json

namespace Record

/-- A structure written as an object, or as an array of the values of its fields
    in their order, of which those of `optional` may be left out at the end. -/
def ofJson? (required optional : List String) : Json → Option Record
  | .obj fields => some fun name => fields.lookup name
  | .arr items =>
    if required.length ≤ items.length ∧ items.length ≤ required.length + optional.length then
      some fun name => ((required ++ optional).zip items).lookup name
    else none
  | _ => none

/-- A field that has to be there. -/
def field {α : Type} (r : Record) (name : String) (read : Json → Option α) : Option α :=
  (r name).bind read

/-- A field that may be missing or `null`. -/
def nullable {α : Type} (r : Record) (name : String) (read : Json → Option α) :
    Option (Option α) :=
  match r name with
  | none | some .null => some none
  | some j => (read j).map some

/-- A truth value that may be missing. -/
def flag (r : Record) (name : String) (default : Bool) : Option Bool :=
  match r name with
  | none => some default
  | some j => j.bool?

end Record

end IndentedSass
