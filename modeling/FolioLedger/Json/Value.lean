/-!
# JSON values

The value type shared by the reader, the printer and the documents.  A string or a key is `none`
when its spelling denotes no text, such as half of a surrogate pair: such a string may stand where
nobody looks at it.
-/

namespace FolioLedger

/-- A JSON value.  `int` holds the numbers that fit a word of 64 bits, signed or not, and are
written without point and exponent; every other number is a `real`, of which only matters whether
it is finite as a double. -/
inductive Json where
  | null
  | bool (b : Bool)
  | int (n : Int)
  | real (finite : Bool)
  | string (text : Option String)
  | array (items : List Json)
  | object (members : List (Option String × Json))
deriving Repr, Inhabited

namespace Json

/-- A string value. -/
def str (s : String) : Json := .string (some s)

/-- A number without sign. -/
def nat (n : Nat) : Json := .int n

/-- An object with the given members. -/
def record (members : List (String × Json)) : Json :=
  .object (members.map fun (k, v) => (some k, v))

/-- The value, or null. -/
def optional {α : Type} (f : α → Json) : Option α → Json
  | none => .null
  | some a => f a

/-- The first member of an object with the given key. -/
def get? (key : String) : Json → Option Json
  | .object members => (members.find? fun m => m.1 = some key).map (·.2)
  | _ => none

/-- The text of a string value. -/
def text? : Json → Option String
  | .string t => t
  | _ => none

/-- A number that fits a word of 64 bits without sign. -/
def nat? : Json → Option Nat
  | .int n => if 0 ≤ n ∧ n < 18446744073709551616 then some n.toNat else none
  | _ => none

/-- A number that fits a signed word of 64 bits. -/
def int64? : Json → Option Int
  | .int n => if -9223372036854775808 ≤ n ∧ n < 9223372036854775808 then some n else none
  | _ => none

/-- The truth value of a boolean. -/
def bool? : Json → Option Bool
  | .bool b => some b
  | _ => none

/-- The items of an array. -/
def items? : Json → Option (List Json)
  | .array items => some items
  | _ => none

end Json

end FolioLedger
