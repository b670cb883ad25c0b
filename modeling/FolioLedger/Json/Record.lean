import FolioLedger.Json.Value
import FolioLedger.Time.Printer
import FolioLedger.Time.Reader

/-!
# Records in JSON

How a record with named fields is read: from an object in any order, without repeating a field,
or from an array of the fields in their order.  Fields that are not asked for are passed over.
A field that may be absent may also be null.
-/

namespace FolioLedger.Json

/-- The members of an object under the given names, in the order of the names; none if a key
denotes no text or a name occurs twice. -/
def membersAt? (names : List String) (members : List (Option String × Json)) :
    Option (List (Option Json)) :=
  if members.any (·.1.isNone) then none
  else names.mapM fun name =>
    match members.filter (·.1 = some name) with
    | [] => some none
    | [m] => some (some m.2)
    | _ => none

/-- The fields of a record: of an object by name, of an array by place.  Absent fields are
`none`. -/
def fields? (names : List String) : Json → Option (List (Option Json))
  | .object members => membersAt? names members
  | .array items =>
    if items.length ≤ names.length then
      some (items.map some ++ List.replicate (names.length - items.length) none)
    else none
  | _ => none

/-- A field that has to be there. -/
def needed {α : Type} (read : Json → Option α) (field : Option Json) : Option α :=
  field.bind read

/-- A field that may be absent or null. -/
def lenient {α : Type} (read : Json → Option α) : Option Json → Option (Option α)
  | none => some none
  | some .null => some none
  | some j => (read j).map some

/-- A field that has a default value. -/
def withDefault {α : Type} (default : α) (read : Json → Option α) : Option Json → Option α
  | none => some default
  | some j => read j

/-- A timestamp. -/
def instant? (j : Json) : Option Instant :=
  j.text?.bind Instant.read?

/-- A timestamp as a value. -/
def ofInstant (t : Instant) : Json :=
  .str t.render

/-- A plain word of a list of words, also in the form of an object whose one member, null, has
it as its key. -/
def word? {α : Type} (read : String → Option α) : Json → Option α
  | .string t => t.bind read
  | .object [(some key, .null)] => read key
  | _ => none

end FolioLedger.Json
