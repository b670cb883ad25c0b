/-!
# Comma-separated values

A record is a line of fields with commas between.  A field that holds a comma, a quote or a line
feed stands in quotes, and a quote in it is written twice.
-/

namespace FolioLedger.Csv

/-- Whether a field has to stand in quotes. -/
def needsQuotes (field : List Char) : Bool :=
  field.any (· ∈ [',', '"', '\n'])

/-- The characters of a field inside quotes. -/
def double : List Char → List Char
  | [] => []
  | c :: cs => if c = '"' then '"' :: '"' :: double cs else c :: double cs

/-- A field as it is written. -/
def encode (field : List Char) : List Char :=
  if needsQuotes field then '"' :: double field ++ ['"'] else field

/-- Fields with commas between. -/
def join : List (List Char) → List Char
  | [] => []
  | [field] => encode field
  | field :: fields => encode field ++ ',' :: join fields

/-- The line of a record, with its line feed. -/
def line (fields : List (List Char)) : List Char :=
  join fields ++ ['\n']

/-- The text of some records. -/
def render (records : List (List String)) : String :=
  String.ofList (records.flatMap fun fields => line (fields.map String.toList))

end FolioLedger.Csv
