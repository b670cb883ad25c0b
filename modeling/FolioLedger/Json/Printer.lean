import FolioLedger.Json.Value
import FolioLedger.Text.Numeral

/-!
# Printing JSON

The compact form, and the indented form of documents: two spaces a level, one member or item a
line, empty ones closed at once.  Only quotes, backslashes and control characters are escaped.
-/

namespace FolioLedger.Json

/-- The spelling of a character inside a string. -/
def escapeChar (c : Char) : List Char :=
  if c = '"' then ['\\', '"']
  else if c = '\\' then ['\\', '\\']
  else if c = '\n' then ['\\', 'n']
  else if c = '\r' then ['\\', 'r']
  else if c = '\t' then ['\\', 't']
  else if c.toNat = 8 then ['\\', 'b']
  else if c.toNat = 12 then ['\\', 'f']
  else if c.toNat < 32 then
    ['\\', 'u', '0', '0', Nat.digitChar (c.toNat / 16), Nat.digitChar (c.toNat % 16)]
  else [c]

/-- A text in quotes. -/
def quote (s : String) : String :=
  String.ofList ('"' :: s.toList.flatMap escapeChar ++ ['"'])

/-- The spelling of a string value or key; one that denotes no text is a lone surrogate. -/
def quoteText : Option String → String
  | some s => quote s
  | none => "\"\\udc00\""

/-- The spelling of a value without members and items. -/
def printScalar : Json → String
  | .null => "null"
  | .bool true => "true"
  | .bool false => "false"
  | .int n => Numeral.signed n
  | .real true => "0.5"
  | .real false => "1e999"
  | .string t => quoteText t
  | .array _ => "[]"
  | .object _ => "\x7b\x7d"

mutual

/-- The form without white space. -/
def compact : Json → String
  | .array (item :: items) => "[" ++ compact item ++ compactItems items
  | .object ((key, value) :: members) =>
    "\x7b" ++ quoteText key ++ ":" ++ compact value ++ compactMembers members
  | scalar => printScalar scalar

/-- The items after the first, and the closing bracket. -/
def compactItems : List Json → String
  | [] => "]"
  | item :: items => "," ++ compact item ++ compactItems items

/-- The members after the first, and the closing brace. -/
def compactMembers : List (Option String × Json) → String
  | [] => "\x7d"
  | (key, value) :: members =>
    "," ++ quoteText key ++ ":" ++ compact value ++ compactMembers members

end

/-- A line break and the indent of a level. -/
def newline (level : Nat) : String :=
  String.ofList ('\n' :: List.replicate (2 * level) ' ')

mutual

/-- The indented form, for a value that stands at the given level. -/
def indented (level : Nat) : Json → String
  | .array (item :: items) =>
    "[" ++ newline (level + 1) ++ indented (level + 1) item ++ indentedItems level items
  | .object ((key, value) :: members) =>
    "\x7b" ++ newline (level + 1) ++ quoteText key ++ ": " ++ indented (level + 1) value ++
      indentedMembers level members
  | scalar => printScalar scalar

/-- The items after the first, and the closing bracket. -/
def indentedItems (level : Nat) : List Json → String
  | [] => newline level ++ "]"
  | item :: items =>
    "," ++ newline (level + 1) ++ indented (level + 1) item ++ indentedItems level items

/-- The members after the first, and the closing brace. -/
def indentedMembers (level : Nat) : List (Option String × Json) → String
  | [] => newline level ++ "\x7d"
  | (key, value) :: members =>
    "," ++ newline (level + 1) ++ quoteText key ++ ": " ++ indented (level + 1) value ++
      indentedMembers level members

end

/-- The indented form of a document. -/
def pretty (j : Json) : String :=
  indented 0 j

end FolioLedger.Json
