/-!
# Cells of a table

A text filled up with spaces to a width in characters.  A text that is longer stays as it is.
-/

namespace FolioLedger.Cell

/-- Spaces for what a text lacks. -/
def fill (width : Nat) (s : String) : String :=
  String.ofList (List.replicate (width - s.length) ' ')

/-- The text at the left of its cell. -/
def left (width : Nat) (s : String) : String :=
  s ++ fill width s

/-- The text at the right of its cell. -/
def right (width : Nat) (s : String) : String :=
  fill width s ++ s

end FolioLedger.Cell
