/-!
# YAML nodes

What a YAML document says, before anybody asks for a type.  Of a scalar only matters, besides its
text, whether it is plain, that is, without quotes and not a block.
-/

namespace FolioLedger

/-- A node of a YAML document. -/
inductive Yaml where
  | scalar (plain : Bool) (text : String)
  | sequence (items : List Yaml)
  | mapping (members : List (Yaml × Yaml))
deriving Inhabited

namespace Yaml

/-- What stands where nothing is written. -/
def absent : Yaml := .scalar true ""

/-- Whether nothing is written. -/
def isAbsent : Yaml → Bool
  | .scalar true "" => true
  | _ => false

end Yaml

end FolioLedger
