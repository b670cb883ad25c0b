import FolioLedger.Text.Blank

/-!
# Series

An issuer and a document type.  Folio numbers are handed out per series, and nothing that happens
in one series touches another.
-/

namespace FolioLedger

/-- An issuer and the type of its documents: the unit over which folios are numbered. -/
structure Series where
  issuer : String
  docType : String
deriving DecidableEq, Repr, Inhabited

namespace Series

/-- The name of a series in messages. -/
def label (s : Series) : String :=
  s.issuer ++ "/" ++ s.docType

/-- Whether the issuer or the document type is blank. -/
def isIncomplete (s : Series) : Bool :=
  isBlank s.issuer || isBlank s.docType

/-- Series are listed by issuer, then by document type. -/
def precedes (a b : Series) : Bool :=
  a.issuer < b.issuer || (a.issuer == b.issuer && a.docType ≤ b.docType)

end Series

end FolioLedger
