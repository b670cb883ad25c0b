import FolioLedger.Store.Basic

/-!
# Voiding and binding

An available folio may be voided, with a reason.  A used folio may be bound to the document that
consumes it, once; binding it to the same document again changes nothing.
-/

namespace FolioLedger.Store

/-- Voids a folio.  Besides the folio it gives the number of folios of the series that can still
be handed out. -/
def void (s : Store) (now : Instant) (series : Series) (number : Nat) (reason : String) :
    Except Failure ((Folio × Nat) × Store) := do
  if isBlank reason then throw (.invalidRequest .missingVoidReason)
  checkNumber number
  let ms := now.toMillis
  let some row := s.folio? series number | throw (.notFound (.folio series number))
  if ¬ row.isAvailable then
    throw (.invalidTransition (.voiding series number row.state.status))
  let state := FolioState.void ms reason
  let folio ← { row with state := state }.toFolio
  let settled := (s.setFolio series number state).settle row.rangeId
  return ((folio, settled.countAvailable series ms), settled)

/-- Binds a used folio to a document. -/
def bind (s : Store) (series : Series) (number : Nat) (document : String) :
    Except Failure (Folio × Store) := do
  checkNumber number
  let some row := s.folio? series number | throw (.notFound (.folio series number))
  let folio ← row.toFolio
  match row.state with
  | .used since none =>
    return ({ folio with documentId := some document },
      s.setFolio series number (.used since (some document)))
  | .used _ (some bound) =>
    if bound = document then return (folio, s)
    else throw (.invalidTransition (.rebinding series number bound document))
  | state => throw (.invalidTransition (.binding series number state.status))

end FolioLedger.Store
