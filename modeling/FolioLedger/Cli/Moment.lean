import FolioLedger.Time.Reader

/-!
# Moments on the command line

A moment is a timestamp in the strict form, or a plain date.  A date stands for the first
millisecond of its day where a period begins, and for the last one where a period ends, so that
the days of consecutive dates follow each other without a gap.
-/

namespace FolioLedger.Cli

/-- The edge of a period that a moment marks. -/
inductive Edge where
  | start
  | stop
deriving DecidableEq

/-- The first or the last millisecond of a day. -/
def dayEdge? (d : Date) : Edge → Option Instant
  | .start => Instant.ofDate? d 0 0
  | .stop => Instant.ofDate? d 86399 999000000

/-- The moment that a text stands for. -/
def readMoment? (edge : Edge) (text : String) : Option Instant :=
  match Instant.readStrict? text with
  | some t => some t
  | none => (Date.read? text).bind (dayEdge? · edge)

end FolioLedger.Cli
