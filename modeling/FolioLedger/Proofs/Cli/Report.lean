import FolioLedger.Cli.Wording
import FolioLedger.Proofs.Ledger.Numbering
import FolioLedger.Proofs.Text.Csv
import FolioLedger.Proofs.Time.Reader

/-!
# Reports as tables

A usage report is written as a table for other programs: the names of the columns, then a record for each
folio, in the order of the report.  A reader gets these records back, each of eight cells that tell what
the report says of the folio (`Cli.Tells`), up to the last cell.  That is the reason of a voided folio, in
words of whoever voided it; a carriage return at its end is taken for a part of the line's end unless
something else in it asks for quotes.  `Cli.usage_table_read_back_iff` says exactly when all is read back.
-/

namespace FolioLedger.Cli

/-- The cells of a record tell of a folio, with the given reason for voiding it: its number in digits, and
when it was used or voided as a timestamp.  What is absent is empty. -/
def Tells (f : Folio) (reason : String) (cells : List String) : Prop :=
  ∃ digits moment, cells = [f.series.issuer, f.series.docType, digits, f.status.word, f.rangeId, moment,
      f.documentId.getD "", reason] ∧
    Numeral.ofDigits? digits.toList = some f.number ∧
    (f.usedAt.or f.voidedAt = none → moment = "") ∧
    ∀ t, f.usedAt.or f.voidedAt = some t → Instant.read? moment = some t

/-- Why a folio was voided, empty if it was not. -/
def reasonOf (f : Folio) : String := f.voidReason.getD ""

/-- What a reader gets of the reason, which is the last cell of its record. -/
def reasonRead (f : Folio) : String := String.ofList (Csv.kept (reasonOf f).toList)

/-- What a reader gets of the record of a folio. -/
def cellsRead (f : Folio) : List String := (usageFields f).dropLast ++ [reasonRead f]

theorem reasonRead_eq_iff {f : Folio} :
    reasonRead f = reasonOf f ↔ ¬ Csv.LosesReturn (reasonOf f).toList := by
  rw [← Csv.kept_eq_self_iff, ← String.toList_inj, reasonRead, String.toList_ofList]

theorem tells_cellsRead (f : Folio) : Tells f (reasonRead f) (cellsRead f) := by
  refine ⟨number f.number, _, rfl, Numeral.ofDigits?_padded 1 f.number, fun hnone => ?_, fun t ht => ?_⟩
  · rw [hnone]
    rfl
  · rw [ht]
    exact t.read?_renderOffset

theorem tells_reason {f : Folio} {reason : String} (h : Tells f reason (cellsRead f)) :
    reason = reasonRead f := by
  obtain ⟨digits, moment, hcells, -⟩ := h
  have hlast := congrArg List.getLast? hcells
  exact (Option.some.inj hlast).symm

/-- The table of a report is read as its columns and a record for each folio. -/
theorem parse?_usageCsv (r : UsageReport) :
    Csv.parse? (usageCsv r) = some (usageColumns :: r.folios.map cellsRead) := by
  have hrecord : ∀ f ∈ r.folios,
      (Csv.keptFields ((usageFields f).map String.toList)).map String.ofList = cellsRead f := by
    intro f _
    have hsplit : (usageFields f).map String.toList =
        (usageFields f).dropLast.map String.toList ++ [(reasonOf f).toList] := rfl
    rw [hsplit, Csv.keptFields_append_last, List.map_append, List.map_map]
    have hsame : (String.ofList ∘ String.toList) = id := funext fun s => String.ofList_toList
    rw [hsame, List.map_id]
    rfl
  have hcolumns : (Csv.keptFields (usageColumns.map String.toList)).map String.ofList = usageColumns := by
    decide
  unfold usageCsv
  rw [Csv.parse?_render, List.map_cons, hcolumns, List.map_map]
  · exact congrArg some (congrArg (usageColumns :: ·) (List.map_congr_left hrecord))
  · intro fields hfields
    rcases List.mem_cons.1 hfields with rfl | hfields
    · nofun
    · obtain ⟨f, -, rfl⟩ := List.mem_map.1 hfields
      nofun

/-- A reader gets the names of the columns and exactly one record for each folio, which tells of it up to
the end of its reason; and all records tell the reasons, too, exactly if none of them ends in a carriage
return without a comma, a quote or a line feed in it. -/
theorem usage_table_read_back_iff (r : UsageReport) :
    ∃ records, Csv.parse? (usageCsv r) = some (["issuer", "doc_type", "number", "status", "range_id", "at",
        "document_id", "void_reason"] :: records) ∧
      List.Forall₂ (fun f cells => Tells f (reasonRead f) cells) r.folios records ∧
      (List.Forall₂ (fun f cells => Tells f (f.voidReason.getD "") cells) r.folios records ↔
        ∀ f ∈ r.folios, ¬ Csv.LosesReturn (f.voidReason.getD "").toList) := by
  refine ⟨r.folios.map cellsRead, parse?_usageCsv r, ?_, ?_⟩
  · rw [List.forall₂_map_right_iff, List.forall₂_same]
    exact fun f _ => tells_cellsRead f
  · rw [List.forall₂_map_right_iff, List.forall₂_same]
    refine forall₂_congr fun f _ => ?_
    rw [← reasonOf, ← reasonRead_eq_iff]
    constructor
    · exact fun htells => (tells_reason htells).symm
    · intro hsame
      rw [← hsame]
      exact tells_cellsRead f

/-- Of two folios one is voided, for a reason that ends in a carriage return. -/
def jammed : List Event :=
  [⟨Store.earlyAt 0, .register 10 none "R1"
      ⟨⟨"A", "T"⟩, 1, 2, Store.earlyAt 0, Store.earlyAt 50, none, none⟩⟩,
   ⟨Store.earlyAt 10, .void ⟨false, none⟩ ⟨"A", "T"⟩ 1 "jam\r"⟩]

/-- The report tells the reason as it was given, and who reads its table gets it without the carriage
return. -/
theorem reason_read_short :
    ∃ r,
      (Store.empty.run jammed).usageReport ⟨"A", "T"⟩ (Store.earlyAt 0) (Store.earlyAt 30) = .ok r ∧
      r.folios.map (·.voidReason) = [some "jam\r"] ∧
      ∃ records, Csv.parse? (usageCsv r) = some (usageColumns :: records) ∧
        records.map List.getLast? = [some "jam"] ∧
        ¬ List.Forall₂ (fun f cells => Tells f (f.voidReason.getD "") cells) r.folios records := by
  have hfolios : (Store.empty.run jammed).changedFolios ⟨"A", "T"⟩ (Store.earlyAt 0).toMillis
      (Store.earlyAt 30).toMillis = [⟨⟨"A", "T"⟩, 1, "R1", .void 10000 "jam\r"⟩] :=
    List.mergeSort_singleton _
  have hranges : (Store.empty.run jammed).activeRanges ⟨"A", "T"⟩ = (Store.empty.run jammed).ranges :=
    List.mergeSort_singleton _
  have horder : ¬ Store.earlyAt 30 < Store.earlyAt 0 := by decide
  unfold Store.usageReport
  rw [if_neg horder, hfolios, hranges]
  refine ⟨_, rfl, rfl, _, parse?_usageCsv _, by decide, fun htells => ?_⟩
  rw [List.forall₂_map_right_iff, List.forall₂_same] at htells
  have hreason := tells_reason (htells _ List.mem_cons_self)
  revert hreason
  decide

end FolioLedger.Cli
