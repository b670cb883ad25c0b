import FolioLedger.Document.Alert
import FolioLedger.Document.Artifact
import FolioLedger.Document.Folio
import FolioLedger.Document.Range
import FolioLedger.Document.Request
import FolioLedger.Proofs.Json.Record

/-!
# Documents are read back

A `Format` is how the values of a type are written as JSON and read.  Six formats hold whatever fits
the words of 64 bits that numbers are kept in (`Format.Exact`): all that is written is read back, and
all that is read, from an object or an array, with fields in any order, absent or unknown, can be
written and read back again (`documents_read_back`).
-/

namespace FolioLedger

/-- How the values of a type are written and read, and which of them a document can hold. -/
structure Format (α : Type) where
  toJson : α → Json
  ofJson? : Json → Option α
  Holds : α → Prop

namespace Format

variable {α : Type} (f : Format α)

/-- The value that a text denotes. -/
def read? (text : String) : Option α := (Json.parse? text.toList).bind f.ofJson?

/-- What is written of a value, in either form, is read as this value. -/
def Returns (a : α) : Prop :=
  f.read? (f.toJson a).compact = some a ∧ f.read? (f.toJson a).pretty = some a

/-- What is written of a value that a document can hold is read back, and so is what is written of
whatever was read of a text. -/
structure ReadsBack : Prop where
  written : ∀ a, f.Holds a → f.Returns a
  read : ∀ text a, f.read? text = some a → f.Returns a

/-- What a format owes: numbers are written in words, values are read of what is written, and only
what can be held is read. -/
structure Exact : Prop where
  fits : ∀ a, f.Holds a → (f.toJson a).Fits
  ofJson?_toJson : ∀ a, f.Holds a → f.ofJson? (f.toJson a) = some a
  holds : ∀ j a, f.ofJson? j = some a → f.Holds a

theorem Exact.readsBack {f : Format α} (h : f.Exact) : f.ReadsBack := by
  have hreturns : ∀ a, f.Holds a → f.Returns a := by
    intro a ha
    have hvalue := h.ofJson?_toJson a ha
    constructor
    · rw [read?, Json.parse?_compact (h.fits a ha), Option.bind_some, hvalue]
    · rw [read?, Json.parse?_pretty (h.fits a ha), Option.bind_some, hvalue]
  refine ⟨hreturns, fun text a hread => ?_⟩
  obtain ⟨j, -, hj⟩ := Option.bind_eq_some_iff.1 hread
  exact hreturns a (h.holds j a hj)

end Format

/-! ## Words for states -/

theorem RangeStatus.ofWord?_word (st : RangeStatus) : ofWord? st.word = some st := by
  cases st <;> rfl

theorem FolioStatus.ofWord?_word (st : FolioStatus) : ofWord? st.word = some st := by
  cases st <;> rfl

theorem RequestStatus.ofWord?_word (st : RequestStatus) : ofWord? st.word = some st := by
  cases st <;> rfl

/-! ## Ranges, folios and requests -/

def RangeRecord.format : Format Range where
  toJson := toJson
  ofJson? := ofJson?
  Holds r := r.first < 18446744073709551616 ∧ r.last < 18446744073709551616

def Folio.format : Format Folio where
  toJson := toJson
  ofJson? := ofJson?
  Holds f := f.number < 18446744073709551616

def ReplenishmentRequest.format : Format ReplenishmentRequest where
  toJson := toJson
  ofJson? := ofJson?
  Holds r := r.first < 18446744073709551616 ∧ r.last < 18446744073709551616

def RangeRequest.format : Format RangeRequest where
  toJson := toJson
  ofJson? := ofJson?
  Holds r := r.first < 18446744073709551616 ∧ r.last < 18446744073709551616

def Artifact.format : Format Artifact where
  toJson := toJson
  ofJson? := ofJson?
  Holds a := a.first < 18446744073709551616 ∧ a.last < 18446744073709551616

theorem RangeRecord.exact_format : RangeRecord.format.Exact where
  fits r hr := by
    show Json.Fits r.toJson
    rw [toJson, Json.fits_record]
    simp -implicitDefEqProofs only [List.forall_mem_cons, List.not_mem_nil, false_imp_iff,
      implies_true, and_true, Json.fits_str, Json.fits_nat hr.1, Json.fits_nat hr.2,
      Json.fits_ofInstant, Json.fits_optional Json.fits_str,
      Json.fits_optional Json.fits_ofInstant]
  ofJson?_toJson r hr := by
    show ofJson? r.toJson = some r
    rw [toJson, ofJson?, Json.fields?_record_of_names]
    · simp -implicitDefEqProofs only [List.map_cons, List.map_nil, Json.needed_str,
        Json.needed_nat hr.1, Json.needed_nat hr.2, Json.needed_ofInstant, Json.lenient_str,
        Json.lenient_ofInstant, Json.needed_word RangeStatus.ofWord?_word, Option.bind_eq_bind,
        Option.bind_some]
    · rfl
    · simp
  holds j r h := by
    change ofJson? j = some r at h
    unfold ofJson? at h
    obtain ⟨fields, -, h⟩ := Option.bind_eq_some_iff.1 h
    split at h
    · simp -implicitDefEqProofs only [Option.bind_eq_bind, Option.bind_eq_some_iff,
        Option.some.injEq] at h
      obtain ⟨_, -, _, -, _, -, first, hfirst, last, hlast, _, -, _, -, _, -, _, -, _, -, _, -,
        _, -, rfl⟩ := h
      exact ⟨Json.lt_of_needed_nat hfirst, Json.lt_of_needed_nat hlast⟩
    · cases h

theorem Folio.exact_format : Folio.format.Exact where
  fits f hf := by
    show Json.Fits f.toJson
    rw [toJson, Json.fits_record]
    simp -implicitDefEqProofs only [List.forall_mem_cons, List.not_mem_nil, false_imp_iff,
      implies_true, and_true, Json.fits_str, Json.fits_nat hf, Json.fits_optional Json.fits_str,
      Json.fits_optional Json.fits_ofInstant]
  ofJson?_toJson f hf := by
    show ofJson? f.toJson = some f
    rw [toJson, ofJson?, Json.fields?_record_of_names]
    · simp -implicitDefEqProofs only [List.map_cons, List.map_nil, Json.needed_str,
        Json.needed_nat hf, Json.lenient_str, Json.lenient_ofInstant,
        Json.needed_word FolioStatus.ofWord?_word, Option.bind_eq_bind, Option.bind_some]
    · rfl
    · simp
  holds j f h := by
    change ofJson? j = some f at h
    unfold ofJson? at h
    obtain ⟨fields, -, h⟩ := Option.bind_eq_some_iff.1 h
    split at h
    · simp -implicitDefEqProofs only [Option.bind_eq_bind, Option.bind_eq_some_iff,
        Option.some.injEq] at h
      obtain ⟨_, -, _, -, number, hnumber, _, -, _, -, _, -, _, -, _, -, _, -, rfl⟩ := h
      exact Json.lt_of_needed_nat hnumber
    · cases h

theorem ReplenishmentRequest.exact_format : ReplenishmentRequest.format.Exact where
  fits r hr := by
    show Json.Fits r.toJson
    rw [toJson, Json.fits_record]
    simp -implicitDefEqProofs only [List.forall_mem_cons, List.not_mem_nil, false_imp_iff,
      implies_true, and_true, Json.fits_str, Json.fits_nat hr.1, Json.fits_nat hr.2,
      Json.fits_ofInstant, Json.fits_optional Json.fits_str,
      Json.fits_optional Json.fits_ofInstant]
  ofJson?_toJson r hr := by
    show ofJson? r.toJson = some r
    rw [toJson, ofJson?, Json.fields?_record_of_names]
    · simp -implicitDefEqProofs only [List.map_cons, List.map_nil, Json.needed_str,
        Json.needed_nat hr.1, Json.needed_nat hr.2, Json.needed_ofInstant, Json.lenient_str,
        Json.lenient_ofInstant, Json.needed_word RequestStatus.ofWord?_word, Option.bind_eq_bind,
        Option.bind_some]
    · rfl
    · simp
  holds j r h := by
    change ofJson? j = some r at h
    unfold ofJson? at h
    obtain ⟨fields, -, h⟩ := Option.bind_eq_some_iff.1 h
    split at h
    · simp -implicitDefEqProofs only [Option.bind_eq_bind, Option.bind_eq_some_iff,
        Option.some.injEq] at h
      obtain ⟨_, -, _, -, _, -, first, hfirst, last, hlast, _, -, _, -, _, -, _, -, _, -,
        rfl⟩ := h
      exact ⟨Json.lt_of_needed_nat hfirst, Json.lt_of_needed_nat hlast⟩
    · cases h

theorem RangeRequest.exact_format : RangeRequest.format.Exact where
  fits r hr := by
    show Json.Fits r.toJson
    rw [toJson, Json.fits_record]
    simp -implicitDefEqProofs only [List.forall_mem_cons, List.not_mem_nil, false_imp_iff,
      implies_true, and_true, Json.fits_str, Json.fits_nat hr.1, Json.fits_nat hr.2]
  ofJson?_toJson r hr := by
    show ofJson? r.toJson = some r
    rw [toJson, ofJson?, Json.fields?_record_of_names]
    · simp -implicitDefEqProofs only [List.map_cons, List.map_nil, Json.needed_str,
        Json.needed_nat hr.1, Json.needed_nat hr.2, Option.bind_eq_bind, Option.bind_some]
    · rfl
    · simp
  holds j r h := by
    change ofJson? j = some r at h
    unfold ofJson? at h
    obtain ⟨fields, -, h⟩ := Option.bind_eq_some_iff.1 h
    split at h
    · simp -implicitDefEqProofs only [Option.bind_eq_bind, Option.bind_eq_some_iff,
        Option.some.injEq] at h
      obtain ⟨_, -, _, -, first, hfirst, last, hlast, rfl⟩ := h
      exact ⟨Json.lt_of_needed_nat hfirst, Json.lt_of_needed_nat hlast⟩
    · cases h

theorem Artifact.exact_format : Artifact.format.Exact where
  fits a ha := by
    show Json.Fits a.toJson
    rw [toJson, Json.fits_record]
    simp -implicitDefEqProofs only [List.forall_mem_cons, List.not_mem_nil, false_imp_iff,
      implies_true, and_true, Json.fits_str, Json.fits_nat ha.1, Json.fits_nat ha.2,
      Json.fits_ofInstant]
  ofJson?_toJson a ha := by
    show ofJson? a.toJson = some a
    rw [toJson, ofJson?, Json.fields?_record_of_names]
    · simp -implicitDefEqProofs only [List.map_cons, List.map_nil, Json.needed_str,
        Json.needed_nat ha.1, Json.needed_nat ha.2, Json.needed_ofInstant, Option.bind_eq_bind,
        Option.bind_some]
    · rfl
    · simp
  holds j a h := by
    change ofJson? j = some a at h
    unfold ofJson? at h
    obtain ⟨fields, -, h⟩ := Option.bind_eq_some_iff.1 h
    split at h
    · simp -implicitDefEqProofs only [Option.bind_eq_bind, Option.bind_eq_some_iff,
        Option.some.injEq] at h
      obtain ⟨_, -, _, -, first, hfirst, last, hlast, _, -, _, -, _, -, rfl⟩ := h
      exact ⟨Json.lt_of_needed_nat hfirst, Json.lt_of_needed_nat hlast⟩
    · cases h

/-! ## Alerts -/

namespace Alert

/-- Whether the numbers of an alert fit the words that they are kept in. -/
def HoldsWords : Alert → Prop
  | rangeNearExpiry _ _ daysLeft remaining =>
    Json.FitsSignedWord daysLeft ∧ remaining < 18446744073709551616
  | rangeExpired _ _ remaining => remaining < 18446744073709551616
  | replenishmentRejected .. | replenishmentTimedOut .. | ingestionFailed .. | foliosExhausted .. =>
    True

def format : Format Alert where
  toJson := toJson
  ofJson? := ofJson?
  Holds := HoldsWords

theorem split?_toJson (a : Alert) : split? a.toJson = some (a.kind, .record
    ([("issuer", .str a.series.issuer), ("doc_type", .str a.series.docType)] ++ a.facts)) := by
  cases a <;> simp [toJson, split?, Json.record, facts, Json.str]

theorem isReadable_toJson (a : Alert) : isReadable a.toJson = true := by
  cases a <;>
    simp [toJson, Json.record, facts, Json.str, Json.nat, isReadable, areReadableMembers]

theorem depth_toJson (a : Alert) : depth a.toJson = 1 := by
  cases a <;> simp [toJson, Json.record, facts, Json.str, Json.nat, depth, depthOfMembers]

theorem factsAt?_record {names : List String} {members : List (String × Json)}
    (hnames : members.map (·.1) = names) (hnodup : names.Nodup) :
    factsAt? names (.record members) = some (members.map (·.2)) := by
  rw [factsAt?, Json.fields?_record_of_names hnames hnodup, Option.bind_eq_bind,
    Option.bind_some, List.mapM_map]
  exact Json.mapM_eq_some_map fun m _ => rfl

theorem ofFacts?_facts {a : Alert} (h : a.HoldsWords) : ofFacts? a.kind (.record
    ([("issuer", .str a.series.issuer), ("doc_type", .str a.series.docType)] ++ a.facts)) =
      some a := by
  cases a with
  | rangeNearExpiry s id daysLeft remaining =>
    simp -implicitDefEqProofs only [ofFacts?, kind, series, facts]
    rw [factsAt?_record]
    · simp -implicitDefEqProofs only [List.cons_append, List.nil_append, List.map_cons,
        List.map_nil, Json.str, Json.text?, Json.nat?_nat h.2, Json.int64?_int h.1,
        Option.bind_eq_bind, Option.bind_some]
    · rfl
    · simp
  | rangeExpired s id remaining =>
    simp -implicitDefEqProofs only [ofFacts?, kind, series, facts]
    rw [factsAt?_record]
    · simp -implicitDefEqProofs only [List.cons_append, List.nil_append, List.map_cons,
        List.map_nil, Json.str, Json.text?, Json.nat?_nat h, Option.bind_eq_bind,
        Option.bind_some]
    · rfl
    · simp
  | _ =>
    simp -implicitDefEqProofs only [ofFacts?, kind, series, facts]
    rw [factsAt?_record]
    · rfl
    · rfl
    · simp

theorem holdsWords_of_ofFacts? {word : String} {j : Json} {a : Alert}
    (h : ofFacts? word j = some a) : a.HoldsWords := by
  unfold ofFacts? at h
  split at h
  case h_7 => cases h
  all_goals
    obtain ⟨fields, hfields, h⟩ := Option.bind_eq_some_iff.1 h
    split at h
    case h_2 => cases h
    simp -implicitDefEqProofs only [Option.bind_eq_bind, Option.bind_eq_some_iff,
      Option.some.injEq] at h
  · obtain ⟨_, -, _, -, _, -, daysLeft, hdays, remaining, hremaining, rfl⟩ := h
    exact ⟨Json.fits_of_int64? hdays, Json.lt_of_nat? hremaining⟩
  · obtain ⟨_, -, _, -, _, -, remaining, hremaining, rfl⟩ := h
    exact Json.lt_of_nat? hremaining
  -- The other kinds hold no numbers.
  · obtain ⟨_, -, _, -, _, -, _, -, rfl⟩ := h
    trivial
  · obtain ⟨_, -, _, -, _, -, rfl⟩ := h
    trivial
  · obtain ⟨_, -, _, -, _, -, _, -, rfl⟩ := h
    trivial
  · obtain ⟨_, -, _, -, rfl⟩ := h
    trivial

theorem exact_format : format.Exact where
  fits a ha := by
    show Json.Fits a.toJson
    rw [toJson, Json.fits_record]
    cases a with
    | rangeNearExpiry s id daysLeft remaining =>
      simp -implicitDefEqProofs only [facts, List.cons_append, List.nil_append,
        List.forall_mem_cons, List.not_mem_nil, false_imp_iff, implies_true, and_true,
        Json.fits_str, Json.fits_int ha.1, Json.fits_nat ha.2]
    | rangeExpired s id remaining =>
      simp -implicitDefEqProofs only [facts, List.cons_append, List.nil_append,
        List.forall_mem_cons, List.not_mem_nil, false_imp_iff, implies_true, and_true,
        Json.fits_str, Json.fits_nat ha]
    | _ => simp [facts, Json.fits_str]
  ofJson?_toJson a ha := by
    show ofJson? a.toJson = some a
    rw [ofJson?, if_pos ⟨a.isReadable_toJson, by rw [a.depth_toJson]; decide⟩, split?_toJson,
      Option.bind_some]
    exact ofFacts?_facts ha
  holds j a h := by
    change ofJson? j = some a at h
    unfold ofJson? at h
    split at h
    · obtain ⟨⟨word, facts⟩, -, h⟩ := Option.bind_eq_some_iff.1 h
      exact holdsWords_of_ofFacts? h
    · cases h

end Alert

/-! ## All documents -/

/-- Whatever is written of a range, a folio, a request, an alert or an artifact is read as what it was,
and whatever is read of a text can be written and read again. -/
theorem documents_read_back :
    RangeRecord.format.ReadsBack ∧ Folio.format.ReadsBack ∧
      ReplenishmentRequest.format.ReadsBack ∧ Alert.format.ReadsBack ∧
      Artifact.format.ReadsBack ∧ RangeRequest.format.ReadsBack :=
  ⟨RangeRecord.exact_format.readsBack, Folio.exact_format.readsBack,
    ReplenishmentRequest.exact_format.readsBack, Alert.exact_format.readsBack,
    Artifact.exact_format.readsBack, RangeRequest.exact_format.readsBack⟩

example : RangeRequest.format.read? "[\"A\", \"T\", 1, 18446744073709551615]" =
    some ⟨⟨"A", "T"⟩, 1, 18446744073709551615⟩ := by
  decide +kernel

end FolioLedger
