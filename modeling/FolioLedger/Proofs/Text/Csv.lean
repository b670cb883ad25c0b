import FolioLedger.Text.Csv
import Mathlib.Data.List.Basic

/-!
# Tables are read back

A reader of RFC 4180 takes a table apart again, character by character (`Csv.Reader.step`): fields end at
commas and records at line feeds outside of quotes, a carriage return right before such a line feed
belongs to it, and two quotes within quotes are one.

A field stands in quotes if it holds a comma, a quote or a line feed, and not for a carriage return.  So a
carriage return at the end of a record becomes part of the line's end, and that is all that is lost
(`Csv.parse?_render`): of a last field that is written bare the reader gets `Csv.chomp`.
-/

namespace FolioLedger.Csv

/-! ## The reader -/

/-- Where a reader stands. -/
inductive Place where
  /-- Before the first character of a field. -/
  | before
  /-- In a field without quotes. -/
  | bare
  /-- Between quotes. -/
  | quoted
  /-- After a quote that ends the field, unless it is followed by another. -/
  | quote
  /-- After the end of a field in quotes and a carriage return. -/
  | turning
deriving DecidableEq

/-- A reader with what it has read: the field that it is in, the fields of the record before it, and the
records before that. -/
structure Reader where
  place : Place := .before
  field : List Char := []
  fields : List (List Char) := []
  records : List (List (List Char)) := []
deriving DecidableEq

/-- A text without a carriage return at its end. -/
def chomp (text : List Char) : List Char :=
  if text.getLast? = some '\r' then text.dropLast else text

namespace Reader

def push (r : Reader) (place : Place) (c : Char) : Reader :=
  { r with place, field := r.field ++ [c] }

def endField (r : Reader) : Reader :=
  { r with place := .before, field := [], fields := r.fields ++ [r.field] }

/-- The record ends with a last field. -/
def endRecord (r : Reader) (last : List Char) : Reader :=
  { records := r.records ++ [r.fields ++ [last]] }

/-- Reads a character, if it may stand there. -/
def step (r : Reader) (c : Char) : Option Reader :=
  match r.place with
  | .before =>
    if c = '"' then some { r with place := .quoted }
    else if c = ',' then some r.endField
    else if c = '\n' then some (r.endRecord [])
    else some (r.push .bare c)
  | .bare =>
    if c = '"' then none
    else if c = ',' then some r.endField
    else if c = '\n' then some (r.endRecord (chomp r.field))
    else some (r.push .bare c)
  | .quoted => if c = '"' then some { r with place := .quote } else some (r.push .quoted c)
  | .quote =>
    if c = '"' then some (r.push .quoted c)
    else if c = ',' then some r.endField
    else if c = '\n' then some (r.endRecord r.field)
    else if c = '\r' then some { r with place := .turning }
    else none
  | .turning => if c = '\n' then some (r.endRecord r.field) else none

/-- Reads some characters. -/
def run (r : Reader) (text : List Char) : Option Reader :=
  text.foldlM step r

/-- The records at the end of the text, where the last one need not have a line's end. -/
def finish (r : Reader) : Option (List (List (List Char))) :=
  match r.place with
  | .before => some (if r.fields = [] then r.records else (r.endRecord []).records)
  | .bare | .quote => some (r.endRecord r.field).records
  | .quoted | .turning => none

theorem run_append (r : Reader) (text rest : List Char) :
    r.run (text ++ rest) = (r.run text).bind (·.run rest) :=
  List.foldlM_append

theorem run_cons (r : Reader) (c : Char) (rest : List Char) :
    r.run (c :: rest) = (r.step c).bind (·.run rest) :=
  List.foldlM_cons

end Reader

/-- The records of a text, if it is a table. -/
def parse? (text : String) : Option (List (List String)) :=
  (((Reader.run {} text.toList).bind Reader.finish)).map fun records =>
    records.map fun fields => fields.map String.ofList

/-! ## Fields -/

theorem needsQuotes_eq_false {field : List Char} :
    needsQuotes field = false ↔ ∀ c ∈ field, c ≠ ',' ∧ c ≠ '"' ∧ c ≠ '\n' := by
  simp [needsQuotes]

/-- A field that ends in a carriage return and holds nothing for which it would stand in quotes. -/
def LosesReturn (field : List Char) : Prop :=
  field.getLast? = some '\r' ∧ ∀ c ∈ field, c ≠ ',' ∧ c ≠ '"' ∧ c ≠ '\n'

instance (field : List Char) : Decidable (LosesReturn field) :=
  inferInstanceAs (Decidable (_ ∧ _))

/-- What a reader gets of the last field of a record. -/
def kept (field : List Char) : List Char :=
  if needsQuotes field then field else chomp field

theorem chomp_eq_self_iff {text : List Char} : chomp text = text ↔ text.getLast? ≠ some '\r' := by
  unfold chomp
  by_cases hreturn : text.getLast? = some '\r'
  · rw [if_pos hreturn]
    refine iff_of_false (fun heq => ?_) (not_not_intro hreturn)
    have hlength := congrArg List.length heq
    rw [List.length_dropLast] at hlength
    have hnil : text = [] := List.length_eq_zero_iff.1 (by omega)
    rw [hnil] at hreturn
    cases hreturn
  · rw [if_neg hreturn]
    exact iff_of_true rfl hreturn

theorem kept_eq_self_iff {field : List Char} : kept field = field ↔ ¬ LosesReturn field := by
  unfold kept LosesReturn
  rw [← needsQuotes_eq_false]
  cases needsQuotes field with
  | true => simp
  | false => simp [chomp_eq_self_iff]

namespace Reader

variable {r : Reader}

/-- A bare field is read as it stands. -/
theorem run_bare {field : List Char} (hplace : r.place = .bare) (h : needsQuotes field = false) :
    r.run field = some { r with field := r.field ++ field } := by
  rw [needsQuotes_eq_false] at h
  induction field generalizing r with
  | nil => simp [run]
  | cons c cs ih =>
    obtain ⟨⟨hcomma, hquote, hfeed⟩, hcs⟩ := List.forall_mem_cons.1 h
    have hstep : r.step c = some (r.push .bare c) := by
      unfold step
      simp only [hplace, hquote, hcomma, hfeed, if_false]
    rw [run_cons, hstep, Option.bind_some, ih rfl hcs]
    simp [push, hplace]

/-- Between quotes every quote is written twice, and all else is read as it stands. -/
theorem run_double {field : List Char} (hplace : r.place = .quoted) :
    r.run (double field) = some { r with field := r.field ++ field } := by
  induction field generalizing r with
  | nil => simp [run, double]
  | cons c cs ih =>
    unfold double
    by_cases hquote : c = '"'
    · have hsteps : r.run ['"', '"'] = some (r.push .quoted '"') := by
        simp [run, step, hplace, push]
      rw [if_pos hquote, hquote, show '"' :: '"' :: double cs = ['"', '"'] ++ double cs from rfl,
        run_append, hsteps, Option.bind_some, ih rfl]
      simp [push, hplace]
    · have hstep : r.step c = some (r.push .quoted c) := by
        unfold step
        simp only [hplace, hquote, if_false]
      rw [if_neg hquote, run_cons, hstep, Option.bind_some, ih rfl]
      simp [push, hplace]

/-- Where a reader stands after a field. -/
def placeAfter (field : List Char) : Place :=
  if needsQuotes field then .quote else if field = [] then .before else .bare

variable {fields : List (List Char)} {records : List (List (List Char))}

theorem run_encode (field : List Char) : run { fields := fields, records := records } (encode field) =
    some ⟨placeAfter field, field, fields, records⟩ := by
  unfold encode placeAfter
  by_cases hquotes : needsQuotes field = true
  · have hopen : step { fields := fields, records := records } '"' =
        some ⟨.quoted, [], fields, records⟩ := rfl
    have hclose : run ⟨.quoted, field, fields, records⟩ ['"'] =
        some ⟨.quote, field, fields, records⟩ := rfl
    rw [if_pos hquotes, if_pos hquotes, List.cons_append, run_cons, hopen, Option.bind_some, run_append,
      run_double rfl, Option.bind_some, List.nil_append, hclose]
  · have hbare : needsQuotes field = false := Bool.eq_false_iff.2 hquotes
    rw [if_neg hquotes, if_neg hquotes]
    cases field with
    | nil => rfl
    | cons c cs =>
      obtain ⟨⟨hcomma, hquote, hfeed⟩, hcs⟩ := List.forall_mem_cons.1 (needsQuotes_eq_false.1 hbare)
      have hstep : step { fields := fields, records := records } c =
          some ⟨.bare, [c], fields, records⟩ := by
        unfold step
        simp only [hquote, hcomma, hfeed, if_false]
        rfl
      rw [if_neg (List.cons_ne_nil c cs), run_cons, hstep, Option.bind_some,
        run_bare rfl (needsQuotes_eq_false.2 hcs)]
      rfl

/-- A comma ends a field, whatever is in it. -/
theorem step_comma (field : List Char) : step ⟨placeAfter field, field, fields, records⟩ ',' =
    some { fields := fields ++ [field], records := records } := by
  unfold placeAfter
  split
  · rfl
  · split <;> rfl

/-- A line feed ends a record, and takes a carriage return before it along unless that is in quotes. -/
theorem step_feed (field : List Char) : step ⟨placeAfter field, field, fields, records⟩ '\n' =
    some { records := records ++ [fields ++ [kept field]] } := by
  unfold placeAfter kept
  split
  · rfl
  · split
    · next hnil =>
      rw [hnil]
      rfl
    · rfl

end Reader

/-! ## Tables -/

/-- What a reader gets of a record. -/
def keptFields : List (List Char) → List (List Char)
  | [] => []
  | [field] => [kept field]
  | field :: fields => field :: keptFields fields

theorem keptFields_cons {field : List Char} {fields : List (List Char)} (hne : fields ≠ []) :
    keptFields (field :: fields) = field :: keptFields fields := by
  cases fields with
  | nil => exact absurd rfl hne
  | cons next fields => rfl

theorem join_cons {field : List Char} {fields : List (List Char)} (hne : fields ≠ []) :
    join (field :: fields) = encode field ++ ',' :: join fields := by
  cases fields with
  | nil => exact absurd rfl hne
  | cons next fields => rfl

namespace Reader

theorem run_line {fields : List (List Char)} (hne : fields ≠ []) (before : List (List Char))
    (records : List (List (List Char))) :
    run { fields := before, records := records } (line fields) =
      some { records := records ++ [before ++ keptFields fields] } := by
  unfold line
  induction fields generalizing before with
  | nil => exact absurd rfl hne
  | cons field fields ih =>
    by_cases hlast : fields = []
    · rw [hlast, join, run_append, run_encode, Option.bind_some, run_cons, step_feed]
      rfl
    · rw [join_cons hlast, keptFields_cons hlast, List.append_assoc, run_append, run_encode,
        Option.bind_some, List.cons_append, run_cons, step_comma, Option.bind_some, ih hlast]
      simp

theorem run_lines {table : List (List (List Char))} (hne : ∀ fields ∈ table, fields ≠ [])
    (records : List (List (List Char))) : run { records := records } (table.flatMap line) =
      some { records := records ++ table.map keptFields } := by
  induction table generalizing records with
  | nil => simp [run]
  | cons fields table ih =>
    obtain ⟨hfields, htable⟩ := List.forall_mem_cons.1 hne
    rw [List.flatMap_cons, run_append, run_line hfields, Option.bind_some, ih htable]
    simp

end Reader

/-- A table is read back, but for a carriage return at the end of a record. -/
theorem parse?_render {table : List (List String)} (hne : ∀ fields ∈ table, fields ≠ []) :
    parse? (render table) = some (table.map fun fields =>
      (keptFields (fields.map String.toList)).map String.ofList) := by
  have hchars : ∀ fields ∈ table.map (List.map String.toList), fields ≠ [] := by
    intro fields hfields
    obtain ⟨texts, htexts, rfl⟩ := List.mem_map.1 hfields
    exact fun hnil => hne texts htexts (List.map_eq_nil_iff.1 hnil)
  have hlines : (table.flatMap fun fields => line (fields.map String.toList)) =
      (table.map (List.map String.toList)).flatMap line := by
    rw [List.flatMap_map]
  unfold parse? render
  rw [String.toList_ofList, hlines, Reader.run_lines hchars]
  simp [Reader.finish]

theorem keptFields_append_last (fields : List (List Char)) (last : List Char) :
    keptFields (fields ++ [last]) = fields ++ [kept last] := by
  induction fields with
  | nil => rfl
  | cons field fields ih =>
    rw [List.cons_append, keptFields_cons (by simp), ih]
    rfl

end FolioLedger.Csv
