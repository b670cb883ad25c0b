import FolioLedger.Json.Record
import FolioLedger.Proofs.Json.Layout
import FolioLedger.Proofs.Time.Reader

/-!
# Records are read back

Of a record whose names differ every field is found under its name (`Json.fields?_record`), and the
readers of fields give back texts, numbers and timestamps.
-/

namespace FolioLedger.Json

/-! ## Fields -/

section

variable {members : List (String × Json)}

theorem filter_key (hnames : (members.map (·.1)).Nodup) {m : String × Json} (hm : m ∈ members) :
    (members.map fun (k, v) => (some k, v)).filter (·.1 = some m.1) = [(some m.1, m.2)] := by
  induction members with
  | nil => cases hm
  | cons first members ih =>
    rw [List.map_cons, List.nodup_cons] at hnames
    rw [List.map_cons]
    rcases List.mem_cons.1 hm with rfl | hm
    · have hothers : (members.map fun (k, v) => (some k, v)).filter (·.1 = some m.1) = [] := by
        rw [List.filter_eq_nil_iff]
        intro x hx
        obtain ⟨other, hother, rfl⟩ := List.mem_map.1 hx
        have hne : other.1 ≠ m.1 := fun he => hnames.1 (he ▸ List.mem_map_of_mem hother)
        simpa using hne
      rw [List.filter_cons_of_pos (by simp), hothers]
    · have hne : first.1 ≠ m.1 := fun he => hnames.1 (he ▸ List.mem_map_of_mem hm)
      rw [List.filter_cons_of_neg (by simpa using hne), ih hnames.2 hm]

theorem mapM_eq_some_map {α β : Type} {f : α → Option β} {g : α → β} {xs : List α}
    (h : ∀ x ∈ xs, f x = some (g x)) : xs.mapM f = some (xs.map g) := by
  induction xs with
  | nil => rfl
  | cons x xs ih =>
    rw [List.mapM_cons, h x List.mem_cons_self, ih fun y hy => h y (List.mem_cons_of_mem _ hy)]
    rfl

/-- Every field of a record is found under its name. -/
theorem fields?_record (hnames : (members.map (·.1)).Nodup) :
    (record members).fields? (members.map (·.1)) = some (members.map (some ·.2)) := by
  have htexts : (members.map fun (k, v) => (some k, v)).any (·.1.isNone) = false := by
    simp
  show membersAt? _ (members.map fun (k, v) => (some k, v)) = _
  unfold membersAt?
  rw [htexts, if_neg (by decide), List.mapM_map]
  refine mapM_eq_some_map fun m hm => ?_
  simp only [Function.comp_apply, filter_key hnames hm]

theorem fields?_record_of_names {names : List String} (hnames : members.map (·.1) = names)
    (hnodup : names.Nodup) : (record members).fields? names = some (members.map (some ·.2)) := by
  subst hnames
  exact fields?_record hnodup

theorem fits_record : Fits (record members) ↔ ∀ m ∈ members, Fits m.2 := by
  unfold record
  rw [Fits]
  induction members with
  | nil => simp [FitsMembers]
  | cons m members ih => simp only [List.map_cons, FitsMembers, ih, List.forall_mem_cons]

end

/-! ## Values of fields -/

theorem needed_str (s : String) : needed text? (some (.str s)) = some s := rfl

theorem nat?_nat {n : Nat} (h : n < 18446744073709551616) : nat? (.nat n) = some n := by
  have hword : 0 ≤ (n : Int) ∧ (n : Int) < 18446744073709551616 := by omega
  unfold nat nat?
  simp only [if_pos hword, Int.toNat_natCast]

theorem needed_nat {n : Nat} (h : n < 18446744073709551616) :
    needed nat? (some (.nat n)) = some n := by
  rw [needed, Option.bind_some, nat?_nat h]

theorem instant?_ofInstant (t : Instant) : instant? (.ofInstant t) = some t := by
  simp only [instant?, ofInstant, str, text?, Option.bind_some, t.read?_render]

theorem needed_ofInstant (t : Instant) : needed instant? (some (.ofInstant t)) = some t := by
  rw [needed, Option.bind_some, instant?_ofInstant]

theorem lt_of_nat? {j : Json} {n : Nat} (h : nat? j = some n) : n < 18446744073709551616 := by
  unfold nat? at h
  split at h
  · split at h
    · next hword =>
      have hn := Option.some.inj h
      omega
    · cases h
  · cases h

theorem lt_of_needed_nat {field : Option Json} {n : Nat} (h : needed nat? field = some n) :
    n < 18446744073709551616 := by
  obtain ⟨j, -, hj⟩ := Option.bind_eq_some_iff.1 h
  exact lt_of_nat? hj

/-- A number that fits a signed word of 64 bits. -/
def FitsSignedWord (n : Int) : Prop := -9223372036854775808 ≤ n ∧ n < 9223372036854775808

theorem int64?_int {n : Int} (h : FitsSignedWord n) : int64? (.int n) = some n := if_pos h

theorem fits_of_int64? {j : Json} {n : Int} (h : int64? j = some n) : FitsSignedWord n := by
  unfold int64? at h
  split at h
  · split at h
    · next hword => exact Option.some.inj h ▸ hword
    · cases h
  · cases h

theorem fits_int {n : Int} (h : FitsSignedWord n) : Fits (.int n) := by
  show FitsWord n
  unfold FitsSignedWord at h
  unfold FitsWord
  omega

/-- A word is told by its spelling. -/
theorem needed_word {α : Type} {word : α → String} {ofWord? : String → Option α}
    (h : ∀ a, ofWord? (word a) = some a) (a : α) :
    needed (word? ofWord?) (some (.str (word a))) = some a := h a

/-- What may be absent is read back, if what is there is never written as null. -/
theorem lenient_optional {α : Type} {read : Json → Option α} {write : α → Json}
    (hread : ∀ a, read (write a) = some a) (hwrite : ∀ a, write a ≠ .null) (o : Option α) :
    lenient read (some (optional write o)) = some o := by
  cases o with
  | none => rfl
  | some a =>
    show lenient read (some (write a)) = _
    unfold lenient
    split
    · next h => cases h
    · next h => exact absurd (Option.some.inj h) (hwrite a)
    · next h => rw [← Option.some.inj h, hread a, Option.map_some]

theorem str_ne_null (s : String) : Json.str s ≠ .null := by
  intro h
  cases h

theorem lenient_str (o : Option String) : lenient text? (some (optional .str o)) = some o := by
  refine lenient_optional (fun s => ?_) str_ne_null o
  rfl

theorem lenient_ofInstant (o : Option Instant) :
    lenient instant? (some (optional .ofInstant o)) = some o :=
  lenient_optional instant?_ofInstant (fun t => str_ne_null t.render) o

theorem fits_optional {α : Type} {write : α → Json} (h : ∀ a, Fits (write a)) (o : Option α) :
    Fits (optional write o) := by
  cases o with
  | none => trivial
  | some a => exact h a

theorem fits_nat {n : Nat} (h : n < 18446744073709551616) : Fits (.nat n) := by
  show FitsWord n
  unfold FitsWord
  omega

theorem fits_str (s : String) : Fits (.str s) := trivial

theorem fits_ofInstant (t : Instant) : Fits (.ofInstant t) := trivial

end FolioLedger.Json
