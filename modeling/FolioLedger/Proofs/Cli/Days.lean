import FolioLedger.Cli.Moment
import FolioLedger.Proofs.Time.Reader

/-!
# Days on the command line

A plain date stands for its whole day: where a period begins, for the first millisecond, and where one
ends, for the last.  What is read as a plain date is not a timestamp (`readMoment?_of_date`), and every
date that can be represented can be written as one (`Date.read?_render`).  The days follow each other
without a gap (`adjoin_of_succ`), and every millisecond lies in one of them (`existsUnique_day`).
-/

namespace FolioLedger

open Timestamp

/-! ## Dates and timestamps are told apart -/

namespace Numeral

/-- A number of as many digits as may be taken is also read where fewer would do. -/
theorem read?_of_fewer {least least' most : Nat} {cs rest : List Char} {n : Nat}
    (h : read? least most cs = some (n, rest)) (hle : least' ≤ least) :
    read? least' most cs = some (n, rest) := by
  unfold read? at h ⊢
  simp only at h ⊢
  split at h
  · cases h
  · rw [if_neg (by omega)]
    exact h

theorem exists_digit_of_read? {least most : Nat} {cs : List Char} {res : Nat × List Char}
    (h : read? least most cs = some res) (hleast : 0 < least) :
    ∃ c tail, cs = c :: tail ∧ c.isDigit = true := by
  unfold read? splitDigits at h
  simp only at h
  split at h
  · cases h
  next hrun =>
  cases cs with
  | nil => simp at hrun; omega
  | cons c tail =>
    refine ⟨c, tail, rfl, ?_⟩
    by_contra hdigit
    rw [← isDigit_eq] at hdigit
    cases most with
    | zero => simp at hrun; omega
    | succ most =>
      rw [List.take_succ_cons, List.takeWhile_cons_of_neg hdigit, List.length_nil] at hrun
      omega

end Numeral

open Numeral

namespace Timestamp

theorem short?_of_read? {cs : List Char} {res : Nat × List Char} (h : read? 2 2 cs = some res) :
    short? cs = some res := by
  obtain ⟨c, tail, rfl, hdigit⟩ := exists_digit_of_read? h (by decide)
  unfold short?
  rw [dropBlanks_of_isDigit hdigit]
  exact read?_of_fewer h (by decide)

theorem year?_of_read? {cs rest : List Char} {n : Nat} (h : read? 4 4 cs = some (n, rest)) :
    year? cs = some ((n : Int), rest) := by
  obtain ⟨c, tail, rfl, hdigit⟩ := exists_digit_of_read? h (by decide)
  unfold year?
  rw [dropBlanks_of_isDigit hdigit]
  split
  · next heq =>
    cases heq
    cases hdigit
  · next heq =>
    cases heq
    cases hdigit
  · rw [read?_of_fewer h (by decide)]
    rfl

end Timestamp

/-- A timestamp goes on after its date, and a plain date does not. -/
theorem Date.readStrict?_eq_none {text : String} {d : Date} (h : Date.read? text = some d) :
    Instant.readStrict? text = none := by
  by_contra hstrict
  obtain ⟨t, ht⟩ := Option.ne_none_iff_exists'.1 hstrict
  unfold Instant.readStrict? at ht
  simp only [Option.bind_eq_bind, Option.bind_eq_some_iff] at ht
  obtain ⟨⟨year, cs₁⟩, hyear, cs₂, hdash₁, ⟨month, cs₃⟩, hmonth, cs₄, hdash₂, ⟨day, cs₅⟩, hday, cs₆,
    hdivider, -⟩ := ht
  have hdate : date? id text.toList = some (⟨year, month, day⟩, cs₅) := by
    unfold date?
    simp only [Option.bind_eq_bind, year?_of_read? hyear, Option.bind_some, id_eq, hdash₁,
      short?_of_read? hmonth, hdash₂, short?_of_read? hday]
  unfold Date.read? at h
  simp only [Option.bind_eq_bind, hdate, Option.bind_some] at h
  split at h
  · cases h
  · next hend =>
    obtain rfl : cs₅ = [] := by simpa using hend
    cases hdivider

/-! ## The edges of days -/

namespace Instant

theorem ofDate?_eq_some_iff {d : Date} {secondOfDay nano : Nat} {t : Instant} :
    ofDate? d secondOfDay nano = some t ↔
      d.isValid ∧ t.second = d.toDays * 86400 + secondOfDay ∧ t.nano = nano := by
  unfold ofDate?
  constructor
  · intro h
    split at h
    · next hvalid => exact ⟨hvalid, ofParts?_eq_some h⟩
    · cases h
  · rintro ⟨hvalid, hsecond, rfl⟩
    rw [if_pos hvalid, ← hsecond, ofParts?_self]

end Instant

/-- The date can be represented. -/
def Date.InCalendar (d : Date) : Prop :=
  d.isValid ∧ Instant.minSecond ≤ d.toDays * 86400 ∧ d.toDays * 86400 ≤ Instant.maxSecond

theorem Date.inCalendar_iff {d : Date} : d.InCalendar ↔ ∃ t, Instant.ofDate? d 0 0 = some t := by
  simp only [Instant.ofDate?_eq_some_iff]
  constructor
  · rintro ⟨hvalid, hmin, hmax⟩
    exact ⟨⟨d.toDays * 86400, 0, hmin, hmax, by decide, fun h => absurd h (by decide)⟩,
      hvalid, by simp, rfl⟩
  · rintro ⟨t, hvalid, hsecond, -⟩
    have hmin := t.min_le
    have hmax := t.le_max
    exact ⟨hvalid, by omega, by omega⟩

/-- What is read as a date can be represented. -/
theorem Date.inCalendar_of_read? {text : String} {d : Date} (h : Date.read? text = some d) :
    d.InCalendar := by
  unfold Date.read? at h
  simp only [Option.bind_eq_bind, Option.bind_eq_some_iff] at h
  obtain ⟨⟨date, cs⟩, -, h⟩ := h
  split at h
  · cases h
  · obtain ⟨t, ht, rfl⟩ := Option.map_eq_some_iff.1 h
    exact Date.inCalendar_iff.2 ⟨t, ht⟩

/-- Every date that can be represented is read as it is written. -/
theorem Date.read?_render {d : Date} (h : d.InCalendar) : Date.read? d.render = some d := by
  obtain ⟨-, hmonth, -, hday⟩ := Date.isValid_bounds h.1
  obtain ⟨t, ht⟩ := Date.inCalendar_iff.1 h
  have hgap : ∀ cs : List Char, id ('-' :: cs) = '-' :: cs := fun _ => rfl
  have hdate := date?_render hgap (show d.month < 100 by omega) (show d.day < 100 by omega) []
  rw [List.append_nil] at hdate
  unfold Date.read?
  simp only [hdate, Option.bind_eq_bind, Option.bind_some, ne_eq, not_true_eq_false, if_false, ht,
    Option.map_some]

theorem Date.inCalendar_iff_read? {d : Date} : d.InCalendar ↔ ∃ text, Date.read? text = some d :=
  ⟨fun h => ⟨_, read?_render h⟩, fun ⟨_, h⟩ => inCalendar_of_read? h⟩

namespace Cli

theorem readMoment?_of_date {text : String} {d : Date} (h : Date.read? text = some d) (edge : Edge) :
    readMoment? edge text = dayEdge? d edge := by
  unfold readMoment?
  rw [Date.readStrict?_eq_none h, h]
  rfl

variable {d : Date}

/-- A day of the calendar has both edges, as the calendar begins and ends at midnight. -/
theorem exists_dayEdge (h : d.InCalendar) : ∃ start stop,
    dayEdge? d .start = some start ∧ dayEdge? d .stop = some stop ∧
      start.toMillis = d.toDays * 86400000 ∧ stop.toMillis = d.toDays * 86400000 + 86399999 := by
  obtain ⟨hvalid, hmin, hmax⟩ := h
  have hlast : d.toDays * 86400 + 86399 ≤ Instant.maxSecond := by
    unfold Instant.maxSecond at hmax ⊢
    omega
  refine ⟨⟨d.toDays * 86400, 0, hmin, hmax, by decide, fun h => absurd h (by decide)⟩,
    ⟨d.toDays * 86400 + 86399, 999000000, by omega, hlast, by decide, fun h => absurd h (by decide)⟩,
    Instant.ofDate?_eq_some_iff.2 ⟨hvalid, by simp, rfl⟩,
    Instant.ofDate?_eq_some_iff.2 ⟨hvalid, by simp, rfl⟩, ?_, ?_⟩
  · show d.toDays * 86400 * 1000 + ((0 / 1000000 : Nat) : Int) = d.toDays * 86400000
    omega
  · show (d.toDays * 86400 + 86399) * 1000 + ((999000000 / 1000000 : Nat) : Int) =
      d.toDays * 86400000 + 86399999
    omega

theorem inCalendar_of_dayEdge {start : Instant} (h : dayEdge? d .start = some start) : d.InCalendar :=
  Date.inCalendar_iff.2 ⟨start, h⟩

theorem not_dayEdge_lt {start stop : Instant} (hstart : dayEdge? d .start = some start)
    (hstop : dayEdge? d .stop = some stop) : ¬ stop < start := by
  obtain ⟨-, hsecond, -⟩ := Instant.ofDate?_eq_some_iff.1 hstart
  obtain ⟨-, hsecond', -⟩ := Instant.ofDate?_eq_some_iff.1 hstop
  rintro (hlt | ⟨heq, -⟩) <;> omega

theorem addMillis?_dayEdge {next : Date} (hnext : next.toDays = d.toDays + 1) {stop start : Instant}
    (hstop : dayEdge? d .stop = some stop) (hstart : dayEdge? next .start = some start) :
    stop.addMillis? 1 = some start := by
  obtain ⟨-, hsecond, hnano⟩ := Instant.ofDate?_eq_some_iff.1 hstop
  obtain ⟨-, hsecond', hnano'⟩ := Instant.ofDate?_eq_some_iff.1 hstart
  have hplain : stop.isLeap = false := by
    simp [Instant.isLeap, hnano]
  unfold Instant.addMillis? Instant.add?
  simp only [hplain, Bool.false_eq_true, false_and, if_false]
  rw [← start.ofParts?_self]
  congr 1 <;> omega

/-- However the two dates are written, the one ends a millisecond before the other starts. -/
def Adjoin (d next : Date) : Prop :=
  ∀ text text' : String, Date.read? text = some d → Date.read? text' = some next →
    ∃ stop start, readMoment? .stop text = some stop ∧ readMoment? .start text' = some start ∧
      stop.addMillis? 1 = some start

theorem adjoin_of_succ {next : Date} (hnext : next.toDays = d.toDays + 1) : Adjoin d next := by
  intro text text' htext htext'
  obtain ⟨-, stop, -, hstop, -⟩ := exists_dayEdge (Date.inCalendar_of_read? htext)
  obtain ⟨start, -, hstart, -⟩ := exists_dayEdge (Date.inCalendar_of_read? htext')
  rw [readMoment?_of_date htext, readMoment?_of_date htext']
  exact ⟨stop, start, hstop, hstart, addMillis?_dayEdge hnext hstop hstart⟩

/-- Every millisecond of the calendar lies in one day. -/
theorem existsUnique_day {ms : Int} (h : ∃ t, Instant.ofMillis ms = .ok t) :
    ∃! d : Date, ∃ start stop, dayEdge? d .start = some start ∧ dayEdge? d .stop = some stop ∧
      start.toMillis ≤ ms ∧ ms ≤ stop.toMillis := by
  obtain ⟨hmin, hmax⟩ := Instant.exists_ofMillis_iff.1 h
  obtain ⟨hvalid, hdays⟩ := Date.ofDays_spec (ms / 86400000)
  have hcalendar : (Date.ofDays (ms / 86400000)).InCalendar := by
    unfold Instant.minSecond Instant.lastMillis Instant.maxSecond at *
    refine ⟨hvalid, ?_, ?_⟩
    · unfold Instant.minSecond
      omega
    · unfold Instant.maxSecond
      omega
  obtain ⟨start, stop, hstart, hstop, hfirst, hlast⟩ := exists_dayEdge hcalendar
  rw [hdays] at hfirst hlast
  refine ⟨Date.ofDays (ms / 86400000), ⟨start, stop, hstart, hstop, ?_, ?_⟩, ?_⟩
  · rw [hfirst]
    show ms / 86400000 * 86400000 ≤ ms
    omega
  · rw [hlast]
    omega
  · rintro e ⟨start', stop', hstart', hstop', hle, hge⟩
    have he := inCalendar_of_dayEdge hstart'
    obtain ⟨first, last, hedge, hedge', hfirst', hlast'⟩ := exists_dayEdge he
    obtain rfl := Option.some.inj (hedge.symm.trans hstart')
    obtain rfl := Option.some.inj (hedge'.symm.trans hstop')
    rw [hfirst'] at hle
    rw [hlast'] at hge
    have hle : e.toDays * 86400000 ≤ ms := hle
    rw [← Date.toDays_inj he.1 hvalid, hdays]
    omega

end Cli

end FolioLedger
