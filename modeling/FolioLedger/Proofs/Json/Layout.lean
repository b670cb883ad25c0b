import FolioLedger.Proofs.Json.Scalar

/-!
# Printed JSON is read back

Both printers spell a value in the same way and differ in the blanks that they put between its parts.
A `Layout` says which blanks, `Json.compact` and `Json.indented` are two of them
(`Json.toList_compact`, `Json.toList_indented`), and whatever the blanks are the reader gives the value
back (`Json.parse?_spell`).
-/

namespace FolioLedger.Json

/-! ## Layouts -/

/-- The blanks that a printer puts before each item of a level and before what closes it, and between
a key and its value. -/
structure Layout where
  line : Nat → List Char
  gap : List Char
  line_blank : ∀ level, ∀ c ∈ line level, isSpace c = true
  gap_blank : ∀ c ∈ gap, isSpace c = true

namespace Layout

mutual

/-- The spelling of a value that stands at a level. -/
def spell (l : Layout) (level : Nat) : Json → List Char
  | .array (item :: items) =>
    '[' :: (l.line (level + 1) ++ (spell l (level + 1) item ++ spellItems l level items))
  | .object ((key, value) :: members) =>
    '{' :: (l.line (level + 1) ++ ((quoteText key).toList ++ ':' :: (l.gap ++
      (spell l (level + 1) value ++ spellMembers l level members))))
  | scalar => (printScalar scalar).toList

/-- The items after the first, and the closing bracket. -/
def spellItems (l : Layout) (level : Nat) : List Json → List Char
  | [] => l.line level ++ [']']
  | item :: items =>
    ',' :: (l.line (level + 1) ++ (spell l (level + 1) item ++ spellItems l level items))

/-- The members after the first, and the closing brace. -/
def spellMembers (l : Layout) (level : Nat) : List (Option String × Json) → List Char
  | [] => l.line level ++ ['}']
  | (key, value) :: members =>
    ',' :: (l.line (level + 1) ++ ((quoteText key).toList ++ ':' :: (l.gap ++
      (spell l (level + 1) value ++ spellMembers l level members))))

end

/-- No blanks. -/
def tight : Layout := ⟨fun _ => [], [], by simp, by simp⟩

/-- A line for each item, and a blank after each colon. -/
def airy : Layout where
  line level := '\n' :: List.replicate (2 * level) ' '
  gap := [' ']
  line_blank level c hc := by
    rcases List.mem_cons.1 hc with rfl | hc
    · rfl
    · rw [List.eq_of_mem_replicate hc]
      rfl
  gap_blank c hc := by
    rw [List.mem_singleton.1 hc]
    rfl

end Layout

open Layout

mutual

theorem toList_compact (level : Nat) : ∀ j, (compact j).toList = tight.spell level j
  | .array (item :: items) => by
    simp [compact, spell, tight, toList_compact (level + 1) item, toList_compactItems level items]
  | .object ((key, value) :: members) => by
    simp [compact, spell, tight, toList_compact (level + 1) value,
      toList_compactMembers level members]
  | .array [] | .object [] | .null | .bool _ | .int _ | .real _ | .string _ => by
    simp [compact, spell]

theorem toList_compactItems (level : Nat) :
    ∀ items, (compactItems items).toList = tight.spellItems level items
  | [] => by simp [compactItems, spellItems, tight]
  | item :: items => by
    simp [compactItems, spellItems, tight, toList_compact (level + 1) item,
      toList_compactItems level items]

theorem toList_compactMembers (level : Nat) :
    ∀ members, (compactMembers members).toList = tight.spellMembers level members
  | [] => by simp [compactMembers, spellMembers, tight]
  | (key, value) :: members => by
    simp [compactMembers, spellMembers, tight, toList_compact (level + 1) value,
      toList_compactMembers level members]

end

theorem toList_newline (level : Nat) : (newline level).toList = airy.line level := by
  simp [newline, airy]

mutual

theorem toList_indented (level : Nat) : ∀ j, (indented level j).toList = airy.spell level j
  | .array (item :: items) => by
    simp [indented, spell, toList_newline, toList_indented (level + 1) item,
      toList_indentedItems level items]
  | .object ((key, value) :: members) => by
    simp [indented, spell, toList_newline, toList_indented (level + 1) value,
      toList_indentedMembers level members, airy]
  | .array [] | .object [] | .null | .bool _ | .int _ | .real _ | .string _ => by
    simp [indented, spell]

theorem toList_indentedItems (level : Nat) :
    ∀ items, (indentedItems level items).toList = airy.spellItems level items
  | [] => by simp [indentedItems, spellItems, toList_newline]
  | item :: items => by
    simp [indentedItems, spellItems, toList_newline, toList_indented (level + 1) item,
      toList_indentedItems level items]

theorem toList_indentedMembers (level : Nat) :
    ∀ members, (indentedMembers level members).toList = airy.spellMembers level members
  | [] => by simp [indentedMembers, spellMembers, toList_newline]
  | (key, value) :: members => by
    simp [indentedMembers, spellMembers, toList_newline, toList_indented (level + 1) value,
      toList_indentedMembers level members, airy]

end

/-! ## What can be read back -/

mutual

/-- All numbers of the value fit a word of 64 bits. -/
def Fits : Json → Prop
  | .int n => FitsWord n
  | .real _ => False
  | .array items => FitsItems items
  | .object members => FitsMembers members
  | _ => True

def FitsItems : List Json → Prop
  | [] => True
  | item :: items => Fits item ∧ FitsItems items

def FitsMembers : List (Option String × Json) → Prop
  | [] => True
  | (_, value) :: members => Fits value ∧ FitsMembers members

end

/-! ## Reading past blanks -/

section

variable {before cs rest : List Char} {c : Char}

theorem skipSpace_append (h : ∀ c ∈ before, isSpace c = true) (cs : List Char) :
    skipSpace (before ++ cs) = skipSpace cs :=
  List.dropWhile_append_of_pos h

theorem skipSpace_cons (h : isSpace c = false) (cs : List Char) : skipSpace (c :: cs) = c :: cs :=
  List.dropWhile_cons_of_neg (by simp [h])

theorem skipSpace_blank_cons (h : ∀ c ∈ before, isSpace c = true) (hc : isSpace c = false)
    (cs : List Char) : skipSpace (before ++ c :: cs) = c :: cs := by
  rw [skipSpace_append h, skipSpace_cons hc]

theorem ends_cons (hc : c.isDigit = false ∧ c ≠ '.' ∧ c ≠ 'e' ∧ c ≠ 'E') (cs : List Char) :
    Ends (c :: cs) := by
  intro d hd
  obtain rfl : c = d := by simpa using hd
  exact hc

/-- Blanks end a number, and so does what closes or divides. -/
theorem ends_blank_cons (h : ∀ c ∈ before, isSpace c = true)
    (hc : c.isDigit = false ∧ c ≠ '.' ∧ c ≠ 'e' ∧ c ≠ 'E') (cs : List Char) :
    Ends (before ++ c :: cs) := by
  cases before with
  | nil => exact ends_cons hc cs
  | cons b before =>
    intro d hd
    obtain rfl : b = d := by simpa using hd
    have hb : b = ' ' ∨ b = '\n' ∨ b = '\t' ∨ b = '\r' := by
      simpa [isSpace, or_assoc] using h b List.mem_cons_self
    rcases hb with rfl | rfl | rfl | rfl <;> decide

end

namespace Layout

variable (l : Layout)

theorem ends_items (level : Nat) (items : List Json) (rest : List Char) :
    Ends (l.spellItems level items ++ rest) := by
  cases items with
  | nil =>
    rw [spellItems, List.append_assoc]
    exact ends_blank_cons (l.line_blank level) (by decide) rest
  | cons item items => exact ends_cons (by decide) _

theorem ends_members (level : Nat) (members : List (Option String × Json)) (rest : List Char) :
    Ends (l.spellMembers level members ++ rest) := by
  cases members with
  | nil =>
    rw [spellMembers, List.append_assoc]
    exact ends_blank_cons (l.line_blank level) (by decide) rest
  | cons member members => exact ends_cons (by decide) _

/-! ## Reading what was spelt -/

/-- After any blanks the value is read back, with as much fuel as its spelling is long. -/
def Reads (level : Nat) (j : Json) : Prop :=
  ∀ (fuel : Nat) (before rest : List Char), (l.spell level j).length ≤ fuel →
    (∀ c ∈ before, isSpace c = true) → Ends rest →
    readValue? fuel (before ++ (l.spell level j ++ rest)) = some (j, rest)

variable {l} {level : Nat}

/-- A value whose spelling starts with a character that is no blank is read from that character. -/
theorem reads_of_head {w : Char} {ws : List Char} {j : Json} (hspell : l.spell level j = w :: ws)
    (hw : isSpace w = false)
    (hread : ∀ fuel rest, ws.length ≤ fuel → Ends rest →
      readValue? (fuel + 1) (w :: (ws ++ rest)) = some (j, rest)) : l.Reads level j := by
  intro fuel before rest hfuel hbefore hrest
  rw [hspell] at hfuel ⊢
  obtain ⟨fuel, rfl⟩ := Nat.exists_eq_add_one_of_ne_zero (n := fuel) (by simp at hfuel; omega)
  rw [← hread fuel rest (by simpa using hfuel) hrest]
  simp only [readValue?, List.cons_append, skipSpace_blank_cons hbefore hw, skipSpace_cons hw]

theorem reads_string (t : Option String) : l.Reads level (.string t) := by
  obtain ⟨cs, hquote, -⟩ := readText?_quoteText t []
  refine reads_of_head (w := '"') hquote rfl ?_
  intro fuel rest _ _
  obtain ⟨cs', hquote', hread⟩ := readText?_quoteText t rest
  obtain rfl : cs = cs' := (List.cons.inj (hquote.symm.trans hquote')).2
  simp [readValue?, skipSpace_cons, hread, show isSpace '"' = false from rfl]

theorem head_signed (n : Int) :
    ∃ w ws, (Numeral.signed n).toList = w :: ws ∧ (w.isDigit = true ∨ w = '-') := by
  cases n with
  | ofNat k =>
    obtain ⟨w, ws, hcons⟩ := List.exists_cons_of_ne_nil (Nat.toDigits_ne_nil (b := 10) (n := k))
    have hdigit : w.isDigit = true :=
      Nat.isDigit_of_mem_toDigits (by decide) (by decide) (hcons ▸ List.mem_cons_self)
    exact ⟨w, ws, (toList_padded_one k).trans hcons, .inl hdigit⟩
  | negSucc k =>
    exact ⟨'-', _, String.toList_append (s := "-") (t := Numeral.padded 1 (k + 1)), .inr rfl⟩

theorem reads_int {n : Int} (hn : FitsWord n) : l.Reads level (.int n) := by
  obtain ⟨w, ws, hcons, hw⟩ := head_signed n
  have hne : ∀ c : Char, c.isDigit = false → c ≠ '-' → w ≠ c := by
    rintro c hdigit hminus rfl
    rcases hw with hw | hw
    · simp [hdigit] at hw
    · exact hminus hw
  have hblank : isSpace w = false := by
    simp [isSpace, hne ' ' rfl (by decide), hne '\n' rfl (by decide), hne '\t' rfl (by decide),
      hne '\r' rfl (by decide)]
  refine reads_of_head hcons hblank ?_
  intro fuel rest _ hrest
  have hread : readNumber? (w :: (ws ++ rest)) = some (.int n, rest) := by
    rw [← readNumber?_signed hn hrest, hcons, List.cons_append]
  -- No other form of a value starts with a digit or a minus sign.
  simp only [readValue?, skipSpace_cons hblank, hne '"' rfl (by decide), hne '[' rfl (by decide),
    hne '\x7b' rfl (by decide), hne 'n' rfl (by decide), hne 't' rfl (by decide),
    hne 'f' rfl (by decide), if_false, hread]

/-- No spelling starts with a blank or with what closes an array. -/
theorem head_spell (level : Nat) (j : Json) :
    ∃ w ws, l.spell level j = w :: ws ∧ isSpace w = false ∧ w ≠ ']' := by
  cases j with
  | null => exact ⟨'n', _, rfl, rfl, by decide⟩
  | bool b => cases b <;> exact ⟨_, _, rfl, rfl, by decide⟩
  | int n =>
    obtain ⟨w, ws, hcons, hw⟩ := head_signed n
    refine ⟨w, ws, hcons, ?_, ?_⟩
    · by_contra hspace
      have hspace : w = ' ' ∨ w = '\n' ∨ w = '\t' ∨ w = '\r' := by
        simpa only [isSpace, Bool.not_eq_false, Bool.or_eq_true, decide_eq_true_eq, or_assoc]
          using hspace
      rcases hspace with rfl | rfl | rfl | rfl <;> simp at hw
    · rintro rfl
      simp at hw
  | real finite => cases finite <;> exact ⟨_, _, rfl, rfl, by decide⟩
  | string t =>
    obtain ⟨cs, hquote, -⟩ := readText?_quoteText t []
    exact ⟨'"', cs, hquote, rfl, by decide⟩
  | array items => cases items <;> exact ⟨'[', _, rfl, rfl, by decide⟩
  | object members => cases members <;> exact ⟨'\x7b', _, rfl, rfl, by decide⟩

/-- The items after one that is read back are read back with it. -/
def ReadsItems (l : Layout) (level : Nat) (items : List Json) : Prop :=
  ∀ (fuel : Nat) (before rest : List Char) (item : Json), l.Reads (level + 1) item →
    (l.spell (level + 1) item).length + (l.spellItems level items).length ≤ fuel →
    (∀ c ∈ before, isSpace c = true) →
    readItems? fuel (before ++ (l.spell (level + 1) item ++ (l.spellItems level items ++ rest))) =
      some (item :: items, rest)

theorem readsItems_nil : l.ReadsItems level [] := by
  intro fuel before rest item hitem hfuel hbefore
  rw [spellItems, List.length_append, List.length_singleton] at hfuel
  obtain ⟨fuel, rfl⟩ := Nat.exists_eq_add_one_of_ne_zero (n := fuel) (by omega)
  have hread := hitem fuel before _ (by omega) hbefore (l.ends_items level [] rest)
  have hclose : skipSpace (l.spellItems level [] ++ rest) = ']' :: rest := by
    rw [spellItems, List.append_assoc]
    exact skipSpace_blank_cons (l.line_blank level) rfl rest
  simp only [readItems?, hread, hclose, Option.bind_eq_bind, Option.bind_some]

theorem readsItems_cons {next : Json} {items : List Json} (hnext : l.Reads (level + 1) next)
    (hitems : l.ReadsItems level items) : l.ReadsItems level (next :: items) := by
  intro fuel before rest item hitem hfuel hbefore
  rw [spellItems, List.length_cons, List.length_append, List.length_append] at hfuel
  obtain ⟨fuel, rfl⟩ := Nat.exists_eq_add_one_of_ne_zero (n := fuel) (by omega)
  have hread := hitem fuel before _ (by omega) hbefore (l.ends_items level (next :: items) rest)
  have htail := hitems fuel _ rest next hnext (by omega) (l.line_blank (level + 1))
  have hcomma : skipSpace (l.spellItems level (next :: items) ++ rest) =
      ',' :: (l.line (level + 1) ++
        (l.spell (level + 1) next ++ (l.spellItems level items ++ rest))) := by
    rw [spellItems, List.cons_append, skipSpace_cons rfl, List.append_assoc, List.append_assoc]
  simp only [readItems?, hread, hcomma, htail, Option.bind_eq_bind, Option.bind_some]

theorem reads_array {item : Json} {items : List Json} (hitem : l.Reads (level + 1) item)
    (hitems : l.ReadsItems level items) : l.Reads level (.array (item :: items)) := by
  refine reads_of_head (w := '[') (by rw [spell]) rfl ?_
  intro fuel rest hfuel _
  rw [List.length_append, List.length_append] at hfuel
  have hread := hitems fuel [] rest item hitem (by omega) (by simp)
  obtain ⟨w, ws, hspell, hw, hopen⟩ := l.head_spell (level + 1) item
  have hskip : skipSpace (l.line (level + 1) ++
      (l.spell (level + 1) item ++ (l.spellItems level items ++ rest))) =
      w :: (ws ++ (l.spellItems level items ++ rest)) := by
    rw [hspell, List.cons_append, skipSpace_blank_cons (l.line_blank _) hw]
  rw [hspell, List.nil_append, List.cons_append] at hread
  simp [readValue?, skipSpace_cons, show isSpace '[' = false from rfl, hskip, hopen, hread]

/-- The members after one whose value is read back are read back with it. -/
def ReadsMembers (l : Layout) (level : Nat) (members : List (Option String × Json)) : Prop :=
  ∀ (fuel : Nat) (before rest : List Char) (key : Option String) (value : Json),
    l.Reads (level + 1) value →
    (l.spell (level + 1) value).length + (l.spellMembers level members).length ≤ fuel →
    (∀ c ∈ before, isSpace c = true) →
    readMembers? fuel (before ++ ((quoteText key).toList ++ ':' :: (l.gap ++
      (l.spell (level + 1) value ++ (l.spellMembers level members ++ rest))))) =
      some ((key, value) :: members, rest)

/-- A key and its value are read before what follows them. -/
theorem readMembers?_cons {fuel : Nat} {before rest : List Char} {key : Option String}
    {value : Json} (hvalue : l.Reads (level + 1) value)
    (hfuel : (l.spell (level + 1) value).length ≤ fuel) (hbefore : ∀ c ∈ before, isSpace c = true)
    (hrest : Ends rest) :
    readMembers? (fuel + 1) (before ++ ((quoteText key).toList ++ ':' :: (l.gap ++
      (l.spell (level + 1) value ++ rest)))) =
      match skipSpace rest with
      | ',' :: cs => (readMembers? fuel cs).map fun r => ((key, value) :: r.1, r.2)
      | '\x7d' :: cs => some ([(key, value)], cs)
      | _ => none := by
  obtain ⟨cs, hquote, hkey⟩ :=
    readText?_quoteText key (':' :: (l.gap ++ (l.spell (level + 1) value ++ rest)))
  have hread := hvalue fuel _ rest hfuel l.gap_blank hrest
  rw [hquote, List.cons_append]
  simp only [readMembers?, skipSpace_blank_cons hbefore (show isSpace '"' = false from rfl), hkey,
    Option.bind_eq_bind, Option.bind_some, skipSpace_cons (show isSpace ':' = false from rfl), hread]
  cases skipSpace rest with
  | nil => rfl
  | cons c tail =>
    by_cases hcomma : c = ','
    · subst hcomma
      show (readMembers? fuel tail).bind _ = (readMembers? fuel tail).map _
      cases readMembers? fuel tail <;> rfl
    by_cases hbrace : c = '\x7d'
    · subst hbrace
      rfl
    · simp [hcomma, hbrace]

theorem readsMembers_nil : l.ReadsMembers level [] := by
  intro fuel before rest key value hvalue hfuel hbefore
  rw [spellMembers, List.length_append, List.length_singleton] at hfuel
  obtain ⟨fuel, rfl⟩ := Nat.exists_eq_add_one_of_ne_zero (n := fuel) (by omega)
  have hclose : skipSpace (l.spellMembers level [] ++ rest) = '\x7d' :: rest := by
    rw [spellMembers, List.append_assoc]
    exact skipSpace_blank_cons (l.line_blank level) rfl rest
  rw [readMembers?_cons hvalue (by omega) hbefore (l.ends_members level [] rest), hclose]
  rfl

theorem readsMembers_cons {key : Option String} {value : Json}
    {members : List (Option String × Json)} (hvalue : l.Reads (level + 1) value)
    (hmembers : l.ReadsMembers level members) : l.ReadsMembers level ((key, value) :: members) := by
  intro fuel before rest key' value' hvalue' hfuel hbefore
  rw [spellMembers] at hfuel
  simp only [List.length_cons, List.length_append] at hfuel
  obtain ⟨fuel, rfl⟩ := Nat.exists_eq_add_one_of_ne_zero (n := fuel) (by omega)
  have htail := hmembers fuel _ rest key value hvalue (by omega) (l.line_blank (level + 1))
  have hcomma : skipSpace (l.spellMembers level ((key, value) :: members) ++ rest) =
      ',' :: (l.line (level + 1) ++ ((quoteText key).toList ++ ':' :: (l.gap ++
        (l.spell (level + 1) value ++ (l.spellMembers level members ++ rest))))) := by
    rw [spellMembers, List.cons_append, skipSpace_cons rfl]
    simp only [List.append_assoc, List.cons_append]
  rw [readMembers?_cons hvalue' (by omega) hbefore (l.ends_members level _ rest), hcomma]
  simp only [htail, Option.map_some]

theorem reads_object {key : Option String} {value : Json} {members : List (Option String × Json)}
    (hvalue : l.Reads (level + 1) value) (hmembers : l.ReadsMembers level members) :
    l.Reads level (.object ((key, value) :: members)) := by
  refine reads_of_head (w := '\x7b') (by rw [spell]) rfl ?_
  intro fuel rest hfuel _
  simp only [List.length_cons, List.length_append] at hfuel
  have hread := hmembers fuel [] rest key value hvalue (by omega) (by simp)
  obtain ⟨cs, hquote, -⟩ := readText?_quoteText key []
  have hskip : skipSpace (l.line (level + 1) ++ ((quoteText key).toList ++ ':' :: (l.gap ++
      (l.spell (level + 1) value ++ (l.spellMembers level members ++ rest))))) =
      '"' :: (cs ++ ':' :: (l.gap ++
        (l.spell (level + 1) value ++ (l.spellMembers level members ++ rest)))) := by
    rw [hquote, List.cons_append, skipSpace_blank_cons (l.line_blank _) rfl]
  rw [hquote, List.nil_append, List.cons_append] at hread
  simp [readValue?, skipSpace_cons, show isSpace '\x7b' = false from rfl, hskip, hread]

mutual

theorem reads (level : Nat) : ∀ j, Fits j → l.Reads level j
  | .null, _ => reads_of_head (w := 'n') rfl rfl fun _ _ _ _ => rfl
  | .bool true, _ => reads_of_head (w := 't') rfl rfl fun _ _ _ _ => rfl
  | .bool false, _ => reads_of_head (w := 'f') rfl rfl fun _ _ _ _ => rfl
  | .int _, h => reads_int h
  | .string t, _ => reads_string t
  | .array [], _ => reads_of_head (w := '[') rfl rfl fun _ _ _ _ => rfl
  | .array (item :: items), h =>
    reads_array (reads (level + 1) item h.1) (readsItems level items h.2)
  | .object [], _ => reads_of_head (w := '\x7b') rfl rfl fun _ _ _ _ => rfl
  | .object ((_, value) :: members), h =>
    reads_object (reads (level + 1) value h.1) (readsMembers level members h.2)

theorem readsItems (level : Nat) : ∀ items, FitsItems items → l.ReadsItems level items
  | [], _ => readsItems_nil
  | item :: items, h =>
    readsItems_cons (reads (level + 1) item h.1) (readsItems level items h.2)

theorem readsMembers (level : Nat) : ∀ members, FitsMembers members → l.ReadsMembers level members
  | [], _ => readsMembers_nil
  | (_, value) :: members, h =>
    readsMembers_cons (reads (level + 1) value h.1) (readsMembers level members h.2)

end

end Layout

variable {j : Json}

theorem parse?_spell (l : Layout) (level : Nat) (h : Fits j) :
    parse? (l.spell level j) = some j := by
  have hread := l.reads level j h ((l.spell level j).length + 1) [] [] (Nat.le_succ _) (by simp)
    (by simp [Ends])
  rw [List.nil_append, List.append_nil] at hread
  unfold parse?
  rw [hread]
  rfl

theorem parse?_compact (h : Fits j) : parse? (compact j).toList = some j := by
  rw [toList_compact 0, parse?_spell tight 0 h]

theorem parse?_pretty (h : Fits j) : parse? (pretty j).toList = some j := by
  rw [pretty, toList_indented, parse?_spell airy 0 h]

end FolioLedger.Json
