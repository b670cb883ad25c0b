/-!
# Similar words

The Jaro similarity of two words: a mean of three shares, of the common characters in either word
and of those that stand in the same order.  Characters are common only near the same place.
-/

namespace FolioLedger.Similarity

/-- How far apart the places of a common character may be. -/
def reach (a b : List Char) : Nat :=
  max a.length b.length / 2 - 1

/-- The first place, near place `i`, of a character that is not taken yet. -/
def partner? (b : List Char) (taken : List Nat) (reach i : Nat) (c : Char) : Option Nat :=
  (List.range b.length).find? fun j =>
    i ≤ j + reach && j ≤ i + reach && b[j]? = some c && !taken.contains j

/-- The places of common characters, those of the first word with those of the second. -/
def partners (a b : List Char) : List (Nat × Nat) :=
  (List.range a.length).foldl (fun (found : List (Nat × Nat)) i =>
    match a[i]?.bind (partner? b (found.map (·.2)) (reach a b) i) with
    | some j => found ++ [(i, j)]
    | none => found) []

/-- The similarity of two words, as a fraction. -/
def jaro (a b : String) : Nat × Nat :=
  let (a, b) := (a.toList, b.toList)
  let found := partners a b
  let inOrder := (List.range b.length).filter fun j => found.any (·.2 = j)
  let swapped := ((found.map (·.1)).zip inOrder).countP fun (i, j) => a[i]? ≠ b[j]?
  let common := found.length
  if common = 0 then (0, 1)
  else
    let (m, k, n) := (common, a.length, b.length)
    (m * m * n + m * m * k + (m - swapped / 2) * k * n, 3 * m * k * n)

/-- The word of a list that is most similar to a given one, if any is similar to more than seven
tenths. -/
def closest? (word : String) (choices : List String) : Option String :=
  let better := fun (best : Option (String × Nat × Nat)) (choice : String) =>
    let (p, q) := jaro word choice
    if 10 * p ≤ 7 * q then best
    else match best with
      | some (_, p', q') => if p * q' < p' * q then best else some (choice, p, q)
      | none => some (choice, p, q)
  (choices.foldl better none).map (·.1)

end FolioLedger.Similarity
