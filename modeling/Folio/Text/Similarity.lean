/-!
# Similar words

How similar two words are, from 0 to 1 (Jaro's measure): characters match if they are equal and
not too far apart, each is used once, and matches in another order count for less.
-/

namespace Folio.Text

/-- The characters of `a` that match, with the indices in `b` that they match. -/
def matching (a b : List Char) : List (Char × Nat) :=
  let range := max a.length b.length / 2 - 1
  a.zipIdx.foldl (fun found (c, i) =>
    let near := (b.zipIdx.take (i + range + 1)).drop (i - range)
    match near.find? fun (d, j) => c == d && !found.any (·.2 == j) with
    | some (_, j) => found ++ [(c, j)]
    | none => found) []

/-- The matches whose characters come in another order in `b`. -/
def misplaced (b : List Char) (found : List (Char × Nat)) : Nat :=
  let inOrder := (b.zipIdx.filter fun (_, j) => found.any (·.2 == j)).map (·.1)
  ((found.map (·.1)).zip inOrder).countP fun (c, d) => c != d

def similarity (a b : List Char) : Float :=
  if a.isEmpty && b.isEmpty then 1
  else
    let found := matching a b
    if found.isEmpty then 0
    else
      let m := found.length
      let t := misplaced b found / 2
      (m.toFloat / a.length.toFloat + m.toFloat / b.length.toFloat +
        (m - t).toFloat / m.toFloat) / 3

/-- The most similar of some words, if it is similar enough; of equals the last. -/
def closest? (s : String) (words : List String) : Option String :=
  (words.foldl (fun (best : Option (Float × String)) w =>
    let likeness := similarity s.toList w.toList
    if likeness > 0.7 && best.all (fun b => !(b.1 > likeness)) then some (likeness, w)
    else best) none).map (·.2)

end Folio.Text
