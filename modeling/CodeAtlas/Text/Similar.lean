import CodeAtlas.Text.Basic

/-!
How similar two texts are: the longest part that they share is taken out of both, and so on for
what stands before it and after it. The share of the characters taken out tells the similarity.
-/

namespace CodeAtlas.Text

def sharedLead : List Char → List Char → Nat
  | left :: lefts, right :: rights => if left == right then sharedLead lefts rights + 1 else 0
  | _, _ => 0

structure SharedPart where
  left : Nat
  right : Nat
  size : Nat
deriving DecidableEq

/-- The longest part that two texts share; of several the first one in the first text, then in the
second. -/
def longestShared (left right : List Char) : SharedPart :=
  (List.range left.length).foldl (fun best start =>
    (List.range right.length).foldl (fun best other =>
      let size := sharedLead (left.drop start) (right.drop other)
      if size > best.size then ⟨start, other, size⟩ else best) best) ⟨0, 0, 0⟩

/-- The number of characters in all parts that are taken out. The first argument bounds how often
parts are looked for one inside the other. -/
def sharedCount : Nat → List Char → List Char → Nat
  | 0, _, _ => 0
  | bound + 1, left, right =>
    let part := longestShared left right
    if part.size = 0 then 0
    else
      sharedCount bound (left.take part.left) (right.take part.right) + part.size
        + sharedCount bound (left.drop (part.left + part.size))
            (right.drop (part.right + part.size))

/-- A candidate with the share of its characters and the word's that are taken out, as a fraction. -/
structure Likeness where
  candidate : String
  shared : Nat
  total : Nat

def likeness (word candidate : String) : Likeness :=
  ⟨candidate, 2 * sharedCount (candidate.length + 1) candidate.toList word.toList,
    candidate.length + word.length⟩

/-- Whether one is at least as similar as another; equally similar ones are in reverse order. -/
def Likeness.precedes (left right : Likeness) : Bool :=
  let (first, second) := (left.shared * right.total, right.shared * left.total)
  first > second || (first == second && decide (left.candidate ≥ right.candidate))

/-- At most three candidates of which three fifths are shared, the most similar one first. -/
def similar (word : String) (candidates : List String) : List String :=
  let close := (candidates.map (likeness word)).filter fun found =>
    3 * found.total ≤ 5 * found.shared
  ((close.mergeSort Likeness.precedes).take 3).map (·.candidate)

end CodeAtlas.Text
