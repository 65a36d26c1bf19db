import Accrual.Sorting.Reach

/-!
# Merging two runs

Two sorted runs are merged from one end. At first their heads are compared one by one. Once one run
has won often enough in a row, the runs move in stretches, each as long as a search finds it, until
the stretches get short; then the heads are compared again. How often is enough is the patience of
the merge: it shrinks while stretches are long and grows when they get short.

The head of the second run is known to come first, and the last element of the first run to come
last. So the merge is over when the second run is used up or the first one has one element left.
-/

namespace Accrual.Sorting

structure Merging (α : Type) where
  /-- What has been merged, latest first. -/
  merged : List α
  first : List α
  second : List α

namespace Merging

variable {α ε : Type}

def isOver (m : Merging α) : Bool := m.first.length ≤ 1 || m.second.isEmpty

def result (m : Merging α) : List α := m.merged.reverse ++ m.second ++ m.first

def takeFirst (n : Nat) (m : Merging α) : Merging α :=
  { m with merged := (m.first.take n).reverse ++ m.merged, first := m.first.drop n }

def takeSecond (n : Nat) (m : Merging α) : Merging α :=
  { m with merged := (m.second.take n).reverse ++ m.merged, second := m.second.drop n }

/-- Whether the merge goes from the end of the runs, which have been turned round. Whether the head
of the second run comes next is asked by comparing the heads one way or the other. -/
def secondNext (less : α → α → Except ε Bool) (turned : Bool) (a b : α) : Except ε Bool :=
  if turned then less a b else less b a

variable (less : α → α → Except ε Bool) (turned : Bool)

/-- Compares heads until the merge is over or one run has won often enough in a row. -/
def compareHeads (patience : Nat) (merged : List α) (firstWins secondWins : Nat) :
    List α → List α → Except ε (Merging α)
  | [], second => .ok ⟨merged, [], second⟩
  | a :: first, [] => .ok ⟨merged, a :: first, []⟩
  | a :: first, b :: second =>
      if first.isEmpty then .ok ⟨merged, a :: first, b :: second⟩
      else do
        if ← secondNext less turned a b then
          if patience ≤ secondWins + 1 then return ⟨b :: merged, a :: first, second⟩
          else compareHeads patience (b :: merged) 0 (secondWins + 1) (a :: first) second
        else
          if patience ≤ firstWins + 1 then return ⟨a :: merged, first, b :: second⟩
          else compareHeads patience (a :: merged) (firstWins + 1) 0 first (b :: second)
termination_by first second => first.length + second.length

/-- Moves the stretch of the first run that comes before the head of the second one, and then that
head. -/
def moveFirst (m : Merging α) : Except ε (Nat × Merging α) :=
  match m.second with
  | [] => .ok (0, m)
  | b :: _ => do
      let n ← reach (fun x => (!·) <$> secondNext less turned x b) m.first turned
      let m := m.takeFirst n
      return (n, if m.isOver then m else m.takeSecond 1)

/-- Moves the stretch of the second run that comes before the head of the first one, and then that
head. -/
def moveSecond (m : Merging α) : Except ε (Nat × Merging α) :=
  match m.first with
  | [] => .ok (0, m)
  | a :: _ => do
      let n ← reach (fun x => secondNext less turned a x) m.second turned
      let m := m.takeSecond n
      return (n, if m.isOver then m else m.takeFirst 1)

/-- A stretch of at least this length is long. -/
def longStretch : Nat := 7

/-- Moves stretches of both runs by turns, as long as one of two is long. The patience comes with
the result. The number bounds the turns. -/
def moveStretches : Nat → Nat → Merging α → Except ε (Nat × Merging α)
  | 0, patience, m => .ok (patience, m)
  | bound + 1, patience, m => do
      let patience := if 1 < patience then patience - 1 else patience
      let (n, m) ← if turned then moveSecond less turned m else moveFirst less turned m
      if m.isOver then return (patience, m)
      let (k, m) ← if turned then moveFirst less turned m else moveSecond less turned m
      if m.isOver then return (patience, m)
      if longStretch ≤ n ∨ longStretch ≤ k then moveStretches bound patience m
      else return (patience + 1, m)

/-- Compares heads and moves stretches until the merge is over. The number bounds the changes
between the two. -/
def run : Nat → Nat → Merging α → Except ε (Nat × Merging α)
  | 0, patience, m => .ok (patience, m)
  | bound + 1, patience, m => do
      let m ← compareHeads less turned patience m.merged 0 0 m.first m.second
      if m.isOver then return (patience, m)
      let (patience, m) ← moveStretches less turned bound (patience + 1) m
      if m.isOver then return (patience, m) else run bound patience m

end Merging

variable {α ε : Type} (less : α → α → Except ε Bool)

/-- Merges two runs, of which the second one has the first head and the first one the last element.
-/
def mergeInner (turned : Bool) (patience : Nat) (first second : List α) :
    Except ε (Nat × List α) := do
  let m : Merging α := Merging.takeSecond 1 ⟨[], first, second⟩
  let (patience, m) ←
    if m.isOver then pure (patience, m)
    else Merging.run less turned (first.length + second.length) patience m
  return (patience, m.result)

/-- Merges two runs. What is in place already, at the beginning of the first run and at the end of
the second one, is set aside, and the merge starts from the end of the shorter run. -/
def merge (patience : Nat) (first second : List α) : Except ε (Nat × List α) :=
  match second with
  | [] => .ok (patience, first)
  | head :: _ => do
      let before ← reach (fun x => (!·) <$> less head x) first false
      match (first.drop before).getLast? with
      | none => return (patience, first ++ second)
      | some last =>
          let after ← reach (fun x => (!·) <$> less x last) second.reverse true
          let left := first.drop before
          let right := second.take (second.length - after)
          let (patience, inner) ←
            if right.isEmpty then pure (patience, left)
            else if left.length ≤ right.length then mergeInner less false patience left right
            else
              (fun m => (m.1, m.2.reverse)) <$>
                mergeInner less true patience right.reverse left.reverse
          return (patience,
            first.take before ++ inner ++ second.drop (second.length - after))

end Accrual.Sorting
