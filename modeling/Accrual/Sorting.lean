import Accrual.Sorting.Merge

/-!
# Sorting with a comparison that may fail

Where all elements can be compared, a list has one stable sorting, however it is found. Where some
cannot, the pairs that are compared decide whether the sorting fails and with which failure; so they
are part of the rule.

The list is cut into runs. A run is an ordered stretch of the list as it is (turned round if it
falls strictly), made longer if it is short by putting in elements one by one by bisection. Runs are
merged as they come up: each run has a power, which says how near to the middle of the whole list
it meets the next one, and neighbours that meet farther from the middle are merged first.
-/

namespace Accrual.Sorting

variable {α ε : Type} (less : α → α → Except ε Bool)

/-- Puts an element into a sorted list, behind all elements that it is not less than. -/
def insert (x : α) (xs : List α) : Except ε (List α) :=
  match _h : xs.drop (xs.length / 2) with
  | [] => .ok [x]
  | middle :: after => do
      if ← less x middle then
        return (← insert x (xs.take (xs.length / 2))) ++ middle :: after
      else
        return xs.take (xs.length / 2) ++ middle :: (← insert x after)
termination_by xs.length
decreasing_by
  all_goals
    have hLength := congrArg List.length _h
    simp only [List.length_drop, List.length_cons, List.length_take] at hLength ⊢
    omega

/-- The elements that go on rising, or go on falling, after the element `last`; and the rest. -/
def stretch (falling : Bool) (last : α) : List α → Except ε (List α × List α)
  | [] => .ok ([], [])
  | x :: xs => do
      if (← less x last) == falling then
        let (more, rest) ← stretch falling x xs
        return (x :: more, rest)
      else return ([], x :: xs)

/-- The run at the beginning of a list, with at least the given length if there are as many
elements; and the rest. -/
def firstRun (length : Nat) : List α → Except ε (List α × List α)
  | [] => .ok ([], [])
  | [x] => .ok ([x], [])
  | x :: y :: xs => do
      let falling ← less y x
      let (more, rest) ← stretch less falling y xs
      let start := if falling then (x :: y :: more).reverse else x :: y :: more
      let run ← (rest.take (length - start.length)).foldlM (fun run z => insert less z run) start
      return (run, rest.drop (length - start.length))

/-- The least length of a run: below 64 that of the list, and else the one that cuts the list into
as many runs as a power of two, or just below. -/
def runLength (n : Nat) : Nat :=
  if n < 64 then n
  else if n % 2 = 0 then runLength (n / 2)
  else roundedUp (n / 2)
where
  /-- The same for a length of which a rest was cut off. -/
  roundedUp (n : Nat) : Nat := if n < 64 then n + 1 else roundedUp (n / 2)

/-- A run that waits to be merged. -/
structure Pending (α : Type) where
  start : Nat
  items : List α
  power : Nat

/-- The first binary place at which the middles of two neighbouring runs, as parts of the whole
length, differ. The middles are given twice as large; the number bounds the places. -/
def powerFrom (length : Nat) : Nat → Nat → Nat → Nat
  | 0, _, _ => 1
  | bound + 1, a, b =>
      if length ≤ a then 1 + powerFrom length bound (2 * (a - length)) (2 * (b - length))
      else if length ≤ b then 1
      else 1 + powerFrom length bound (2 * a) (2 * b)

def power (length start n k : Nat) : Nat :=
  powerFrom length (2 * length) (2 * start + n) (2 * start + n + (n + k))

def mergePending (patience : Nat) (left right : Pending α) : Except ε (Nat × Pending α) := do
  let (patience, items) ← merge less patience left.items right.items
  return (patience, { left with items })

/-- Merges the waiting runs, last one first, that have a greater power than the given one. -/
def mergeAbove (power patience : Nat) : List (Pending α) → Except ε (Nat × List (Pending α))
  | last :: before :: waiting =>
      if power < before.power then do
        let (patience, merged) ← mergePending less patience before last
        mergeAbove power patience (merged :: waiting)
      else .ok (patience, last :: before :: waiting)
  | waiting => .ok (patience, waiting)
termination_by waiting => waiting.length

def push (length patience : Nat) (items : List α) (waiting : List (Pending α)) :
    Except ε (Nat × List (Pending α)) :=
  match waiting with
  | [] => .ok (patience, [⟨0, items, 0⟩])
  | last :: _ => do
      let power := power length last.start last.items.length items.length
      let (patience, waiting) ← mergeAbove less power patience waiting
      match waiting with
      | [] => return (patience, [⟨0, items, 0⟩])
      | last :: waiting =>
          let start := last.start + last.items.length
          return (patience, ⟨start, items, 0⟩ :: { last with power } :: waiting)

/-- Merges all waiting runs. Of three, the outer one that is shorter is merged first. -/
def mergeAll (patience : Nat) : List (Pending α) → Except ε (List α)
  | [] => .ok []
  | [run] => .ok run.items
  | [last, middle] => do return (← mergePending less patience middle last).2.items
  | last :: middle :: first :: waiting => do
      if first.items.length < last.items.length then
        let (patience, merged) ← mergePending less patience first middle
        mergeAll patience (last :: merged :: waiting)
      else
        let (patience, merged) ← mergePending less patience middle last
        mergeAll patience (merged :: first :: waiting)
termination_by waiting => waiting.length

/-- Cuts a list into runs and merges them. The numbers are the length of the whole list and a bound
for the runs. -/
def mergeRuns (length : Nat) :
    Nat → Nat → List (Pending α) → List α → Except ε (List α)
  | 0, patience, waiting, _ | _, patience, waiting, [] => mergeAll less patience waiting
  | bound + 1, patience, waiting, x :: xs => do
      let (run, rest) ← firstRun less (runLength length) (x :: xs)
      let (patience, waiting) ← push less length patience run waiting
      mergeRuns length bound patience waiting rest

/-- The patience that the first merge starts with. -/
def firstPatience : Nat := 7

def sortByRuns (xs : List α) : Except ε (List α) :=
  mergeRuns less xs.length xs.length firstPatience [] xs

/-- Whether an element is known to be less than another one. -/
def isLess (a b : α) : Bool := (less a b).toOption.getD false

def sort (xs : List α) : Except ε (List α) :=
  if xs.all fun a => xs.all fun b => (less a b).isOk then
    .ok (xs.mergeSort fun a b => !isLess less b a)
  else sortByRuns less xs

end Accrual.Sorting
