/-!
# Searching from one end

How many elements at the beginning of a sorted list belong in front of something else. The first
element is looked at, then elements at distances that double, and what is left between the last two
of them is halved. A list that has been turned round is halved the other way, so that the same
elements are looked at as from the other end.
-/

namespace Accrual.Sorting

variable {α ε : Type} (inFront : α → Except ε Bool) (xs : List α)

/-- The place of the last element looked at that belongs in front, and the place of the next one,
which does not, or which the list does not have. -/
def stride (last next : Nat) : Except ε (Nat × Nat) :=
  match _h : xs[next]? with
  | none => .ok (last, xs.length)
  | some x => do
      if ← inFront x then stride next (2 * next + 1) else return (last, next)
termination_by xs.length - next
decreasing_by
  have hLength := (List.getElem?_eq_some_iff.mp _h).1
  omega

/-- Halves the places from `low` to `high`, of which the elements before `low` belong in front and
those from `high` on do not. -/
def halve (turned : Bool) (low high : Nat) : Except ε Nat :=
  if _h : low < high then
    let middle := if turned then high - 1 - (high - low) / 2 else low + (high - low) / 2
    match xs[middle]? with
    | none => .ok low
    | some x => do
        if ← inFront x then halve turned (middle + 1) high else halve turned low middle
  else .ok low
termination_by high - low
decreasing_by all_goals grind

/-- The number of elements that belong in front. -/
def reach (turned : Bool) : Except ε Nat :=
  match xs with
  | [] => .ok 0
  | x :: _ => do
      if ← inFront x then
        let (last, next) ← stride inFront xs 0 1
        halve inFront xs turned (last + 1) next
      else return 0

end Accrual.Sorting
