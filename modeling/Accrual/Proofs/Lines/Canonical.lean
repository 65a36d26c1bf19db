import Accrual.Proofs.Lines.Pairs
import Accrual.Proofs.Values.Equality
import Mathlib.Data.List.Nodup

/-!
# Canonical lines

The pairs of a console line stand in the order of their keys.  As no two keys of
a context are the same, there is one such order only, and the line does not tell
in which order the context was bound (`Fields.byName_congr`,
`Console.line_ofTexts`).

The items of a context are pairs of a key and a value, and a comparison of two
pairs would go on to the values if the keys were equal.  They never are, so that
the keys decide alone, and values that cannot be compared do no harm
(`sort_items`).
-/

namespace Accrual

/-! ### Sorting the items of a context -/

def Entries.item (pair : Value × Value) : Value := .tuple [pair.1, pair.2]

/-- Keys that differ decide alone, whatever the contents are. -/
theorem lt_item_of_ne {a b : String} (h : a ≠ b) (v w : Value) :
    Value.lt (Entries.item (.text a, v)) (Entries.item (.text b, w)) = .ok (decide (a < b)) :=
  if_neg fun hbeq => h (beq_iff_eq.mp hbeq)

theorem lt_item_self (pair : Value × Value) :
    Value.lt (Entries.item pair) (Entries.item pair) = .ok false := by
  have hkey : Value.beq pair.1 pair.1 = true := Value.beq_self pair.1
  have hcontent : Value.beq pair.2 pair.2 = true := Value.beq_self pair.2
  exact (if_pos hkey).trans (if_pos hcontent)

/-- **The items can be sorted** as pairs of key and content, for no two keys are the same. -/
theorem sort_items {fields : List (String × Value)} (hd : (fields.map Prod.fst).Nodup) :
    Sorting.sort (fun a b => Value.lt (Entries.item a) (Entries.item b)) (Entries.ofTexts fields) =
      .ok (Entries.ofTexts (Fields.byName fields)) := by
  refine sort_ofTexts fun a ha b hb => ?_
  by_cases hab : a.1 = b.1
  · obtain rfl := List.inj_on_of_nodup_map hd ha hb hab
    rw [lt_item_self, decide_eq_false (String.lt_irrefl a.1)]
  · exact lt_item_of_ne hab a.2 b.2

namespace Console

/-- The line of an entry with the given pairs, unless a number is too long to be written out. -/
def lineWith (palette : Palette) (showTimestamp : Bool) (entry : LogEntry) (pairs : Entries) :
    Except Error (List Char) := do
  let time ← timePart palette showTimestamp entry
  if entry.event.isWritable && Value.areEntriesWritable pairs then
    return lineOf palette entry time pairs
  else throw .numberTooLong

theorem line_ofTexts (palette : Palette) (showTimestamp : Bool) (entry : LogEntry)
    {fields : List (String × Value)} (h : entry.context = .ofTexts fields) :
    line palette showTimestamp entry =
      lineWith palette showTimestamp entry (.ofTexts (Fields.byName fields)) := by
  have hpairs : sortedPairs entry.context = .ok (Entries.ofTexts (Fields.byName fields)) := by
    rw [h, sortedPairs_ofTexts]
  rw [line_eq, lineWith, shownPairs_eq hpairs]
  refine bind_congr fun time => ?_
  cases entry.event.isWritable && Value.areEntriesWritable _ <;> rfl

end Console

namespace Renderer

/-- **Console lines are canonical.**  Contexts with the same fields are written alike, in whatever
order they were bound.  The line shows each field once, in the strictly rising order of the keys by
code points, unless a number is too long to be written out.  This is the order in which the items
are sorted as pairs of key and content, and the contents have no part in it: whatever they are, no
comparison gets to them. -/
theorem canonical_line (entry : LogEntry) {fields fields' : List (String × Value)}
    (hd : (fields.map Prod.fst).Nodup) (hd' : (fields'.map Prod.fst).Nodup)
    (hsame : ∀ f, f ∈ fields ↔ f ∈ fields') :
    (∀ (output colors : Value) (showTimestamp : Bool) (s : Store),
      (console output colors showTimestamp).render { entry with context := .ofTexts fields } s =
        (console output colors showTimestamp).render { entry with context := .ofTexts fields' } s) ∧
    ∃ sorted : List (String × Value),
      sorted.Perm fields ∧ (sorted.Pairwise fun a b => a.1 < b.1) ∧
      (∀ (palette : Console.Palette) (showTimestamp : Bool),
        Console.line palette showTimestamp { entry with context := .ofTexts fields } =
          Console.lineWith palette showTimestamp entry (.ofTexts sorted)) ∧
      Sorting.sort (fun a b => Value.lt (Entries.item a) (Entries.item b))
          (Entries.ofTexts fields) = .ok (Entries.ofTexts sorted) ∧
      ∀ a ∈ fields, ∀ b ∈ fields, a ≠ b → ∀ v w,
        Value.lt (Entries.item (.text a.1, v)) (Entries.item (.text b.1, w)) =
          .ok (decide (a.1 < b.1)) := by
  have hbyName := Fields.byName_congr hd (Fields.perm_of_mem_iff hd hd' hsame)
  refine ⟨fun output colors showTimestamp s => ?_, Fields.byName fields, Fields.byName_perm fields,
    Fields.pairwise_lt_byName hd, fun palette showTimestamp => Console.line_ofTexts _ _ _ rfl,
    sort_items hd, fun a ha b hb hne v w => lt_item_of_ne (fun h => ?_) v w⟩
  · rw [render_eq, render_eq, texts, texts, Console.line_ofTexts _ _ _ rfl,
      Console.line_ofTexts _ _ _ rfl, hbyName]
    rfl
  · exact hne (List.inj_on_of_nodup_map hd ha hb h)

/-- Contents that cannot be compared, bound in two orders. -/
theorem canonical_line_mixed :
    let entry : LogEntry := ⟨.zero, "info", .text "saved", []⟩
    let fields : List (String × Value) := [("b", .absent), ("a", .list [])]
    let fields' : List (String × Value) := [("a", .list []), ("b", .absent)]
    Value.lt .absent (.list []) = .error (.notOrdered "NoneType" "list") ∧
    ∃ t, (console (.stream .stderr) .absent false).render
          { entry with context := .ofTexts fields } {} = .ok () t ∧
      (console (.stream .stderr) .absent false).render
          { entry with context := .ofTexts fields' } {} = .ok () t ∧
      t.written = [(.stderr, "[info] saved a=[] b=None\n")] := by
  intro entry fields fields'
  obtain ⟨hsame, -⟩ := @canonical_line entry fields fields' (by decide) (by decide)
    (fun f => by simp [fields, fields', or_comm])
  have hpairs : Console.sortedPairs (Entries.ofTexts fields) = .ok (Entries.ofTexts fields') :=
    (Console.sortedPairs_pair (by decide) ..).2
  have h := @render_of_sortedPairs { entry with context := .ofTexts fields } _ hpairs rfl rfl
    .stderr {}
  exact ⟨rfl, _, h, (hsame ..).symm.trans h, by decide +kernel⟩

end Renderer

end Accrual
