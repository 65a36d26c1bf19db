import Accrual.Log.Console
import Mathlib.Data.List.Nodup

/-!
# Fields in the order of their names

There is one order by names only for fields whose names all differ
(`Fields.byName_congr`), and a comparison that goes by names sorts into it
(`sort_ofTexts`).  Pairs of a context are compared by their keys, so that a
context whose keys are texts can be sorted (`Console.sortedPairs_ok`), whatever
it holds.
-/

namespace Accrual

/-! ### Keys that are texts -/

namespace Entries

def HaveTextKeys (entries : Entries) : Prop := ∀ e ∈ entries, ∃ key, e.1 = .text key

theorem forall_mem_ofTexts {C : Value → Prop} {fields : List (String × Value)}
    (h : ∀ f ∈ fields, C f.2) : ∀ e ∈ Entries.ofTexts fields, (∃ key, e.1 = .text key) ∧ C e.2 := by
  intro e he
  obtain ⟨f, hf, rfl⟩ := List.mem_map.mp he
  exact ⟨⟨f.1, rfl⟩, h f hf⟩

theorem haveTextKeys_ofTexts (fields : List (String × Value)) :
    (Entries.ofTexts fields).HaveTextKeys := fun e he =>
  (forall_mem_ofTexts (C := fun _ => True) (fun _ _ => trivial) e he).1

theorem HaveTextKeys.exists_fields {entries : Entries} (h : entries.HaveTextKeys) :
    ∃ fields, entries = Entries.ofTexts fields := by
  induction entries with
  | nil => exact ⟨[], rfl⟩
  | cons e rest ih =>
      obtain ⟨⟨key, hkey⟩, hrest⟩ := List.forall_mem_cons.mp h
      obtain ⟨fields, rfl⟩ := ih hrest
      exact ⟨(key, e.2) :: fields, by rw [Entries.ofTexts, Entries.ofTexts, List.map_cons, ← hkey]⟩

end Entries

/-! ### The order by names -/

namespace Fields

variable {α : Type}

def byName (fields : List (String × α)) : List (String × α) :=
  fields.mergeSort fun a b => decide (a.1 ≤ b.1)

theorem byName_perm (fields : List (String × α)) : (byName fields).Perm fields :=
  List.mergeSort_perm fields _

theorem pairwise_byName (fields : List (String × α)) :
    (byName fields).Pairwise fun a b => a.1 ≤ b.1 := by
  have h : (byName fields).Pairwise fun a b => decide (a.1 ≤ b.1) = true := by
    refine List.pairwise_mergeSort (fun a b c hab hbc => ?_) (fun a b => ?_) fields
    · rw [decide_eq_true_iff] at hab hbc ⊢
      exact String.le_trans hab hbc
    · rw [Bool.or_eq_true, decide_eq_true_iff, decide_eq_true_iff]
      exact String.le_total a.1 b.1
  exact h.imp of_decide_eq_true

/-- Names that are all different rise strictly. -/
theorem pairwise_lt_byName {fields : List (String × α)} (h : (fields.map Prod.fst).Nodup) :
    (byName fields).Pairwise fun a b => a.1 < b.1 := by
  have hdiffer : (byName fields).Pairwise fun a b => a.1 ≠ b.1 :=
    List.pairwise_map.mp (((byName_perm fields).map Prod.fst).nodup_iff.mpr h)
  exact ((pairwise_byName fields).and hdiffer).imp fun h => Std.lt_of_le_of_ne h.1 h.2

/-- **There is one order by names only.** -/
theorem byName_eq_of_perm {fields sorted : List (String × α)} (hperm : sorted.Perm fields)
    (hsorted : sorted.Pairwise fun a b => a.1 < b.1) : byName fields = sorted := by
  have hdiffer : (sorted.map Prod.fst).Nodup :=
    List.pairwise_map.mpr (hsorted.imp fun hab => String.ne_of_lt hab)
  have h : (fields.map Prod.fst).Nodup := (hperm.map Prod.fst).nodup_iff.mp hdiffer
  refine List.Perm.eq_of_pairwise (fun a b _ _ hab hba => ?_) (pairwise_lt_byName h) hsorted
    ((byName_perm fields).trans hperm.symm)
  exact absurd (String.lt_trans hab hba) (String.lt_irrefl a.1)

theorem byName_congr {fields fields' : List (String × α)} (h : (fields.map Prod.fst).Nodup)
    (hperm : fields.Perm fields') : byName fields = byName fields' := by
  have h' : (fields'.map Prod.fst).Nodup := (hperm.map Prod.fst).nodup_iff.mp h
  exact byName_eq_of_perm ((byName_perm fields').trans hperm.symm) (pairwise_lt_byName h')

theorem perm_of_mem_iff {fields fields' : List (String × α)} (h : (fields.map Prod.fst).Nodup)
    (h' : (fields'.map Prod.fst).Nodup) (hsame : ∀ f, f ∈ fields ↔ f ∈ fields') :
    fields.Perm fields' :=
  (List.perm_ext_iff_of_nodup (List.Nodup.of_map Prod.fst h)
    (List.Nodup.of_map Prod.fst h')).mpr hsame

end Fields

/-! ### Sorting -/

/-- **A comparison of keys sorts by keys.** -/
theorem sort_ofTexts {less : Value × Value → Value × Value → Except Error Bool}
    {fields : List (String × Value)}
    (h : ∀ a ∈ fields, ∀ b ∈ fields,
      less (.text a.1, a.2) (.text b.1, b.2) = .ok (decide (a.1 < b.1))) :
    Sorting.sort less (Entries.ofTexts fields) = .ok (Entries.ofTexts (Fields.byName fields)) := by
  have hall : (Entries.ofTexts fields).all
      (fun a => (Entries.ofTexts fields).all fun b => (less a b).isOk) = true := by
    simp only [Entries.ofTexts, List.all_map, List.all_eq_true, Function.comp_apply]
    intro a ha b hb
    rw [h a ha b hb]
    rfl
  rw [Sorting.sort, if_pos hall]
  refine congrArg Except.ok (List.map_mergeSort fun a ha b hb => ?_).symm
  rw [Sorting.isLess, h b hb a ha, Except.toOption, Option.getD_some, ← decide_not]
  exact decide_eq_decide.mpr String.not_lt.symm

namespace Console

theorem sortedPairs_ofTexts (fields : List (String × Value)) :
    sortedPairs (Entries.ofTexts fields) = .ok (Entries.ofTexts (Fields.byName fields)) :=
  sort_ofTexts fun _ _ _ _ => rfl

/-- Pairs are sorted once they stand in the order of their keys. -/
theorem sortedPairs_of_perm {fields sorted : List (String × Value)} (hperm : sorted.Perm fields)
    (hsorted : sorted.Pairwise fun a b => a.1 < b.1) :
    sortedPairs (Entries.ofTexts fields) = .ok (Entries.ofTexts sorted) := by
  rw [sortedPairs_ofTexts, Fields.byName_eq_of_perm hperm hsorted]

theorem sortedPairs_singleton (key : String) (v : Value) :
    sortedPairs [(.text key, v)] = .ok [(.text key, v)] :=
  @sortedPairs_of_perm [(key, v)] [(key, v)] (.refl _) (List.pairwise_singleton _ _)

/-- Two pairs end up in the order of their keys, in whichever order they came. -/
theorem sortedPairs_pair {key key' : String} (h : key < key') (v w : Value) :
    sortedPairs [(.text key, v), (.text key', w)] = .ok [(.text key, v), (.text key', w)] ∧
      sortedPairs [(.text key', w), (.text key, v)] = .ok [(.text key, v), (.text key', w)] := by
  have hsorted : [(key, v), (key', w)].Pairwise fun a b => a.1 < b.1 := List.pairwise_pair.mpr h
  exact ⟨sortedPairs_of_perm (.refl _) hsorted,
    @sortedPairs_of_perm [(key', w), (key, v)] _ (.swap ..) hsorted⟩

variable {context : Entries} (h : context.HaveTextKeys)
include h

/-- **Pairs with texts for keys can be sorted**, for texts can be compared. -/
theorem sortedPairs_ok : ∃ pairs, sortedPairs context = .ok pairs := by
  obtain ⟨fields, rfl⟩ := h.exists_fields
  exact ⟨_, sortedPairs_ofTexts fields⟩

/-- The sorted pairs are those of the context. -/
theorem perm_of_sortedPairs {pairs : Entries} (hs : sortedPairs context = .ok pairs) :
    pairs.Perm context := by
  obtain ⟨fields, rfl⟩ := h.exists_fields
  rw [sortedPairs_ofTexts] at hs
  cases hs
  exact (Fields.byName_perm fields).map _

end Console

end Accrual
