/-!
# Keyed lists

Lists of entries in the order in which their keys were first given. No two keys are equal: a key
that is given again keeps its place and its spelling and takes the new content.
-/

namespace Accrual.Keyed

variable {κ α : Type} [BEq κ]

def insert (key : κ) (content : α) : List (κ × α) → List (κ × α)
  | [] => [(key, content)]
  | entry :: rest =>
      if entry.1 == key then (entry.1, content) :: rest else entry :: insert key content rest

/-- The first entries overridden and extended by the second ones. -/
def merge (entries more : List (κ × α)) : List (κ × α) :=
  more.foldl (fun acc entry => insert entry.1 entry.2 acc) entries

def ofList (entries : List (κ × α)) : List (κ × α) := merge [] entries

def erase (keys : List κ) (entries : List (κ × α)) : List (κ × α) :=
  entries.filter fun entry => !keys.contains entry.1

@[simp]
theorem merge_nil (entries : List (κ × α)) : merge entries [] = entries := rfl

theorem merge_cons (entries : List (κ × α)) (entry : κ × α) (more : List (κ × α)) :
    merge entries (entry :: more) = merge (insert entry.1 entry.2 entries) more := rfl

/-- What all keys and all contents have, those of an inserted entry among them, they have after it
is inserted. -/
theorem forall_mem_insert {K : κ → Prop} {C : α → Prop} {key : κ} {content : α} (hk : K key)
    (hc : C content) {entries : List (κ × α)} (h : ∀ e ∈ entries, K e.1 ∧ C e.2) :
    ∀ e ∈ insert key content entries, K e.1 ∧ C e.2 := by
  induction entries with
  | nil => exact List.forall_mem_singleton.mpr ⟨hk, hc⟩
  | cons entry rest ih =>
      obtain ⟨he, hrest⟩ := List.forall_mem_cons.mp h
      unfold insert
      split
      · exact List.forall_mem_cons.mpr ⟨⟨he.1, hc⟩, hrest⟩
      · exact List.forall_mem_cons.mpr ⟨he, ih hrest⟩

theorem forall_mem_merge {K : κ → Prop} {C : α → Prop} {more : List (κ × α)}
    (hm : ∀ e ∈ more, K e.1 ∧ C e.2) {entries : List (κ × α)}
    (h : ∀ e ∈ entries, K e.1 ∧ C e.2) : ∀ e ∈ merge entries more, K e.1 ∧ C e.2 := by
  induction more generalizing entries with
  | nil => exact h
  | cons entry rest ih =>
      obtain ⟨he, hrest⟩ := List.forall_mem_cons.mp hm
      rw [merge_cons]
      exact ih hrest (forall_mem_insert he.1 he.2 h)

end Accrual.Keyed
