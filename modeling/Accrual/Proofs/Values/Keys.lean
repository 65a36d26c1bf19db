import Accrual.Proofs.Keyed
import Accrual.Proofs.Values.Equality
import Accrual.Value.Hash

/-!
# Values as keys

A key is a value that can be hashed (`Value.IsKey`).  Among keys equality is an
equivalence (`Value.IsKey.regular`), so that equal keys find the same entries;
the entries of a dictionary have keys that are not equal to each other
(`Entries.IsDictionary`).  What is found under a key after an entry is put in
or keys are erased follows from this (`Keyed.lookup_insert_key`,
`Keyed.lookup_erase_key`).
-/

namespace Accrual

namespace Value

def IsKey (v : Value) : Prop := v.unhashable? = none

instance (v : Value) : Decidable v.IsKey := inferInstanceAs (Decidable (v.unhashable? = none))

theorem isKey_text (s : String) : (text s).IsKey := rfl

/-! ### Equality by number -/

theorem stage_beq {id : Nat} {items : List Value} {w : Value} :
    (stage id items == w) = true ↔ ∃ others, w = stage id others := by
  cases w with
  | stage id' others =>
      change (id == id') = true ↔ _
      rw [beq_iff_eq]
      constructor
      · rintro rfl
        exact ⟨others, rfl⟩
      · rintro ⟨_, h⟩
        cases h
        rfl
  | _ => exact iff_of_false Bool.false_ne_true nofun

theorem function_beq {f : FunctionRef} {w : Value} :
    (function f == w) = true ↔ ∃ g, w = function g ∧ g.id = f.id := by
  cases w with
  | function g =>
      change (f.id == g.id) = true ↔ _
      rw [beq_iff_eq]
      constructor
      · intro h
        exact ⟨g, rfl, h.symm⟩
      · rintro ⟨_, h, hid⟩
        cases h
        exact hid.symm
  | _ => exact iff_of_false Bool.false_ne_true nofun

theorem exception_beq {id : Nat} {f : Fault} {w : Value} :
    (exception id f == w) = true ↔ ∃ other, w = exception id other := by
  cases w with
  | exception id' other =>
      change (id == id') = true ↔ _
      rw [beq_iff_eq]
      constructor
      · rintro rfl
        exact ⟨other, rfl⟩
      · rintro ⟨_, h⟩
        cases h
        rfl
  | _ => exact iff_of_false Bool.false_ne_true nofun

theorem fault_beq {f : Fault} {w : Value} : (fault f == w) = true ↔ w = fault f := by
  cases w with
  | fault g =>
      change (f == g) = true ↔ _
      rw [beq_iff_eq, fault.injEq, eq_comm]
  | _ => exact iff_of_false Bool.false_ne_true nofun

theorem stream_beq {s : Stream} {w : Value} : (stream s == w) = true ↔ w = stream s := by
  cases w with
  | stream t =>
      change (s == t) = true ↔ _
      rw [beq_iff_eq, stream.injEq, eq_comm]
  | _ => exact iff_of_false Bool.false_ne_true nofun

/-! ### Keys -/

/-- The value is equal to itself, and what equals it can be exchanged for it. -/
structure Regular (v : Value) : Prop extends Exchangeable v where
  refl : (v == v) = true

theorem regular_of_iff {v : Value} {P : Value → Prop} (hv : P v)
    (h : ∀ x, P x → ∀ w, (x == w) = true ↔ P w) : Regular v :=
  ⟨exchangeable_of_iff hv h, (h v hv v).mpr hv⟩

theorem regular_of_unique {v : Value} (h : ∀ w, (v == w) = true ↔ w = v) : Regular v := by
  refine regular_of_iff (P := (· = v)) rfl ?_
  rintro _ rfl
  exact h

theorem regular_number {v : Value} {n : Int} (h : v.toInt? = some n) : Regular v :=
  regular_of_iff (P := fun w => w.toInt? = some n) h fun _ hx _ => number_beq hx

theorem regular_text {v : Value} {s : String} (h : v.text? = some s) : Regular v :=
  regular_of_iff (P := fun w => w.text? = some s) h fun _ hx _ => text_beq hx

theorem regular_tuple {items : List Value} (h : ∀ v ∈ items, Regular v) : Regular (tuple items) :=
  ⟨exchangeable_row (fun _ _ => tuple_beq) fun v hv => (h v hv).toExchangeable,
    tuple_beq.mpr ⟨_, rfl, List.forall₂_same.mpr fun v hv => (h v hv).refl⟩⟩

theorem regular_wrap (k : Variant) {v : Value} (h : Regular v) : Regular (k.wrap v) :=
  ⟨exchangeable_wrap k h.toExchangeable, wrap_beq.mpr ⟨_, rfl, h.refl⟩⟩

theorem regular_stage (id : Nat) (items : List Value) : Regular (stage id items) := by
  refine regular_of_iff (P := fun w => ∃ others, w = stage id others) ⟨items, rfl⟩ ?_
  rintro _ ⟨others, rfl⟩ w
  exact stage_beq

theorem regular_function (f : FunctionRef) : Regular (function f) := by
  refine regular_of_iff (P := fun w => ∃ g, w = function g ∧ g.id = f.id) ⟨f, rfl, rfl⟩ ?_
  rintro _ ⟨g, rfl, hg⟩ w
  rw [function_beq, hg]

theorem regular_exception (id : Nat) (f : Fault) : Regular (exception id f) := by
  refine regular_of_iff (P := fun w => ∃ other, w = exception id other) ⟨f, rfl⟩ ?_
  rintro _ ⟨other, rfl⟩ w
  exact exception_beq

mutual

/-- **Among keys equality is an equivalence.** -/
theorem regular_of_hashable (v : Value) (h : v.unhashable? = none) : Regular v := by
  match v with
  | .absent => exact regular_of_unique fun w => absent_beq
  | .bool _ | .int _ => exact regular_number rfl
  | .text _ | .code _ => exact regular_text rfl
  | .tuple items => exact regular_tuple (regular_of_allHashable items h)
  | .success v => exact regular_wrap .success (regular_of_hashable v h)
  | .failure v => exact regular_wrap .failure (regular_of_hashable v h)
  | .ok v => exact regular_wrap .ok (regular_of_hashable v h)
  | .err v => exact regular_wrap .err (regular_of_hashable v h)
  | .violation _ => exact regular_of_unique fun w => violation_beq
  | .stage id items => exact regular_stage id items
  | .function f => exact regular_function f
  | .exception id f => exact regular_exception id f
  | .fault _ => exact regular_of_unique fun w => fault_beq
  | .stream _ => exact regular_of_unique fun w => stream_beq
  | .list _ | .dictionary _ | .logger _ _ _ | .consoleRenderer _ _ _ | .jsonRenderer _
  | .silentRenderer | .entry _ _ _ _ | .settings _ | .loggingSettings _ | .reportSettings _ =>
      cases h
termination_by structural v

theorem regular_of_allHashable (vs : List Value) (h : firstUnhashable? vs = none) :
    ∀ v ∈ vs, Regular v := by
  match vs with
  | [] => exact fun v hv => absurd hv List.not_mem_nil
  | v :: rest =>
      have hboth : v.unhashable? = none ∧ firstUnhashable? rest = none := by
        unfold firstUnhashable? at h
        split at h
        · cases h
        next hv => exact ⟨hv, h⟩
      exact List.forall_mem_cons.mpr
        ⟨regular_of_hashable v hboth.1, regular_of_allHashable rest hboth.2⟩
termination_by structural vs

end

namespace IsKey

variable {v w : Value} (hv : v.IsKey) (hw : w.IsKey)
include hv

theorem regular : Regular v := regular_of_hashable v hv

include hw

theorem beq_comm : (v == w) = (w == v) :=
  Bool.eq_iff_iff.mpr ⟨hv.regular.symm, hw.regular.symm⟩

/-- Equal keys equal the same values. -/
theorem beq_congr (h : (v == w) = true) (u : Value) : (v == u) = (w == u) :=
  Bool.eq_iff_iff.mpr ⟨hw.regular.trans (hv.regular.symm h), hv.regular.trans h⟩

end IsKey

/-- A text equals the same values as whatever equals it. -/
theorem beq_congr_text {v : Value} {name : String} (h : (v == text name) = true) (u : Value) :
    (v == u) = (text name == u) := by
  have hv : v.text? = some name := by
    cases v with
    | text s => exact (text_beq rfl).mp ((regular_text rfl).symm h)
    | code c => exact (text_beq rfl).mp ((regular_text (v := code c) rfl).symm h)
    | _ => cases h
  exact Bool.eq_iff_iff.mpr ((text_beq hv).trans (text_beq rfl).symm)

end Value

/-! ### Dictionaries -/

/-- The entries of a dictionary: keys can be hashed, and no two of them are equal. -/
structure Entries.IsDictionary (entries : Entries) : Prop where
  keys : ∀ e ∈ entries, e.1.IsKey
  differ : Value.KeysDiffer entries

namespace Entries

theorem isDictionary_nil : IsDictionary [] := ⟨fun _ h => absurd h List.not_mem_nil, .nil⟩

theorem IsDictionary.insert {entries : Entries} (h : entries.IsDictionary) {key : Value}
    (hkey : key.IsKey) (content : Value) : IsDictionary (Keyed.insert key content entries) where
  keys := by
    have hall : ∀ e ∈ Keyed.insert key content entries, e.1.IsKey ∧ True :=
      Keyed.forall_mem_insert (C := fun _ => True) hkey trivial fun e he => ⟨h.keys e he, trivial⟩
    exact fun e he => (hall e he).1
  differ := Value.keysDiffer_insert h.differ key content

theorem IsDictionary.erase {entries : Entries} (h : entries.IsDictionary) (keys : List Value) :
    IsDictionary (Keyed.erase keys entries) where
  keys e he := h.keys e (List.mem_of_mem_filter he)
  differ := h.differ.filter _

theorem isDictionary_ofTexts {fields : List (String × Value)} (h : (fields.map Prod.fst).Nodup) :
    (ofTexts fields).IsDictionary where
  keys e he := by
    obtain ⟨field, -, rfl⟩ := List.mem_map.mp he
    exact Value.isKey_text field.1
  differ := by
    refine List.pairwise_map.mpr ((List.pairwise_map.mp h).imp fun hne => ?_)
    exact Keyed.beq_other_text hne (Keyed.text_beq_self _)

end Entries

namespace Keyed

theorem lookup_insert_key {key other : Value} (hkey : key.IsKey) (hother : other.IsKey)
    (content : Value) {entries : Entries} (h : ∀ e ∈ entries, e.1.IsKey) :
    (insert other content entries).lookup key =
      if key == other then some content else entries.lookup key := by
  induction entries with
  | nil =>
      rw [insert, List.lookup_cons]
      cases key == other <;> rfl
  | cons e rest ih =>
      obtain ⟨he, hrest⟩ := List.forall_mem_cons.mp h
      unfold insert
      cases heq : e.1 == other with
      | true =>
          have hkeys : (key == e.1) = (key == other) := by
            rw [hkey.beq_comm he, hkey.beq_comm hother, he.beq_congr hother heq]
          rw [if_pos rfl, List.lookup_cons, List.lookup_cons, hkeys]
          cases key == other <;> rfl
      | false =>
          rw [if_neg Bool.false_ne_true, List.lookup_cons, List.lookup_cons, ih hrest]
          cases hfound : key == e.1 with
          | true =>
              rw [hkey.beq_congr he hfound, heq]
              rfl
          | false => rfl

theorem lookup_erase_key {key : Value} (hkey : key.IsKey) (keys : List Value) {entries : Entries}
    (h : ∀ e ∈ entries, e.1.IsKey) :
    (erase keys entries).lookup key = if keys.contains key then none else entries.lookup key := by
  induction entries with
  | nil => cases keys.contains key <;> rfl
  | cons e rest ih =>
      obtain ⟨he, hrest⟩ := List.forall_mem_cons.mp h
      rw [erase_cons, List.lookup_cons]
      cases hfound : key == e.1 with
      | true =>
          rw [contains_congr (hkey.beq_congr he hfound) keys]
          cases hc : keys.contains e.1 with
          | true =>
              rw [contains_congr (hkey.beq_congr he hfound) keys, hc] at ih
              exact ih hrest
          | false =>
              rw [if_neg Bool.false_ne_true, if_neg Bool.false_ne_true, List.lookup_cons, hfound]
      | false =>
          rw [← ih hrest]
          cases keys.contains e.1 with
          | true => rfl
          | false => rw [if_neg Bool.false_ne_true, List.lookup_cons, hfound]

end Keyed

end Accrual
