import Accrual.Keyed
import Accrual.Value.Equality
import Mathlib.Data.List.Forall2
import Mathlib.Data.List.Perm.Subperm

/-!
# Equality of data

Data are the values that are put together without functions: nothing, truth values, numbers, texts
and violations, lists, tuples and dictionaries of data, and data in one of the four variants
(`Value.IsData`).  Equality of data is reflexive, symmetric and transitive.

A dictionary looks its keys up by equality and does not mind their order.  That equality of
dictionaries is symmetric is therefore a matter of counting (`exists_subperm`): its keys are
different from each other, so that each has a partner of its own on the other side, and as there are
as many on both sides, none is left over.
-/

namespace Accrual

/-! ### Partners -/

/-- **Partners of one's own**: if every element has a partner among the others and no two elements
share one, then the partners are some of the others, none taken twice. -/
theorem exists_subperm {α β : Type} {R : α → β → Prop} {as : List α} {bs : List β}
    (hex : ∀ a ∈ as, ∃ b ∈ bs, R a b)
    (hown : as.Pairwise fun a a' => ∀ b ∈ bs, R a b → ¬ R a' b) :
    ∃ cs, cs.Subperm bs ∧ List.Forall₂ R as cs := by
  induction as generalizing bs with
  | nil => exact ⟨[], List.nil_subperm, .nil⟩
  | cons a rest ih =>
      obtain ⟨⟨b, hb, hab⟩, hrest⟩ := List.forall_mem_cons.mp hex
      obtain ⟨hnone, hown⟩ := List.pairwise_cons.mp hown
      obtain ⟨front, back, rfl⟩ := List.append_of_mem hb
      -- the partner of the first element is no partner of another one
      have hleft : ∀ x ∈ rest, ∃ y ∈ front ++ back, R x y := by
        intro x hx
        obtain ⟨y, hy, hxy⟩ := hrest x hx
        refine ⟨y, ?_, hxy⟩
        have hne : y ≠ b := by
          rintro rfl
          exact hnone x hx y hb hab hxy
        simpa [hne] using hy
      have hsub : ∀ y ∈ front ++ back, y ∈ front ++ b :: back := by
        intro y hy
        simp only [List.mem_append, List.mem_cons] at hy ⊢
        exact hy.imp_right .inr
      obtain ⟨cs, hcs, hall⟩ := ih hleft (hown.imp fun h y hy => h y (hsub y hy))
      exact ⟨b :: cs, ((List.subperm_cons b).mpr hcs).trans List.perm_middle.symm.subperm,
        .cons hab hall⟩

namespace Value

/-! ### Data -/

inductive Variant
  | success
  | failure
  | ok
  | err
  deriving DecidableEq

def Variant.wrap : Variant → Value → Value
  | success, v => .success v
  | failure, v => .failure v
  | ok, v => .ok v
  | err, v => .err v

/-- No key is equal to one that comes after it. -/
def KeysDiffer (entries : Entries) : Prop := entries.Pairwise fun e f => (e.1 == f.1) = false

/-- Values that are put together without functions. The keys of a dictionary differ, as those of
entries that are put in one by one do (`keysDiffer_ofList`). -/
inductive IsData : Value → Prop
  | absent : IsData .absent
  | bool (b : Bool) : IsData (.bool b)
  | int (n : Int) : IsData (.int n)
  | text (s : String) : IsData (.text s)
  | violation (v : Violation) : IsData (.violation v)
  | list {items : List Value} : (∀ v ∈ items, IsData v) → IsData (.list items)
  | tuple {items : List Value} : (∀ v ∈ items, IsData v) → IsData (.tuple items)
  | dictionary {entries : Entries} : (∀ e ∈ entries, IsData e.1) → (∀ e ∈ entries, IsData e.2) →
      KeysDiffer entries → IsData (.dictionary entries)
  | variant (k : Variant) {v : Value} : IsData v → IsData (k.wrap v)

/-- Keys that are put in one by one differ. -/
theorem keysDiffer_insert {entries : Entries} (h : KeysDiffer entries) (key content : Value) :
    KeysDiffer (Keyed.insert key content entries) := by
  induction entries with
  | nil => exact List.pairwise_singleton _ _
  | cons entry rest ih =>
      obtain ⟨hentry, hrest⟩ := List.pairwise_cons.mp h
      unfold Keyed.insert
      cases hk : entry.1 == key with
      | true => exact List.pairwise_cons.mpr ⟨hentry, hrest⟩
      | false =>
          have hnew : ∀ e ∈ Keyed.insert key content rest, (entry.1 == e.1) = false ∧ True :=
            Keyed.forall_mem_insert (K := fun k => (entry.1 == k) = false) (C := fun _ => True) hk
              trivial fun e he => ⟨hentry e he, trivial⟩
          exact List.pairwise_cons.mpr ⟨fun e he => (hnew e he).1, ih hrest⟩

theorem keysDiffer_ofList (entries : Entries) : KeysDiffer (Keyed.ofList entries) := by
  have hmerge : ∀ (more start : Entries), KeysDiffer start →
      KeysDiffer (Keyed.merge start more) := by
    intro more
    induction more with
    | nil => intro start h; exact h
    | cons entry rest ih => intro start h; exact ih _ (keysDiffer_insert h entry.1 entry.2)
  exact hmerge entries [] .nil

/-- A dictionary that is put together from data is data. -/
theorem IsData.ofList {entries : Entries} (h : ∀ e ∈ entries, IsData e.1 ∧ IsData e.2) :
    IsData (.dictionary (Keyed.ofList entries)) := by
  have hall : ∀ e ∈ Keyed.ofList entries, IsData e.1 ∧ IsData e.2 :=
    Keyed.forall_mem_merge h (by simp)
  exact .dictionary (fun e he => (hall e he).1) (fun e he => (hall e he).2)
    (keysDiffer_ofList entries)

/-! ### What equals a value of each kind -/

abbrev EqualRows : List Value → List Value → Prop := List.Forall₂ fun a b => (a == b) = true

def EqualEntries (e f : Value × Value) : Prop := (e.1 == f.1) = true ∧ (e.2 == f.2) = true

theorem beqList_cons_cons (a b : Value) (as bs : List Value) :
    beqList (a :: as) (b :: bs) = (a == b && beqList as bs) := rfl

theorem isPart_cons (e : Value × Value) (rest others : Entries) :
    isPart (e :: rest) others =
      (others.any (fun f => e.1 == f.1 && e.2 == f.2) && isPart rest others) := rfl

theorem beqList_iff {as bs : List Value} : beqList as bs = true ↔ EqualRows as bs := by
  induction as generalizing bs with
  | nil =>
      cases bs with
      | nil => exact iff_of_true rfl .nil
      | cons b bs => exact iff_of_false Bool.false_ne_true nofun
  | cons a as ih =>
      cases bs with
      | nil => exact iff_of_false Bool.false_ne_true nofun
      | cons b bs => rw [beqList_cons_cons, Bool.and_eq_true, ih, EqualRows, List.forall₂_cons]

theorem isPart_iff {entries others : Entries} :
    isPart entries others = true ↔ ∀ e ∈ entries, ∃ f ∈ others, EqualEntries e f := by
  induction entries with
  | nil => exact iff_of_true rfl nofun
  | cons e rest ih =>
      rw [isPart_cons, Bool.and_eq_true, ih, List.any_eq_true, List.forall_mem_cons]
      simp only [Bool.and_eq_true, EqualEntries]

theorem absent_beq {w : Value} : (absent == w) = true ↔ w = absent := by
  cases w <;> first | exact iff_of_true rfl rfl | exact iff_of_false Bool.false_ne_true nofun

/-- A number equals whatever counts as the same number. -/
theorem number_beq {v w : Value} {n : Int} (h : v.toInt? = some n) :
    (v == w) = true ↔ w.toInt? = some n := by
  have hnumbers : ∀ a b : Int, (a == b) = true ↔ some b = some a := fun a b => by
    rw [beq_iff_eq, Option.some.injEq, eq_comm]
  cases v with
  | int a =>
      obtain rfl := Option.some.inj h
      cases w with
      | int b => exact hnumbers a b
      | bool b => exact hnumbers a (if b then 1 else 0)
      | _ => exact iff_of_false Bool.false_ne_true nofun
  | bool a =>
      obtain rfl := Option.some.inj h
      cases w with
      | int b => exact hnumbers (if a then 1 else 0) b
      | bool b => cases a <;> cases b <;> decide
      | _ => exact iff_of_false Bool.false_ne_true nofun
  | _ => cases h

/-- A text equals whatever counts as the same text. -/
theorem text_beq {v w : Value} {s : String} (h : v.text? = some s) :
    (v == w) = true ↔ w.text? = some s := by
  have htexts : ∀ a b : String, (a == b) = true ↔ some b = some a := fun a b => by
    rw [beq_iff_eq, Option.some.injEq, eq_comm]
  cases v with
  | text a =>
      obtain rfl := Option.some.inj h
      cases w with
      | text b => exact htexts a b
      | code b => exact htexts a b.text
      | _ => exact iff_of_false Bool.false_ne_true nofun
  | code a =>
      obtain rfl := Option.some.inj h
      cases w with
      | text b => exact htexts a.text b
      | code b => cases a <;> cases b <;> decide
      | _ => exact iff_of_false Bool.false_ne_true nofun
  | _ => cases h

theorem violation_beq {v : Violation} {w : Value} :
    (violation v == w) = true ↔ w = violation v := by
  cases w with
  | violation u =>
      change (v == u) = true ↔ _
      rw [beq_iff_eq, violation.injEq, eq_comm]
  | _ => exact iff_of_false Bool.false_ne_true nofun

theorem list_beq {items : List Value} {w : Value} :
    (list items == w) = true ↔ ∃ others, w = list others ∧ EqualRows items others := by
  cases w with
  | list others =>
      refine beqList_iff.trans ⟨fun h => ⟨others, rfl, h⟩, ?_⟩
      rintro ⟨_, hw, h⟩
      cases hw
      exact h
  | _ => exact iff_of_false Bool.false_ne_true nofun

theorem tuple_beq {items : List Value} {w : Value} :
    (tuple items == w) = true ↔ ∃ others, w = tuple others ∧ EqualRows items others := by
  cases w with
  | tuple others =>
      refine beqList_iff.trans ⟨fun h => ⟨others, rfl, h⟩, ?_⟩
      rintro ⟨_, hw, h⟩
      cases hw
      exact h
  | _ => exact iff_of_false Bool.false_ne_true nofun

theorem dictionary_beq {entries : Entries} {w : Value} :
    (dictionary entries == w) = true ↔ ∃ others, w = dictionary others ∧
      entries.length = others.length ∧ ∀ e ∈ entries, ∃ f ∈ others, EqualEntries e f := by
  cases w with
  | dictionary others =>
      change (entries.length == others.length && isPart entries others) = true ↔ _
      rw [Bool.and_eq_true, beq_iff_eq, isPart_iff]
      refine ⟨fun h => ⟨others, rfl, h⟩, ?_⟩
      rintro ⟨_, hw, h⟩
      cases hw
      exact h
  | _ => exact iff_of_false Bool.false_ne_true nofun

theorem wrap_beq {k : Variant} {v w : Value} :
    (k.wrap v == w) = true ↔ ∃ u, w = k.wrap u ∧ (v == u) = true := by
  have hwrapped : ∀ u, (k.wrap v == k.wrap u) = (v == u) := by cases k <;> exact fun _ => rfl
  constructor
  · intro h
    have hshape : ∃ u, w = k.wrap u := by
      cases k <;> cases w <;> first | exact ⟨_, rfl⟩ | cases h
    obtain ⟨u, rfl⟩ := hshape
    exact ⟨u, rfl, (hwrapped u).symm.trans h⟩
  · rintro ⟨u, rfl, h⟩
    exact (hwrapped u).trans h

/-! ### Reflexivity -/

theorem isPart_self {entries : Entries} (h : ∀ e ∈ entries, EqualEntries e e) :
    isPart entries entries = true :=
  isPart_iff.mpr fun e he => ⟨e, he, h e he⟩

mutual

/-- **Every value equals itself.** -/
theorem beq_self (v : Value) : (v == v) = true := by
  match v with
  | .absent | .silentRenderer => rfl
  | .bool _ | .int _ => exact (number_beq rfl).mpr rfl
  | .text _ | .code _ => exact (text_beq rfl).mpr rfl
  | .violation _ => exact violation_beq.mpr rfl
  | .stage id _ | .exception id _ => exact beq_self_eq_true id
  | .function f => exact beq_self_eq_true f.id
  | .fault f => exact beq_self_eq_true f
  | .settings s | .loggingSettings s | .reportSettings s | .stream s => exact beq_self_eq_true s
  | .list items | .tuple items => exact beqList_self items
  | .success v | .failure v | .ok v | .err v | .jsonRenderer v => exact beq_self v
  | .dictionary entries =>
      change (entries.length == entries.length && isPart entries entries) = true
      rw [beq_self_eq_true, isPart_self (equalEntries_self entries)]
      rfl
  | .logger context r threshold =>
      change (context.length == context.length && isPart context context && r == r &&
        threshold == threshold) = true
      rw [beq_self_eq_true, isPart_self (equalEntries_self context), beq_self r, beq_self threshold]
      rfl
  | .consoleRenderer output colors showTimestamp =>
      change (output == output && colors == colors && showTimestamp == showTimestamp) = true
      rw [beq_self output, beq_self colors, beq_self_eq_true]
      rfl
  | .entry time level event context =>
      change (time == time && level == level && event == event &&
        context.length == context.length && isPart context context) = true
      rw [beq_self_eq_true, beq_self_eq_true, beq_self event, beq_self_eq_true,
        isPart_self (equalEntries_self context)]
      rfl
termination_by structural v

theorem beqList_self (vs : List Value) : beqList vs vs = true := by
  match vs with
  | [] => rfl
  | v :: rest =>
      rw [beqList_cons_cons, beq_self v, beqList_self rest]
      rfl
termination_by structural vs

theorem equalEntries_self (entries : Entries) : ∀ e ∈ entries, EqualEntries e e := by
  match entries with
  | [] => exact List.forall_mem_nil _
  | (key, content) :: rest =>
      exact List.forall_mem_cons.mpr
        ⟨⟨beq_self key, beq_self content⟩, equalEntries_self rest⟩
termination_by structural entries

end

/-! ### An equivalence -/

/-- What equals the value can be exchanged for it in comparisons. -/
structure Exchangeable (v : Value) : Prop where
  symm : ∀ {w : Value}, (v == w) = true → (w == v) = true
  trans : ∀ {w u : Value}, (v == w) = true → (w == u) = true → (v == u) = true

theorem EqualRows.symm {as bs : List Value} (hall : ∀ a ∈ as, Exchangeable a)
    (h : EqualRows as bs) : EqualRows bs as :=
  .flip (((List.forall₂_and_left as bs).mpr ⟨hall, h⟩).imp fun _ _ h => h.1.symm h.2)

theorem EqualRows.trans {as bs cs : List Value} (hall : ∀ a ∈ as, Exchangeable a)
    (h : EqualRows as bs) (h' : EqualRows bs cs) : EqualRows as cs := by
  induction h generalizing cs with
  | nil => exact h'
  | cons hab _ ih =>
      obtain ⟨ha, hrest⟩ := List.forall_mem_cons.mp hall
      cases h' with
      | cons hbc h' => exact .cons (ha.trans hab hbc) (ih hrest h')

/-- Two entries of a dictionary have no partner in common, for their keys would be equal. -/
theorem not_equalEntries_of_keys {e e' f : Value × Value} (he : Exchangeable e.1)
    (he' : Exchangeable e'.1) (hdiffer : (e.1 == e'.1) = false) (h : EqualEntries e f) :
    ¬ EqualEntries e' f := by
  intro h'
  rw [he.trans h.1 (he'.symm h'.1)] at hdiffer
  cases hdiffer

/-- **Equality of dictionaries is symmetric**: every entry of the second one is the partner of an
entry of the first one. -/
theorem exists_partner {entries others : Entries} (hkeys : ∀ e ∈ entries, Exchangeable e.1)
    (hdiffer : KeysDiffer entries) (hlen : entries.length = others.length)
    (h : ∀ e ∈ entries, ∃ f ∈ others, EqualEntries e f) :
    ∀ f ∈ others, ∃ e ∈ entries, EqualEntries e f := by
  have hown : entries.Pairwise fun e e' => ∀ f ∈ others, EqualEntries e f → ¬ EqualEntries e' f :=
    hdiffer.imp_of_mem fun he he' hd f _ hf =>
      not_equalEntries_of_keys (hkeys _ he) (hkeys _ he') hd hf
  obtain ⟨partners, hsub, hall⟩ := exists_subperm h hown
  have hperm : partners.Perm others :=
    hsub.perm_of_length_le (Nat.le_of_eq (hlen.symm.trans hall.length_eq))
  intro f hf
  obtain ⟨i, hi, rfl⟩ := List.mem_iff_getElem.mp (hperm.mem_iff.mpr hf)
  have hi' : i < entries.length := hall.length_eq ▸ hi
  exact ⟨entries[i], List.getElem_mem hi', hall.get hi' hi⟩

/-- A value whose equals are told by a property, as the equals of all of them are. -/
theorem exchangeable_of_iff {v : Value} {P : Value → Prop} (hv : P v)
    (h : ∀ x, P x → ∀ w, (x == w) = true ↔ P w) : Exchangeable v where
  symm hw := (h _ ((h v hv _).mp hw) v).mpr hv
  trans hw hu := (h v hv _).mpr ((h _ ((h v hv _).mp hw) _).mp hu)

theorem exchangeable_number {v : Value} {n : Int} (h : v.toInt? = some n) : Exchangeable v :=
  exchangeable_of_iff (P := fun w => w.toInt? = some n) h fun _ hx _ => number_beq hx

/-- A row of values, whether it is a list or a tuple. -/
theorem exchangeable_row {row : List Value → Value}
    (hrow : ∀ items w, (row items == w) = true ↔ ∃ others, w = row others ∧ EqualRows items others)
    {items : List Value} (hall : ∀ v ∈ items, Exchangeable v) : Exchangeable (row items) where
  symm hw := by
    obtain ⟨others, rfl, h⟩ := (hrow _ _).mp hw
    exact (hrow _ _).mpr ⟨_, rfl, h.symm hall⟩
  trans hw hu := by
    obtain ⟨others, rfl, h⟩ := (hrow _ _).mp hw
    obtain ⟨further, rfl, h'⟩ := (hrow _ _).mp hu
    exact (hrow _ _).mpr ⟨further, rfl, h.trans hall h'⟩

theorem exchangeable_wrap (k : Variant) {v : Value} (h : Exchangeable v) :
    Exchangeable (k.wrap v) where
  symm hw := by
    obtain ⟨x, rfl, hx⟩ := wrap_beq.mp hw
    exact wrap_beq.mpr ⟨_, rfl, h.symm hx⟩
  trans hw hu := by
    obtain ⟨x, rfl, hx⟩ := wrap_beq.mp hw
    obtain ⟨y, rfl, hy⟩ := wrap_beq.mp hu
    exact wrap_beq.mpr ⟨y, rfl, h.trans hx hy⟩

/-- **Equality of data is symmetric and transitive.** -/
theorem IsData.exchangeable {v : Value} (h : IsData v) : Exchangeable v := by
  induction h with
  | absent =>
      refine exchangeable_of_iff (P := (· = .absent)) rfl ?_
      rintro _ rfl w
      exact absent_beq
  | bool b => exact exchangeable_number rfl
  | int n => exact exchangeable_number rfl
  | text s =>
      exact exchangeable_of_iff (P := fun w => w.text? = some s) rfl fun _ hx _ => text_beq hx
  | violation v =>
      refine exchangeable_of_iff (P := (· = .violation v)) rfl ?_
      rintro _ rfl w
      exact violation_beq
  | list _ ih => exact exchangeable_row (fun _ _ => list_beq) ih
  | tuple _ ih => exact exchangeable_row (fun _ _ => tuple_beq) ih
  | dictionary _ _ hdiffer ihkeys ihcontents =>
      refine ⟨fun hw => ?_, fun hw hu => ?_⟩
      · obtain ⟨others, rfl, hlen, h⟩ := dictionary_beq.mp hw
        refine dictionary_beq.mpr ⟨_, rfl, hlen.symm, fun f hf => ?_⟩
        obtain ⟨e, he, hkey, hcontent⟩ := exists_partner ihkeys hdiffer hlen h f hf
        exact ⟨e, he, (ihkeys e he).symm hkey, (ihcontents e he).symm hcontent⟩
      · obtain ⟨others, rfl, hlen, h⟩ := dictionary_beq.mp hw
        obtain ⟨further, rfl, hlen', h'⟩ := dictionary_beq.mp hu
        refine dictionary_beq.mpr ⟨further, rfl, hlen.trans hlen', fun e he => ?_⟩
        obtain ⟨f, hf, hkey, hcontent⟩ := h e he
        obtain ⟨g, hg, hkey', hcontent'⟩ := h' f hf
        exact ⟨g, hg, (ihkeys e he).trans hkey hkey', (ihcontents e he).trans hcontent hcontent'⟩
  | variant k _ ih => exact exchangeable_wrap k ih

theorem IsData.beq_self {v : Value} (_h : IsData v) : (v == v) = true := Value.beq_self v

/-- **Variants are equal** if they are the same variant of equal payloads. -/
theorem wrap_beq_wrap (k l : Variant) (v w : Value) :
    (k.wrap v == l.wrap w) = true ↔ k = l ∧ (v == w) = true := by
  rw [wrap_beq]
  constructor
  · rintro ⟨u, hu, h⟩
    cases k <;> cases l <;> cases hu <;> exact ⟨rfl, h⟩
  · rintro ⟨rfl, h⟩
    exact ⟨w, rfl, h⟩

end Value

end Accrual
