import Accrual.Proofs.Values.Equality
import Accrual.Value.Hash
import Mathlib.Data.List.Induction

/-!
# Hashing and sets of data

Data that are equal can be hashed or not together, and with the same hash
(`IsData.sameHash`).  So the comparison of hashes in front of the one of values
never keeps equal values apart, and a set holds one value for each kind of equal
values (`pairwise_distinct`, `exists_mem_distinct`).

How many these are depends on nothing but which values occur up to equality:
`length_distinct_le` says so in one direction, and that a set does not change its
size when its values are put in another order, repeated, or exchanged for equal
ones comes out of it (`equality_and_sets`).
-/

namespace Accrual.Value

/-! ### Hashes -/

/-- The second value can be hashed if the first one can, and then with the same hash. -/
structure SameHash (v w : Value) : Prop where
  unhashable : v.unhashable? = w.unhashable?
  hashCode : v.hashCode = w.hashCode

theorem unhashable?_number {v : Value} {n : Int} (h : v.toInt? = some n) :
    v.unhashable? = none ∧ v.hashCode = hash n := by
  cases v with
  | int a =>
      obtain rfl := Option.some.inj h
      exact ⟨rfl, rfl⟩
  | bool b =>
      obtain rfl := Option.some.inj h
      exact ⟨rfl, rfl⟩
  | _ => cases h

theorem unhashable?_text {v : Value} {s : String} (h : v.text? = some s) :
    v.unhashable? = none ∧ v.hashCode = hash s := by
  cases v with
  | text a =>
      obtain rfl := Option.some.inj h
      exact ⟨rfl, rfl⟩
  | code c =>
      obtain rfl := Option.some.inj h
      exact ⟨rfl, rfl⟩
  | _ => cases h

theorem sameHash_number {v w : Value} {n : Int} (h : v.toInt? = some n) (hw : (v == w) = true) :
    SameHash v w := by
  have hv := unhashable?_number h
  have hw := unhashable?_number ((number_beq h).mp hw)
  exact ⟨hv.1.trans hw.1.symm, hv.2.trans hw.2.symm⟩

theorem sameHash_text {v w : Value} {s : String} (h : v.text? = some s) (hw : (v == w) = true) :
    SameHash v w := by
  have hv := unhashable?_text h
  have hw := unhashable?_text ((text_beq h).mp hw)
  exact ⟨hv.1.trans hw.1.symm, hv.2.trans hw.2.symm⟩

theorem firstUnhashable?_cons (v : Value) (rest : List Value) :
    firstUnhashable? (v :: rest) = v.unhashable?.or (firstUnhashable? rest) := by
  rw [firstUnhashable?]
  cases v.unhashable? <;> rfl

theorem hashCodes_cons (v : Value) (rest : List Value) :
    hashCodes (v :: rest) = mixHash v.hashCode (hashCodes rest) := rfl

theorem sameHash_tuple {items others : List Value} (h : List.Forall₂ SameHash items others) :
    SameHash (tuple items) (tuple others) := by
  have hrow : firstUnhashable? items = firstUnhashable? others ∧
      hashCodes items = hashCodes others := by
    induction h with
    | nil => exact ⟨rfl, rfl⟩
    | cons hvw _ ih =>
        rw [firstUnhashable?_cons, firstUnhashable?_cons, hashCodes_cons, hashCodes_cons,
          hvw.unhashable, hvw.hashCode, ih.1, ih.2]
        exact ⟨rfl, rfl⟩
  exact ⟨hrow.1, congrArg (mixHash 2) hrow.2⟩

theorem sameHash_wrap (k : Variant) {v w : Value} (h : SameHash v w) :
    SameHash (k.wrap v) (k.wrap w) := by
  cases k <;> exact ⟨h.unhashable, congrArg (mixHash _) h.hashCode⟩

/-- **Equal data have the same hash**, if they can be hashed at all. -/
theorem IsData.sameHash {v w : Value} (h : IsData v) (hw : (v == w) = true) : SameHash v w := by
  induction h generalizing w with
  | absent =>
      obtain rfl := absent_beq.mp hw
      exact ⟨rfl, rfl⟩
  | bool b => exact sameHash_number rfl hw
  | int n => exact sameHash_number rfl hw
  | text s => exact sameHash_text rfl hw
  | violation v =>
      obtain rfl := violation_beq.mp hw
      exact ⟨rfl, rfl⟩
  | list _ _ =>
      obtain ⟨others, rfl, -⟩ := list_beq.mp hw
      exact ⟨rfl, rfl⟩
  | @tuple items _ ih =>
      obtain ⟨others, rfl, hrows⟩ := tuple_beq.mp hw
      exact sameHash_tuple (((List.forall₂_and_left items others).mpr ⟨ih, hrows⟩).imp
        fun _ _ h => h.1 h.2)
  | dictionary _ _ _ _ _ =>
      obtain ⟨others, rfl, -⟩ := dictionary_beq.mp hw
      exact ⟨rfl, rfl⟩
  | variant k _ ih =>
      obtain ⟨u, rfl, hu⟩ := wrap_beq.mp hw
      exact sameHash_wrap k (ih hu)

/-- Hashes make no difference to which data are the same element of a set. -/
theorem IsData.sameElement_eq {v : Value} (h : IsData v) (w : Value) :
    sameElement v w = (v == w) := by
  unfold sameElement
  cases hw : v == w with
  | false => exact Bool.and_false _
  | true => rw [(h.sameHash hw).hashCode, beq_self_eq_true, Bool.true_and]

/-! ### The elements of a set -/

def AreData (values : List Value) : Prop := ∀ v ∈ values, IsData v

theorem distinct_concat (values : List Value) (v : Value) :
    distinct (values ++ [v]) =
      if (distinct values).any (sameElement v) then distinct values
      else distinct values ++ [v] := by
  unfold distinct
  rw [List.foldl_append]
  rfl

theorem mem_of_mem_distinct {values : List Value} {v : Value} (h : v ∈ distinct values) :
    v ∈ values := by
  induction values using List.reverseRecOn with
  | nil => exact h
  | append_singleton values last ih =>
      rw [distinct_concat] at h
      split at h
      · exact List.mem_append_left _ (ih h)
      · obtain hold | hlast := List.mem_append.mp h
        · exact List.mem_append_left _ (ih hold)
        · exact List.mem_append_right _ hlast

/-- **Every value has an equal one in the set.** -/
theorem exists_mem_distinct {values : List Value} (hd : AreData values) :
    ∀ v ∈ values, ∃ u ∈ distinct values, (v == u) = true := by
  induction values using List.reverseRecOn with
  | nil => exact fun _ hv => absurd hv List.not_mem_nil
  | append_singleton values last ih =>
      obtain ⟨hvalues, hlast⟩ := List.forall_mem_append.mp hd
      have hlast : IsData last := hlast last List.mem_cons_self
      have hsub : distinct values ⊆ distinct (values ++ [last]) := by
        rw [distinct_concat]
        split
        · exact List.Subset.refl _
        · exact List.subset_append_left _ _
      refine List.forall_mem_append.mpr ⟨fun v hv => ?_, List.forall_mem_singleton.mpr ?_⟩
      · obtain ⟨u, hu, heq⟩ := ih hvalues v hv
        exact ⟨u, hsub hu, heq⟩
      · rw [distinct_concat]
        split
        next hfound =>
          obtain ⟨u, hu, hsame⟩ := List.any_eq_true.mp hfound
          exact ⟨u, hu, by rwa [hlast.sameElement_eq] at hsame⟩
        next => exact ⟨last, by simp, hlast.beq_self⟩

/-- **No two elements of a set are equal.** -/
theorem pairwise_distinct {values : List Value} (hd : AreData values) :
    (distinct values).Pairwise fun u v => (v == u) = false := by
  induction values using List.reverseRecOn with
  | nil => exact .nil
  | append_singleton values last ih =>
      obtain ⟨hvalues, hlast⟩ := List.forall_mem_append.mp hd
      have hlast : IsData last := hlast last List.mem_cons_self
      rw [distinct_concat]
      split
      · exact ih hvalues
      next hnew =>
        refine List.pairwise_append.mpr
          ⟨ih hvalues, List.pairwise_singleton _ _, fun u hu v hv => ?_⟩
        obtain rfl := List.mem_singleton.mp hv
        rw [← hlast.sameElement_eq]
        exact Bool.eq_false_iff.mpr (List.any_eq_false.mp (Bool.eq_false_iff.mpr hnew) u hu)

/-- **The size of a set** grows with the values that occur, up to equality. -/
theorem length_distinct_le {values others : List Value} (hv : AreData values)
    (ho : AreData others) (h : ∀ v ∈ values, ∃ w ∈ others, (v == w) = true) :
    (distinct values).length ≤ (distinct others).length := by
  have hdata : ∀ v ∈ distinct values, IsData v := fun v hm => hv v (mem_of_mem_distinct hm)
  have hex : ∀ v ∈ distinct values, ∃ u ∈ distinct others, (v == u) = true := by
    intro v hm
    obtain ⟨w, hw, hvw⟩ := h v (mem_of_mem_distinct hm)
    obtain ⟨u, hu, hwu⟩ := exists_mem_distinct ho w hw
    exact ⟨u, hu, (hdata v hm).exchangeable.trans hvw hwu⟩
  -- two elements of one set that are equal to the same value would be equal
  have hown : (distinct values).Pairwise fun v v' =>
      ∀ u ∈ distinct others, (v == u) = true → ¬ (v' == u) = true := by
    refine (pairwise_distinct hv).imp_of_mem fun hm hm' hne u _ hvu hvu' => ?_
    have heq := (hdata _ hm').exchangeable.trans hvu' ((hdata _ hm).exchangeable.symm hvu)
    exact absurd heq (Bool.eq_false_iff.mp hne)
  obtain ⟨partners, hsub, hall⟩ := exists_subperm hex hown
  exact hall.length_eq ▸ hsub.length_le

theorem length_distinct_eq {values others : List Value} (hv : AreData values)
    (ho : AreData others) (h : ∀ v ∈ values, ∃ w ∈ others, (v == w) = true)
    (h' : ∀ w ∈ others, ∃ v ∈ values, (w == v) = true) :
    (distinct values).length = (distinct others).length :=
  Nat.le_antisymm (length_distinct_le hv ho h) (length_distinct_le ho hv h')

/-- Every value of a row of data has an equal one in any row that holds it. -/
theorem exists_beq_of_subset {values others : List Value} (hd : AreData values)
    (h : values ⊆ others) : ∀ v ∈ values, ∃ w ∈ others, (v == w) = true :=
  fun v hv => ⟨v, h hv, (hd v hv).beq_self⟩

theorem length_distinct_perm {values others : List Value} (hd : AreData values)
    (h : others.Perm values) : (distinct others).length = (distinct values).length := by
  have ho : AreData others := fun v hv => hd v (h.mem_iff.mp hv)
  exact length_distinct_eq ho hd (exists_beq_of_subset ho h.subset)
    (exists_beq_of_subset hd h.symm.subset)

theorem length_distinct_repeated {front rest : List Value} {v : Value}
    (hd : AreData (front ++ rest)) (hv : v ∈ front ++ rest) :
    (distinct (front ++ v :: rest)).length = (distinct (front ++ rest)).length := by
  have hsub : front ++ v :: rest ⊆ front ++ rest := by
    intro u hu
    obtain rfl | hu := List.mem_cons.mp (List.perm_middle.mem_iff.mp hu)
    · exact hv
    · exact hu
  have hsub' : front ++ rest ⊆ front ++ v :: rest :=
    fun u hu => List.perm_middle.mem_iff.mpr (List.mem_cons_of_mem v hu)
  have hd' : AreData (front ++ v :: rest) := fun u hu => hd u (hsub hu)
  exact length_distinct_eq hd' hd (exists_beq_of_subset hd' hsub) (exists_beq_of_subset hd hsub')

theorem length_distinct_replaced {front rest : List Value} {v w : Value}
    (hd : AreData (front ++ v :: rest)) (hw : IsData w) (h : (v == w) = true) :
    (distinct (front ++ w :: rest)).length = (distinct (front ++ v :: rest)).length := by
  obtain ⟨hfront, hrest⟩ := List.forall_mem_append.mp hd
  obtain ⟨hv, hrest⟩ := List.forall_mem_cons.mp hrest
  have hd' : AreData (front ++ w :: rest) :=
    List.forall_mem_append.mpr ⟨hfront, List.forall_mem_cons.mpr ⟨hw, hrest⟩⟩
  -- both rows hold the same values but for these two
  have hexchange : ∀ x y : Value, (x == y) = true → AreData (front ++ x :: rest) →
      ∀ u ∈ front ++ x :: rest, ∃ u' ∈ front ++ y :: rest, (u == u') = true := by
    intro x y hxy hx u hu
    obtain rfl | hold := List.mem_cons.mp (List.perm_middle.mem_iff.mp hu)
    · exact ⟨y, List.perm_middle.mem_iff.mpr List.mem_cons_self, hxy⟩
    · exact ⟨u, List.perm_middle.mem_iff.mpr (List.mem_cons_of_mem y hold), (hx u hu).beq_self⟩
  exact length_distinct_eq hd' hd (hexchange w v (hv.exchangeable.symm h) hd')
    (hexchange v w h hd)

/-- **Equality of data** is an equivalence.  Successes, failures and the two branches of an either
are equal only to the same variant of an equal payload.  Equal data can be hashed together or not at
all, and with the same hash.  The size of the set of a row of data stays the same when the row is
put in another order, when one of its values is put in once more, and when one of them is exchanged
for an equal one. -/
theorem equality_and_sets :
    (∀ v : Value, IsData v →
      (v == v) = true ∧
      (∀ w : Value, (v == w) = true → (w == v) = true) ∧
      (∀ w u : Value, (v == w) = true → (w == u) = true → (v == u) = true) ∧
      (∀ w : Value, (v == w) = true →
        v.unhashable? = w.unhashable? ∧ v.hashCode = w.hashCode)) ∧
    (∀ (k l : Variant) (v w : Value),
      (k.wrap v == l.wrap w) = true ↔ k = l ∧ (v == w) = true) ∧
    (∀ values : List Value, AreData values →
      (∀ others, others.Perm values → (distinct others).length = (distinct values).length) ∧
      (∀ front rest v, values = front ++ rest → v ∈ values →
        (distinct (front ++ v :: rest)).length = (distinct values).length) ∧
      (∀ front rest v w, values = front ++ v :: rest → IsData w → (v == w) = true →
        (distinct (front ++ w :: rest)).length = (distinct values).length)) := by
  refine ⟨fun v hv => ⟨hv.beq_self, fun w => hv.exchangeable.symm,
    fun w u => hv.exchangeable.trans, fun w hw => ?_⟩, wrap_beq_wrap, fun values hd => ?_⟩
  · have hsame := hv.sameHash hw
    exact ⟨hsame.unhashable, hsame.hashCode⟩
  · refine ⟨fun others h => length_distinct_perm hd h, ?_, ?_⟩
    · rintro front rest v rfl hv
      exact length_distinct_repeated hd hv
    · rintro front rest v w rfl hw h
      exact length_distinct_replaced hd hw h

/-- Two dictionaries with their entries in different order, one of them with a truth value for a
number, and sets in which one of them stands for the other. -/
theorem equality_and_sets_dictionaries :
    let v := Value.failure (.dictionary
      (Keyed.ofList [(.int 1, .text "a"), (.text "k", .ok (.bool true))]))
    let w := Value.failure (.dictionary
      (Keyed.ofList [(.text "k", .ok (.int 1)), (.bool true, .text "a")]))
    (v == w) = true ∧ (w == v) = true ∧
      (distinct [.tuple [v], .int 0, .tuple [w]]).length =
        (distinct [.tuple [v], .int 0, .tuple [v]]).length := by
  intro v w
  have hv : IsData v := .variant .failure <| .ofList <| by
    simp only [List.forall_mem_cons]
    exact ⟨⟨.int 1, .text "a"⟩, ⟨.text "k", .variant .ok (.bool true)⟩, nofun⟩
  have hw : IsData w := .variant .failure <| .ofList <| by
    simp only [List.forall_mem_cons]
    exact ⟨⟨.text "k", .variant .ok (.int 1)⟩, ⟨.bool true, .text "a"⟩, nofun⟩
  have hvw : (v == w) = true := by decide
  have hrow : ∀ u : Value, IsData u → IsData (.tuple [u]) := fun u hu =>
    .tuple (List.forall_mem_singleton.mpr hu)
  have hdata : AreData [.tuple [v], .int 0, .tuple [v]] := by
    simp only [AreData, List.forall_mem_cons]
    exact ⟨hrow v hv, .int 0, hrow v hv, nofun⟩
  have htuples : (Value.tuple [v] == Value.tuple [w]) = true := by decide
  exact ⟨hvw, (equality_and_sets.1 v hv).2.1 w hvw,
    (equality_and_sets.2.2 _ hdata).2.2 [.tuple [v], .int 0] [] (.tuple [v]) (.tuple [w]) rfl
      (hrow w hw) htuples⟩

end Accrual.Value
