import Accrual.Proofs.Values.Keys
import Mathlib.Data.List.DropRight
import Mathlib.Data.List.Induction

/-!
# Histories of dictionaries

What a dictionary holds is told from its history, the row of what happened to its
keys (`Touch`): a key has the content that it was given last, unless it was
dropped since then, and the keys stand in the order in which they were given
first since they were dropped last (`Told`).  Each touch preserves this
(`Told.put`, `Told.drop`), and so does a row of them (`told_replay`).
-/

namespace Accrual

/-- What happens to one key: it is given content, or it is dropped. -/
inductive Touch
  | put (key content : Value)
  | drop (key : Value)

namespace Touch

def apply : Touch → Entries → Entries
  | put key content, entries => Keyed.insert key content entries
  | drop key, entries => Keyed.erase [key] entries

def content? (key : Value) : Touch → Option Value
  | put k content => if key == k then some content else none
  | drop _ => none

def drops (key : Value) : Touch → Bool
  | put _ _ => false
  | drop k => key == k

/-- The touches since the one that dropped the key last, or all of them. -/
def since (key : Value) (history : List Touch) : List Touch :=
  history.rtakeWhile fun touch => !touch.drops key

/-- What the key was given last, unless it was dropped since then. -/
def last? (key : Value) (history : List Touch) : Option Value :=
  (since key history).reverse.findSome? (content? key)

/-- The place in the history where the key was given something first since it was dropped last. -/
def birth (key : Value) (history : List Touch) : Nat :=
  history.length - (since key history).length +
    (since key history).findIdx fun touch => (touch.content? key).isSome

def replay (history : List Touch) : Entries :=
  history.foldl (fun entries touch => touch.apply entries) []

variable {key : Value} {history : List Touch} {touch : Touch}

theorem since_concat_of_drops (h : touch.drops key = true) :
    since key (history ++ [touch]) = [] := by
  rw [since, List.rtakeWhile_concat, h]
  rfl

theorem since_concat (h : touch.drops key = false) :
    since key (history ++ [touch]) = since key history ++ [touch] := by
  rw [since, List.rtakeWhile_concat, h]
  rfl

theorem length_since_le (key : Value) (history : List Touch) :
    (since key history).length ≤ history.length := (List.rtakeWhile_suffix _ _).length_le

theorem last?_concat_of_drops (h : touch.drops key = true) :
    last? key (history ++ [touch]) = none := by
  rw [last?, since_concat_of_drops h]
  rfl

theorem last?_concat (h : touch.drops key = false) :
    last? key (history ++ [touch]) = (touch.content? key).or (last? key history) := by
  rw [last?, since_concat h, List.reverse_concat, List.findSome?_cons]
  cases touch.content? key <;> rfl

theorem isSome_last? :
    (last? key history).isSome = true ↔
      ∃ touch ∈ since key history, (touch.content? key).isSome = true := by
  rw [last?, List.findSome?_isSome_iff]
  simp only [List.mem_reverse]

/-- A key that is there and not dropped keeps the place of its birth. -/
theorem birth_concat (hthere : (last? key history).isSome = true) (h : touch.drops key = false) :
    birth key (history ++ [touch]) = birth key history := by
  have hfound := List.findIdx_lt_length.mpr (isSome_last?.mp hthere)
  have hle := length_since_le key history
  rw [birth, birth, since_concat h, List.findIdx_append, if_pos hfound]
  simp only [List.length_append, List.length_singleton]
  omega

theorem birth_lt (hthere : (last? key history).isSome = true) :
    birth key history < history.length := by
  have hfound := List.findIdx_lt_length.mpr (isSome_last?.mp hthere)
  have hle := length_since_le key history
  rw [birth]
  omega

/-- A key that is not there is born where it is given something. -/
theorem birth_concat_of_new (hnew : last? key history = none)
    (h : (touch.content? key).isSome = true) : birth key (history ++ [touch]) = history.length := by
  have hdrops : touch.drops key = false := by
    cases touch with
    | put k content => rfl
    | drop k => cases h
  have hnone : ¬(since key history).findIdx (fun touch => (touch.content? key).isSome) <
      (since key history).length := by
    rw [List.findIdx_lt_length, ← isSome_last?, hnew]
    exact Bool.false_ne_true
  have hfirst : [touch].findIdx (fun touch => (touch.content? key).isSome) = 0 := by
    rw [List.findIdx_cons, h]
    rfl
  have hle := length_since_le key history
  rw [birth, since_concat hdrops, List.findIdx_append, if_neg hnone, hfirst]
  simp only [List.length_append, List.length_singleton]
  omega

end Touch

open Touch

/-- **The entries are told from the history**: which content each key has, and the order of the
keys. -/
structure Told (history : List Touch) (entries : Entries) : Prop where
  dictionary : entries.IsDictionary
  content : ∀ key : Value, key.IsKey → entries.lookup key = last? key history
  order : (entries.map Prod.fst).Pairwise fun a b => birth a history < birth b history

namespace Told

variable {history : List Touch} {entries : Entries}

theorem nil : Told [] [] where
  dictionary := Entries.isDictionary_nil
  content _ _ := rfl
  order := .nil

theorem isSome_of_mem (h : Told history entries) {key : Value}
    (hkey : key ∈ entries.map Prod.fst) : (last? key history).isSome = true := by
  obtain ⟨e, he, rfl⟩ := List.mem_map.mp hkey
  have hk := h.dictionary.keys e he
  rw [← h.content e.1 hk, Option.isSome_iff_ne_none]
  intro hnone
  have hne := List.lookup_eq_none_iff.mp hnone e he
  rw [bne, hk.regular.refl] at hne
  cases hne

/-- The keys that stay keep their order. -/
theorem order_concat (h : Told history entries) {touch : Touch} {keys : List Value}
    (hsub : keys.Sublist (entries.map Prod.fst)) (hkept : ∀ key ∈ keys, touch.drops key = false) :
    keys.Pairwise fun a b => birth a (history ++ [touch]) < birth b (history ++ [touch]) := by
  refine (h.order.sublist hsub).imp_of_mem fun ha hb hlt => ?_
  rw [birth_concat (h.isSome_of_mem (hsub.subset ha)) (hkept _ ha),
    birth_concat (h.isSome_of_mem (hsub.subset hb)) (hkept _ hb)]
  exact hlt

/-- **A key that is given content** keeps its place if it is there, or else it goes to the end. -/
theorem put (h : Told history entries) {key : Value} (hkey : key.IsKey) (content : Value) :
    Told (history ++ [.put key content]) (Keyed.insert key content entries) where
  dictionary := h.dictionary.insert hkey content
  content k hk := by
    rw [Keyed.lookup_insert_key hk hkey content h.dictionary.keys, last?_concat rfl, h.content k hk,
      content?]
    cases k == key <;> rfl
  order := by
    by_cases hhas : Keyed.Has key entries
    · have hkeys : (Keyed.insert key content entries).map Prod.fst = entries.map Prod.fst :=
        Keyed.map_fst_insert hhas content
      rw [hkeys]
      exact h.order_concat (List.Sublist.refl _) fun _ _ => rfl
    · have hdiffer : ∀ e ∈ entries, (e.1 == key) = false := fun e he =>
        Bool.eq_false_iff.mpr fun heq => hhas ⟨e, he, heq⟩
      have hnew : last? key history = none := by
        rw [← h.content key hkey, List.lookup_eq_none_iff]
        intro e he
        rw [bne, hkey.beq_comm (h.dictionary.keys e he), hdiffer e he]
        rfl
      have hgiven : ((Touch.put key content).content? key).isSome = true := by
        rw [content?, hkey.regular.refl]
        rfl
      rw [Keyed.insert_of_differ hdiffer, List.map_append]
      refine List.pairwise_append.mpr ⟨?_, List.pairwise_singleton _ _, ?_⟩
      · exact h.order_concat (List.Sublist.refl _) fun _ _ => rfl
      · intro a ha b hb
        obtain rfl : b = key := List.mem_singleton.mp hb
        rw [birth_concat (h.isSome_of_mem ha) rfl, birth_concat_of_new hnew hgiven]
        exact birth_lt (h.isSome_of_mem ha)

/-- **A key that is dropped** is gone, and the others stay in their order. -/
theorem drop (h : Told history entries) (key : Value) :
    Told (history ++ [.drop key]) (Keyed.erase [key] entries) where
  dictionary := h.dictionary.erase [key]
  content k hk := by
    have hcontains : [key].contains k = (Touch.drop key).drops k := by
      rw [List.contains_cons]
      exact Bool.or_false _
    rw [Keyed.lookup_erase_key hk [key] h.dictionary.keys, hcontains]
    cases hdrops : (Touch.drop key).drops k with
    | true => rw [last?_concat_of_drops hdrops, if_pos rfl]
    | false => rw [last?_concat hdrops, if_neg Bool.false_ne_true, h.content k hk]; rfl
  order := by
    have hsub : (Keyed.erase [key] entries).Sublist entries := List.filter_sublist
    refine h.order_concat (hsub.map Prod.fst) fun k hk => ?_
    obtain ⟨e, he, rfl⟩ := List.mem_map.mp hk
    have hleft := (List.mem_filter.mp he).2
    rw [List.contains_cons, Bool.not_eq_true', Bool.or_eq_false_iff] at hleft
    exact hleft.1

end Told

/-- **A history tells what it leaves.** -/
theorem told_replay {history : List Touch}
    (h : ∀ key content, Touch.put key content ∈ history → key.IsKey) :
    Told history (replay history) := by
  induction history using List.reverseRecOn with
  | nil => exact .nil
  | append_singleton front touch ih =>
      have hfront := ih fun key content hmem => h key content (List.mem_append_left _ hmem)
      have hreplay : replay (front ++ [touch]) = touch.apply (replay front) := by
        rw [replay, List.foldl_append]
        rfl
      rw [hreplay]
      cases touch with
      | put key content =>
          exact hfront.put (h key content (List.mem_append_right _ List.mem_cons_self)) content
      | drop key => exact hfront.drop key

end Accrual
