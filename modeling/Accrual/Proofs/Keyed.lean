import Accrual.Keyed
import Accrual.Value.Equality
import Mathlib.Data.List.Induction

/-!
# Looking into keyed lists

What is found under a key after entries were put in: of several entries with the
same key the one that came last, and else what was there before.  Where no key
comes twice, merged entries stand one behind the other (`merge_of_nodup`).

As lists, and so with the order of their keys, entries obey a few equations: a
key that is there already can be put in before or after others (`insert_comm`),
keys are taken out at once or one after the other (`erase_erase`), and before or
after others are merged (`erase_merge`).
-/

namespace Accrual

theorem Entries.ofTexts_cons (field : String × Value) (rest : List (String × Value)) :
    Entries.ofTexts (field :: rest) = (.text field.1, field.2) :: Entries.ofTexts rest := rfl

namespace Keyed

/-! ### Any keys -/

section

variable {κ α : Type} [BEq κ]

/-- A key is found once it is put in, if it is equal to itself from both sides. -/
theorem lookup_insert_self {key : κ} (hself : (key == key) = true)
    (hsymm : ∀ other : κ, (other == key) = (key == other)) (content : α) (entries : List (κ × α)) :
    (insert key content entries).lookup key = some content := by
  induction entries with
  | nil => simp only [insert, List.lookup_cons, hself]
  | cons entry rest ih =>
      obtain ⟨other, old⟩ := entry
      unfold insert
      cases h : other == key with
      | true =>
          rw [hsymm] at h
          simp only [if_true, List.lookup_cons, h]
      | false =>
          rw [hsymm] at h
          simp only [Bool.false_eq_true, if_false, List.lookup_cons, h, ih]

/-- Putting in an entry changes nothing for the keys that are not equal to any spelling of its
key. -/
theorem lookup_insert_of_ne {key other : κ} (hne : (key == other) = false)
    (hspelled : ∀ spelled : κ, (spelled == other) = true → (key == spelled) = false) (content : α)
    (entries : List (κ × α)) : (insert other content entries).lookup key = entries.lookup key := by
  induction entries with
  | nil => simp only [insert, List.lookup_cons, hne]
  | cons entry rest ih =>
      obtain ⟨spelled, old⟩ := entry
      unfold insert
      cases h : spelled == other with
      | true => simp only [if_true, List.lookup_cons, hspelled spelled h]
      | false => simp only [Bool.false_eq_true, if_false, List.lookup_cons, ih]

/-- No key comes in but the one that is put in. -/
theorem mem_keys_insert {k key : κ} {content : α} {entries : List (κ × α)}
    (h : k ∈ (insert key content entries).map Prod.fst) : k = key ∨ k ∈ entries.map Prod.fst := by
  have hall : ∀ e ∈ insert key content entries, (e.1 = key ∨ e.1 ∈ entries.map Prod.fst) ∧ True :=
    forall_mem_insert (K := fun k => k = key ∨ k ∈ entries.map Prod.fst) (C := fun _ => True)
      (.inl rfl) trivial fun e he => ⟨.inr (List.mem_map_of_mem he), trivial⟩
  obtain ⟨e, he, rfl⟩ := List.mem_map.mp h
  exact (hall e he).1

/-- A key that equals none of those there goes to the end. -/
theorem insert_of_differ {key : κ} {entries : List (κ × α)}
    (h : ∀ e ∈ entries, (e.1 == key) = false) (content : α) :
    insert key content entries = entries ++ [(key, content)] := by
  induction entries with
  | nil => rfl
  | cons entry rest ih =>
      obtain ⟨hentry, hrest⟩ := List.forall_mem_cons.mp h
      rw [insert, hentry, ih hrest]
      rfl

/-- Where no key equals one that comes after it, merged entries stand one behind the other. -/
theorem merge_of_differ {entries more : List (κ × α)}
    (h : (entries ++ more).Pairwise fun e f => (e.1 == f.1) = false) :
    merge entries more = entries ++ more := by
  induction more generalizing entries with
  | nil => exact (List.append_nil entries).symm
  | cons entry rest ih =>
      have hnew : ∀ e ∈ entries, (e.1 == entry.1) = false := fun e he =>
        (List.pairwise_append.mp h).2.2 e he entry List.mem_cons_self
      rw [List.append_cons] at h
      rw [merge_cons, insert_of_differ hnew, ih h, ← List.append_cons]

theorem merge_append (entries more further : List (κ × α)) :
    merge entries (more ++ further) = merge (merge entries more) further := List.foldl_append

/-! ### The same key once more -/

/-- **Put in twice**, an entry takes the second content. -/
theorem insert_insert {key : κ} (hself : (key == key) = true) (first second : α)
    (entries : List (κ × α)) :
    insert key second (insert key first entries) = insert key second entries := by
  induction entries with
  | nil => simp only [insert, hself, if_true]
  | cons entry rest ih =>
      cases h : entry.1 == key with
      | true => simp only [insert, h, if_true]
      | false => simp only [insert, h, Bool.false_eq_true, if_false, ih]

def Has (key : κ) (entries : List (κ × α)) : Prop := ∃ e ∈ entries, (e.1 == key) = true

theorem not_has_nil {key : κ} : ¬Has key ([] : List (κ × α)) :=
  fun h => List.not_mem_nil h.choose_spec.1

theorem has_cons {key : κ} {entry : κ × α} {rest : List (κ × α)} :
    Has key (entry :: rest) ↔ (entry.1 == key) = true ∨ Has key rest := by
  simp only [Has, List.mem_cons, or_and_right, exists_or, exists_eq_left]

theorem Has.tail {key : κ} {entry : κ × α} {rest : List (κ × α)} (h : Has key (entry :: rest))
    (hne : (entry.1 == key) = false) : Has key rest :=
  (has_cons.mp h).resolve_left (Bool.eq_false_iff.mp hne)

theorem has_insert_self {key : κ} (hself : (key == key) = true) (content : α)
    (entries : List (κ × α)) : Has key (insert key content entries) := by
  induction entries with
  | nil => exact has_cons.mpr (.inl hself)
  | cons entry rest ih =>
      unfold insert
      cases h : entry.1 == key with
      | true => exact has_cons.mpr (.inl h)
      | false => exact has_cons.mpr (.inr ih)

theorem has_insert {key : κ} {entries : List (κ × α)} (h : Has key entries) (other : κ)
    (content : α) : Has key (insert other content entries) := by
  induction entries with
  | nil => exact absurd h not_has_nil
  | cons entry rest ih =>
      rw [has_cons] at h
      unfold insert
      cases entry.1 == other with
      | true => exact has_cons.mpr h
      | false => exact has_cons.mpr (h.imp_right ih)

theorem map_fst_insert {key : κ} {entries : List (κ × α)} (h : Has key entries) (content : α) :
    (insert key content entries).map Prod.fst = entries.map Prod.fst := by
  induction entries with
  | nil => exact absurd h not_has_nil
  | cons entry rest ih =>
      unfold insert
      cases hkey : entry.1 == key with
      | true => rfl
      | false => exact congrArg (entry.1 :: ·) (ih (h.tail hkey))

/-- **A key that is there already** keeps its place, so that it does not matter whether its content
comes before or after another entry. -/
theorem insert_comm {key other : κ} (hne : ∀ k : κ, (k == key) = true → (k == other) = false)
    {entries : List (κ × α)} (h : Has key entries) (content further : α) :
    insert key content (insert other further entries) =
      insert other further (insert key content entries) := by
  induction entries with
  | nil => exact absurd h not_has_nil
  | cons entry rest ih =>
      cases hkey : entry.1 == key with
      | true => simp only [insert, hkey, hne _ hkey, if_true, Bool.false_eq_true, if_false]
      | false =>
          cases hother : entry.1 == other with
          | true => simp only [insert, hkey, hother, if_true, Bool.false_eq_true, if_false]
          | false =>
              simp only [insert, hkey, hother, Bool.false_eq_true, if_false, ih (h.tail hkey)]

theorem merge_insert {key : κ} {more : List (κ × α)}
    (hne : ∀ e ∈ more, ∀ k : κ, (k == key) = true → (k == e.1) = false)
    {entries : List (κ × α)} (h : Has key entries) (content : α) :
    merge (insert key content entries) more = insert key content (merge entries more) := by
  induction more generalizing entries with
  | nil => rfl
  | cons entry rest ih =>
      obtain ⟨hentry, hrest⟩ := List.forall_mem_cons.mp hne
      rw [merge_cons, merge_cons, ← insert_comm hentry h, ih hrest (has_insert h _ _)]

/-! ### Keys taken out -/

theorem erase_cons (keys : List κ) (entry : κ × α) (rest : List (κ × α)) :
    erase keys (entry :: rest) =
      if keys.contains entry.1 then erase keys rest else entry :: erase keys rest := by
  rw [erase, List.filter_cons]
  cases keys.contains entry.1 <;> rfl

theorem contains_congr {k k' : κ} (h : ∀ y : κ, (k == y) = (k' == y)) (keys : List κ) :
    keys.contains k = keys.contains k' := by
  rw [List.contains_eq_any_beq, List.contains_eq_any_beq]
  exact congrArg keys.any (funext h)

/-- **Taken out twice**: what is among the first keys or among the second ones. -/
theorem erase_erase {first second both : List κ}
    (h : ∀ k : κ, k ∈ both ↔ k ∈ first ∨ k ∈ second) (entries : List (κ × α)) :
    erase second (erase first entries) = erase both entries := by
  have hcontains : ∀ k : κ, both.contains k = (first.contains k || second.contains k) := by
    intro k
    rw [Bool.eq_iff_iff, Bool.or_eq_true]
    simp only [List.contains_eq_any_beq, List.any_eq_true, h]
    constructor
    · rintro ⟨y, hy | hy, hk⟩
      · exact .inl ⟨y, hy, hk⟩
      · exact .inr ⟨y, hy, hk⟩
    · rintro (⟨y, hy, hk⟩ | ⟨y, hy, hk⟩)
      · exact ⟨y, .inl hy, hk⟩
      · exact ⟨y, .inr hy, hk⟩
  rw [erase, erase, erase, List.filter_filter]
  refine List.filter_congr fun e _ => ?_
  rw [hcontains, Bool.not_or, Bool.and_comm]

/-- An entry is put in and its key taken out, or it is put in where the keys are taken out. -/
theorem erase_insert {keys : List κ} {key : κ}
    (hsame : ∀ k : κ, (k == key) = true → keys.contains k = keys.contains key) (content : α)
    (entries : List (κ × α)) :
    erase keys (insert key content entries) =
      if keys.contains key then erase keys entries
      else insert key content (erase keys entries) := by
  induction entries with
  | nil => rw [insert, erase_cons]; rfl
  | cons entry rest ih =>
      cases hkey : entry.1 == key with
      | true =>
          rw [insert, hkey, if_pos rfl, erase_cons, erase_cons, hsame _ hkey]
          cases keys.contains key with
          | true => rfl
          | false => simp only [insert, hkey, Bool.false_eq_true, if_false, if_true]
      | false =>
          rw [insert, hkey, if_neg Bool.false_ne_true, erase_cons, erase_cons, ih]
          cases keys.contains key with
          | true => rfl
          | false =>
              cases keys.contains entry.1 with
              | true => rfl
              | false => simp only [insert, hkey, Bool.false_eq_true, if_false]

/-- **Merged and then taken out** is taken out, and then merged with what is left of the rest. -/
theorem erase_merge {keys : List κ} {more : List (κ × α)}
    (hsame : ∀ e ∈ more, ∀ k : κ, (k == e.1) = true → keys.contains k = keys.contains e.1)
    (entries : List (κ × α)) :
    erase keys (merge entries more) = merge (erase keys entries) (erase keys more) := by
  induction more generalizing entries with
  | nil => rfl
  | cons entry rest ih =>
      obtain ⟨hentry, hrest⟩ := List.forall_mem_cons.mp hsame
      rw [merge_cons, ih hrest, erase_insert hentry, erase_cons]
      cases keys.contains entry.1 <;> rfl

/-! ### Entries found, changed and left out -/

theorem find?_map_snd (key : κ) (entries : List (κ × α)) :
    (entries.find? fun e => key == e.1).map Prod.snd = entries.lookup key := by
  induction entries with
  | nil => rfl
  | cons e rest ih =>
      rw [List.find?_cons, List.lookup_cons]
      cases key == e.1 with
      | true => rfl
      | false => exact ih

theorem lookup_map {β : Type} (f : α → β) (key : κ) (entries : List (κ × α)) :
    (entries.map fun e => (e.1, f e.2)).lookup key = (entries.lookup key).map f := by
  induction entries with
  | nil => rfl
  | cons e rest ih =>
      rw [List.map_cons, List.lookup_cons, List.lookup_cons]
      cases key == e.1 with
      | true => rfl
      | false => exact ih

end

/-! ### Keys that are equal only to themselves -/

section

variable {κ α : Type} [BEq κ] [LawfulBEq κ]

theorem lookup_insert (key other : κ) (content : α) (entries : List (κ × α)) :
    (insert other content entries).lookup key =
      if key == other then some content else entries.lookup key := by
  cases h : key == other with
  | true =>
      obtain rfl := eq_of_beq h
      exact lookup_insert_self BEq.rfl (fun _ => BEq.comm) content entries
  | false =>
      refine lookup_insert_of_ne h (fun spelled hs => ?_) content entries
      obtain rfl := eq_of_beq hs
      exact h

/-- **Merged entries**: the last of the new ones with the key, or else what was there. -/
theorem lookup_merge (key : κ) (entries more : List (κ × α)) :
    (merge entries more).lookup key = (more.reverse.lookup key).or (entries.lookup key) := by
  induction more generalizing entries with
  | nil => rfl
  | cons entry rest ih =>
      obtain ⟨other, content⟩ := entry
      rw [merge_cons, ih, lookup_insert, List.reverse_cons, List.lookup_append]
      cases h : key == other <;>
        cases rest.reverse.lookup key <;> simp [List.lookup_cons, h]

theorem lookup_ofList (key : κ) (entries : List (κ × α)) :
    (ofList entries).lookup key = entries.reverse.lookup key := by
  rw [ofList, lookup_merge]
  simp

theorem lookup_filter (p : κ → Bool) (key : κ) (entries : List (κ × α)) :
    (entries.filter fun e => p e.1).lookup key = if p key then entries.lookup key else none := by
  induction entries with
  | nil => simp
  | cons e rest ih =>
      obtain ⟨other, content⟩ := e
      rw [List.filter_cons, List.lookup_cons]
      cases hkey : key == other with
      | true =>
          obtain rfl := eq_of_beq hkey
          cases hp : p key with
          | true => simp
          | false => simp [ih, hp]
      | false =>
          cases p other with
          | true => simp [List.lookup_cons, hkey, ih]
          | false => simp [ih]

/-! ### Distinct keys -/

theorem nodup_insert (key : κ) (content : α) {entries : List (κ × α)}
    (h : (entries.map Prod.fst).Nodup) : ((insert key content entries).map Prod.fst).Nodup := by
  induction entries with
  | nil => simp [insert]
  | cons entry rest ih =>
      obtain ⟨hnew, hrest⟩ := List.nodup_cons.mp h
      unfold insert
      cases hk : entry.1 == key with
      | true => exact h
      | false =>
          refine List.nodup_cons.mpr ⟨fun hmem => ?_, ih hrest⟩
          obtain hkey | hold := mem_keys_insert hmem
          · exact beq_eq_false_iff_ne.mp hk hkey
          · exact hnew hold

theorem nodup_merge {entries : List (κ × α)} (h : (entries.map Prod.fst).Nodup)
    (more : List (κ × α)) : ((merge entries more).map Prod.fst).Nodup := by
  induction more generalizing entries with
  | nil => exact h
  | cons entry rest ih => exact ih (nodup_insert entry.1 entry.2 h)

theorem nodup_ofList (entries : List (κ × α)) : ((ofList entries).map Prod.fst).Nodup :=
  nodup_merge (by simp) entries

/-- Where no key is given twice, merged entries stand one behind the other. -/
theorem merge_of_nodup {entries more : List (κ × α)}
    (h : ((entries ++ more).map Prod.fst).Nodup) : merge entries more = entries ++ more :=
  merge_of_differ ((List.pairwise_map.mp h).imp beq_eq_false_iff_ne.mpr)

theorem lookup_of_mem {entries : List (κ × α)} (h : (entries.map Prod.fst).Nodup) {entry : κ × α}
    (he : entry ∈ entries) : entries.lookup entry.1 = some entry.2 := by
  induction entries with
  | nil => cases he
  | cons first rest ih =>
      obtain ⟨hnew, hrest⟩ := List.nodup_cons.mp h
      obtain ⟨key, content⟩ := first
      obtain rfl | hmem := List.mem_cons.mp he
      · exact List.lookup_cons_self
      · have hne : (entry.1 == key) = false := by
          refine beq_eq_false_iff_ne.mpr fun heq => hnew ?_
          exact List.mem_map.mpr ⟨entry, hmem, heq⟩
        rw [List.lookup_cons, hne]
        exact ih hrest hmem

theorem ofList_of_nodup {entries : List (κ × α)} (h : (entries.map Prod.fst).Nodup) :
    ofList entries = entries := merge_of_nodup h

/-- Where keys are distinct, the first entry with a key is the last one. -/
theorem lookup_reverse {entries : List (κ × α)} (h : (entries.map Prod.fst).Nodup) (key : κ) :
    entries.reverse.lookup key = entries.lookup key := by
  induction entries with
  | nil => rfl
  | cons entry rest ih =>
      obtain ⟨hnew, hrest⟩ := List.nodup_cons.mp h
      obtain ⟨other, content⟩ := entry
      rw [List.reverse_cons, List.lookup_append, ih hrest]
      cases hk : key == other with
      | true =>
          obtain rfl := eq_of_beq hk
          have hnone : rest.lookup key = none := by
            refine List.lookup_eq_none_iff.mpr fun e he => bne_iff_ne.mpr fun heq => hnew ?_
            exact List.mem_map.mpr ⟨e, he, heq.symm⟩
          simp [hnone]
      | false => simp [List.lookup_cons, hk]

/-- An entry whose key does not come again stays as it was. -/
theorem lookup_merge_left {entries more : List (κ × α)} (h : (entries.map Prod.fst).Nodup)
    {entry : κ × α} (he : entry ∈ entries) (hnew : entry.1 ∉ more.map Prod.fst) :
    (merge entries more).lookup entry.1 = some entry.2 := by
  have hnone : more.reverse.lookup entry.1 = none :=
    List.lookup_eq_none_iff.mpr fun other hother => bne_iff_ne.mpr fun heq =>
      hnew (List.mem_map.mpr ⟨other, List.mem_reverse.mp hother, heq.symm⟩)
  rw [lookup_merge, hnone, Option.none_or, lookup_of_mem h he]

/-- A new entry goes before what was there. -/
theorem lookup_merge_right {more : List (κ × α)} (h : (more.map Prod.fst).Nodup) {entry : κ × α}
    (he : entry ∈ more) (entries : List (κ × α)) :
    (merge entries more).lookup entry.1 = some entry.2 := by
  rw [lookup_merge, lookup_reverse h, lookup_of_mem h he, Option.some_or]

end

/-! ### Texts among values -/

section

/-- No value equals two different texts; a fault code may stand for either, but not for both. -/
theorem beq_other_text {name other : String} (h : name ≠ other) {v : Value}
    (hv : (v == .text name) = true) : (v == .text other) = false := by
  have hne : (name == other) = false := beq_eq_false_iff_ne.mpr h
  cases v with
  | text s =>
      obtain rfl : s = name := eq_of_beq hv
      exact hne
  | code c =>
      obtain rfl : c.text = name := eq_of_beq hv
      exact hne
  | _ => cases hv

theorem text_beq_self (name : String) : (Value.text name == Value.text name) = true :=
  beq_self_eq_true name

variable (name : String) (content : Value) (entries : Entries)

theorem lookup_insert_text :
    (insert (.text name) content entries).lookup (.text name) = some content := by
  refine lookup_insert_self ?_ (fun other => ?_) content entries
  · exact beq_self_eq_true name
  · cases other with
    | text s => exact (BEq.comm : (s == name) = (name == s))
    | code c => exact (BEq.comm : (c.text == name) = (name == c.text))
    | _ => rfl

theorem insert_ofTexts (fields : List (String × Value)) :
    insert (.text name) content (Entries.ofTexts fields) =
      Entries.ofTexts (insert name content fields) := by
  induction fields with
  | nil => rfl
  | cons field rest ih =>
      have hkey : (Value.text field.1 == Value.text name) = (field.1 == name) := rfl
      unfold insert
      rw [Entries.ofTexts_cons]
      dsimp only
      rw [hkey]
      cases field.1 == name with
      | true => rfl
      | false => exact congrArg (_ :: ·) ih

/-- A text is found where it was if another text is put in.  A fault code may stand for either, but
not for both. -/
theorem lookup_insert_other_text {name other : String} (h : name ≠ other) :
    (insert (.text other) content entries).lookup (.text name) = entries.lookup (.text name) := by
  have hne : (name == other) = false := beq_eq_false_iff_ne.mpr h
  have htext : (Value.text name == Value.text other) = false := hne
  refine lookup_insert_of_ne htext (fun spelled hs => ?_) content entries
  cases spelled with
  | text s =>
      obtain rfl : s = other := eq_of_beq hs
      exact hne
  | code c =>
      obtain rfl : c.text = other := eq_of_beq hs
      exact hne
  | _ => cases hs

end

/-- Entries with texts for keys are merged as their fields are. -/
theorem merge_ofTexts (fields more : List (String × Value)) :
    merge (Entries.ofTexts fields) (Entries.ofTexts more) =
      Entries.ofTexts (merge fields more) := by
  induction more generalizing fields with
  | nil => rfl
  | cons field rest ih =>
      rw [Entries.ofTexts_cons, merge_cons, merge_cons, insert_ofTexts, ih]

/-- Fields that are merged with a field put in are merged, and then the field is put in. -/
theorem merge_ofTexts_insert {fields : List (String × Value)} (h : (fields.map Prod.fst).Nodup)
    (name : String) (content : Value) (entries : Entries) :
    merge entries (Entries.ofTexts (insert name content fields)) =
      insert (.text name) content (merge entries (Entries.ofTexts fields)) := by
  induction fields generalizing entries with
  | nil => rfl
  | cons field rest ih =>
      obtain ⟨hnew, hrest⟩ := List.nodup_cons.mp h
      have hinsert : insert name content (field :: rest) =
          if field.1 == name then (field.1, content) :: rest
          else field :: insert name content rest := rfl
      rw [hinsert]
      cases hfield : field.1 == name with
      | true =>
          obtain rfl : field.1 = name := eq_of_beq hfield
          have hothers : ∀ e ∈ Entries.ofTexts rest, ∀ k : Value,
              (k == .text field.1) = true → (k == e.1) = false := by
            intro e he k hk
            obtain ⟨other, hother, rfl⟩ := List.mem_map.mp he
            refine beq_other_text (fun heq => hnew ?_) hk
            exact List.mem_map.mpr ⟨other, hother, heq.symm⟩
          have hhas := has_insert_self (text_beq_self field.1) field.2 entries
          simp only [if_true, Entries.ofTexts_cons, merge_cons]
          rw [← merge_insert hothers hhas, insert_insert (text_beq_self field.1)]
      | false =>
          simp only [Bool.false_eq_true, if_false, Entries.ofTexts_cons, merge_cons]
          exact ih hrest _

/-- It does not matter whether fields are put together before they are merged. -/
theorem merge_ofTexts_ofList (entries : Entries) (fields : List (String × Value)) :
    merge entries (Entries.ofTexts (ofList fields)) = merge entries (Entries.ofTexts fields) := by
  induction fields using List.reverseRecOn with
  | nil => rfl
  | append_singleton front field ih =>
      have hput : ofList (front ++ [field]) = insert field.1 field.2 (ofList front) :=
        merge_append [] front [field]
      have hlast : Entries.ofTexts (front ++ [field]) =
          Entries.ofTexts front ++ [(.text field.1, field.2)] := List.map_append
      rw [hput, merge_ofTexts_insert (nodup_ofList front), ih, hlast, merge_append]
      rfl

end Keyed

end Accrual
