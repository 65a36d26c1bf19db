import Accrual.Proofs.Keyed
import Accrual.Settings.Load

/-!
# What a source gives

A source holds a content under a name if a spelling of that name is assigned the
content (`Source.content?`).  For a source whose names are the documented ones
(`Source.IsDocumented`), a group comes to the contents under the long names of
its fields (`group?_ok`): no name reaches into a field, and no structured text
stands for the whole group.
-/

namespace Accrual

namespace Source

/-! ### Contents by name -/

/-- What is assigned to a name in any letter case; of several spellings, the later one counts. -/
def content? (source : Source) (name : String) : Option (Option String) :=
  (source.assigned.reverse.find? fun a => Text.lower name == Text.lower a.1).map Prod.snd

theorem lookup_contents (source : Source) (name : String) :
    source.contents.lookup (Text.lower name) = source.content? name := by
  rw [contents, Keyed.lookup_ofList, ← List.map_reverse, content?]
  induction source.assigned.reverse with
  | nil => rfl
  | cons a rest ih =>
      rw [List.map_cons, List.lookup_cons, List.find?_cons]
      cases Text.lower name == Text.lower a.1 with
      | true => rfl
      | false => exact ih

theorem content?_congr (source : Source) {name other : String}
    (h : Text.lower name = Text.lower other) : source.content? name = source.content? other := by
  rw [content?, content?, h]

/-- Every variable of the environment has a text. -/
theorem exists_text_of_content? {environment : List (String × String)} {name : String}
    {content : Option String} (h : (ofEnvironment environment).content? name = some content) :
    ∃ text, content = some text := by
  obtain ⟨a, ha, rfl⟩ := Option.map_eq_some_iff.mp h
  obtain ⟨v, _, rfl⟩ := List.mem_map.mp (List.mem_reverse.mp (List.mem_of_find?_eq_some ha))
  exact ⟨v.2, rfl⟩

/-! ### Documented names -/

def fieldNames : List String := ["level", "format", "colors", "separator", "bullet"]

def documentedNames : List String :=
  "validcase_debug" ::
    ["validcase_log_", "validcase_report_", "validcase_logging__", "validcase_report__"].flatMap
      fun beginning => fieldNames.map fun field => beginning ++ field

/-- Of the names that mean settings, the source has documented ones only. -/
def IsDocumented (source : Source) : Prop :=
  ∀ a ∈ source.assigned, family.toList.isPrefixOf (Text.lower a.1).toList →
    Text.lower a.1 ∈ documentedNames

instance (source : Source) : Decidable source.IsDocumented :=
  inferInstanceAs (Decidable (∀ a ∈ source.assigned,
    family.toList.isPrefixOf (Text.lower a.1).toList → Text.lower a.1 ∈ documentedNames))

theorem IsDocumented.mem {source : Source} (h : source.IsDocumented) :
    ∀ e ∈ source.contents, family.toList.isPrefixOf e.1.toList → e.1 ∈ documentedNames := by
  intro e he
  refine (Keyed.forall_mem_merge
    (K := fun name => family.toList.isPrefixOf name.toList → name ∈ documentedNames)
    (C := fun _ => True) (fun e he => ?_) (by simp) e he).1
  obtain ⟨a, ha, rfl⟩ := List.mem_map.mp he
  exact ⟨h a ha, trivial⟩

/-! ### Names inside a group -/

def longName (group field : String) : String := family ++ group ++ "__" ++ field

theorem inGroup?_eq_some {group name : String} {rest : List Char} :
    inGroup? group name = some rest ↔ name = longName group (String.ofList rest) := by
  rw [inGroup?, longName]
  constructor
  · intro h
    split at h
    next hp =>
      obtain ⟨t, ht⟩ := List.isPrefixOf_iff_prefix.mp hp
      rw [← ht, List.drop_left, Option.some.injEq] at h
      subst h
      rw [← String.toList_inj, String.toList_append, String.toList_ofList, ht]
    next => cases h
  · rintro rfl
    simp [List.isPrefixOf_iff_prefix]

/-- A long name is one of the group, and belongs to the family. -/
theorem inGroup?_longName (group field : String) :
    inGroup? group (longName group field) = some field.toList := by
  rw [inGroup?_eq_some, String.ofList_toList]

theorem isPrefixOf_longName (group field : String) :
    family.toList.isPrefixOf (longName group field).toList := by
  rw [longName, List.isPrefixOf_iff_prefix]
  simp [String.append_assoc, String.toList_append]

theorem longName_inj {group x y : String} : longName group x = longName group y ↔ x = y := by
  simp only [longName, ← String.toList_inj, String.toList_append, List.append_cancel_left_eq]

def groupNames : List String := ["logging", "report"]

/-- **No documented name reaches into a field**, or is that of a whole group. -/
theorem documented_inGroup :
    ∀ group ∈ groupNames, family ++ group ∉ documentedNames ∧ ∀ name ∈ documentedNames,
      (inGroup? group name).all fun rest =>
        splitName [] rest == [rest] && fieldNames.contains (String.ofList rest) := by
  decide +kernel

/-! ### Single fields -/

def fieldContent (content : Option String) : Json := content.elim .null .text

def given? (source : Source) (group field : String) : Option Json :=
  (source.contents.lookup (longName group field)).map fieldContent

theorem given?_eq (source : Source) {group field name : String}
    (h : Text.lower name = longName group field) :
    source.given? group field = (source.content? name).map fieldContent := by
  rw [given?, ← h, lookup_contents]

def groupEntries (group : String) (entries : List (String × Option String)) : Json.Fields :=
  entries.filterMap fun e =>
    (inGroup? group e.1).map fun rest => (String.ofList rest, fieldContent e.2)

theorem groupEntries_cons_of_none {group name : String} (h : inGroup? group name = none)
    (content : Option String) (entries : List (String × Option String)) :
    groupEntries group ((name, content) :: entries) = groupEntries group entries :=
  List.filterMap_cons_none (by rw [h, Option.map_none])

theorem groupEntries_cons_of_some {group name : String} {rest : List Char}
    (h : inGroup? group name = some rest) (content : Option String)
    (entries : List (String × Option String)) :
    groupEntries group ((name, content) :: entries) =
      (String.ofList rest, fieldContent content) :: groupEntries group entries :=
  List.filterMap_cons_some (by rw [h, Option.map_some])

theorem lookup_groupEntries (group field : String) (entries : List (String × Option String)) :
    (groupEntries group entries).lookup field =
      (entries.lookup (longName group field)).map fieldContent := by
  induction entries with
  | nil => rfl
  | cons entry rest ih =>
      obtain ⟨name, content⟩ := entry
      cases hg : inGroup? group name with
      | none =>
          have hne : (longName group field == name) = false := by
            refine beq_eq_false_iff_ne.mpr ?_
            rintro rfl
            rw [inGroup?_longName] at hg
            cases hg
          rw [groupEntries_cons_of_none hg, ih, List.lookup_cons, hne]
      | some part =>
          have hbeq : (longName group field == name) = (field == String.ofList part) := by
            rw [inGroup?_eq_some.mp hg, Bool.eq_iff_iff, beq_iff_eq, beq_iff_eq, longName_inj]
          rw [groupEntries_cons_of_some hg, List.lookup_cons, List.lookup_cons, hbeq]
          cases field == String.ofList part with
          | true => rfl
          | false => exact ih

/-- Entries whose names do not reach into a field are put in under the names of their fields. -/
theorem foldl_putAt (group : String) {entries : List (String × Option String)}
    (h : ∀ e ∈ entries, ∀ rest, inGroup? group e.1 = some rest → splitName [] rest = [rest])
    (fields : Json.Fields) :
    entries.foldl (fun fields e =>
        match inGroup? group e.1 with
        | some rest => putAt fields (e.2.elim .null .text) ((splitName [] rest).map String.ofList)
        | none => fields) fields = Keyed.merge fields (groupEntries group entries) := by
  induction entries generalizing fields with
  | nil => rfl
  | cons entry rest ih =>
      obtain ⟨hentry, hrest⟩ := List.forall_mem_cons.mp h
      obtain ⟨name, content⟩ := entry
      rw [List.foldl_cons, ih hrest]
      cases hg : inGroup? group name with
      | none => rw [groupEntries_cons_of_none hg]
      | some part =>
          rw [groupEntries_cons_of_some hg]
          dsimp only
          rw [hentry part hg]
          rfl

section

variable {source : Source} (h : source.IsDocumented) {group : String} (hg : group ∈ groupNames)
include h hg

/-- The names of a group that a source has are long names of fields. -/
theorem IsDocumented.inGroup {e : String × Option String} (he : e ∈ source.contents)
    {rest : List Char} (hrest : inGroup? group e.1 = some rest) :
    splitName [] rest = [rest] ∧ String.ofList rest ∈ fieldNames := by
  have hfamily : family.toList.isPrefixOf e.1.toList := by
    rw [inGroup?_eq_some.mp hrest]
    exact isPrefixOf_longName group _
  have hall := (documented_inGroup group hg).2 e.1 (h.mem e he hfamily)
  rw [hrest, Option.all_some, Bool.and_eq_true] at hall
  exact ⟨eq_of_beq hall.1, List.contains_iff_mem.mp hall.2⟩

/-- Nothing is given for what is no field. -/
theorem given?_eq_none {field : String} (hfield : field ∉ fieldNames) :
    source.given? group field = none := by
  rw [given?, Option.map_eq_none_iff]
  refine List.lookup_eq_none_iff.mpr fun e he => bne_iff_ne.mpr fun heq => hfield ?_
  have hrest : inGroup? group e.1 = some field.toList := by
    rw [← heq, inGroup?_longName]
  have hmem := (h.inGroup hg he hrest).2
  rwa [String.ofList_toList] at hmem

theorem singleFields_eq :
    source.singleFields group = Keyed.ofList (groupEntries group source.contents) :=
  foldl_putAt group (fun _ he _ hrest => (h.inGroup hg he hrest).1) []

theorem lookup_singleFields (field : String) :
    (source.singleFields group).lookup field = source.given? group field := by
  have hreverse : (groupEntries group source.contents).reverse =
      groupEntries group source.contents.reverse := by
    rw [groupEntries, groupEntries, List.filterMap_reverse]
  have hcontents : (source.contents.map Prod.fst).Nodup := Keyed.nodup_ofList _
  rw [singleFields_eq h hg, Keyed.lookup_ofList, hreverse, lookup_groupEntries,
    Keyed.lookup_reverse hcontents, given?]

/-- **The single fields of a group** are distinct, and have names of fields. -/
theorem forall_mem_singleFields : ∀ f ∈ source.singleFields group,
    f.1 ∈ fieldNames ∧ ∃ content, f.2 = fieldContent content := by
  rw [singleFields_eq h hg]
  refine Keyed.forall_mem_merge (K := fun name => name ∈ fieldNames)
    (C := fun content => ∃ c, content = fieldContent c) (fun f hf => ?_) (by simp)
  obtain ⟨e, he, hfield⟩ := List.mem_filterMap.mp hf
  obtain ⟨rest, hrest, rfl⟩ := Option.map_eq_some_iff.mp hfield
  exact ⟨(h.inGroup hg he hrest).2, e.2, rfl⟩

/-- No text stands for the whole group. -/
theorem text?_eq_none : source.text? group = none := by
  have hlookup : source.contents.lookup (family ++ group) = none := by
    refine List.lookup_eq_none_iff.mpr fun e he => bne_iff_ne.mpr fun heq => ?_
    have hfamily : family.toList.isPrefixOf e.1.toList := by
      rw [← heq, List.isPrefixOf_iff_prefix, String.toList_append]
      exact List.prefix_append _ _
    exact (documented_inGroup group hg).1 (heq ▸ h.mem e he hfamily)
  rw [text?, hlookup, Option.join_none]

end

end Source

/-! ### Fields as a table -/

namespace Settings

open Source

/-- Distinct fields with single contents, which has under each name what the table says. -/
structure Tabulates (fields : Json.Fields) (table : String → Option Json) : Prop where
  distinct : (fields.map Prod.fst).Nodup
  single : ∀ f ∈ fields, ∃ content, f.2 = fieldContent content
  lookup : ∀ name, fields.lookup name = table name

/-- What is given for a group is such fields, or nothing if the table is empty. -/
inductive Gives : Option Json → (String → Option Json) → Prop
  | nothing {table : String → Option Json} : (∀ name, table name = none) → Gives none table
  | fields {fields : Json.Fields} {table : String → Option Json} : Tabulates fields table →
      Gives (some (.object fields)) table

theorem tabulates_nil {table : String → Option Json} (h : ∀ name, table name = none) :
    Tabulates [] table where
  distinct := List.nodup_nil
  single := by simp
  lookup name := (h name).symm

/-- Fields that are declared in small letters stay as they are. -/
theorem Tabulates.declare {fields : Json.Fields} {table : String → Option Json}
    (h : Tabulates fields table) (hlower : ∀ f ∈ fields, Text.lower f.1 = f.1)
    (declared : List String) : Tabulates (Source.declare declared fields) table := by
  have hdeclare : Source.declare declared fields = Keyed.ofList fields := by
    rw [Source.declare]
    congr 1
    refine (List.map_congr_left fun f hf => ?_).trans (List.map_id fields)
    rw [hlower f hf, ite_self]
    rfl
  rw [hdeclare]
  refine ⟨Keyed.nodup_ofList fields, ?_, fun name => ?_⟩
  · intro f hf
    exact (Keyed.forall_mem_merge (K := fun _ => True)
      (C := fun content => ∃ c, content = fieldContent c)
      (fun f hf => ⟨trivial, h.single f hf⟩) (by simp) f hf).2
  · rw [Keyed.lookup_ofList, Keyed.lookup_reverse h.distinct, h.lookup]

/-- **What a source gives for a group**: the contents under the long names of fields. -/
theorem group?_ok {source : Source} (h : source.IsDocumented) {group : String}
    (hg : group ∈ groupNames) (declared : List String) :
    ∃ given, source.group? group declared = .ok given ∧ Gives given (source.given? group) := by
  have htable : Tabulates (source.singleFields group) (source.given? group) := by
    refine ⟨?_, fun f hf => (forall_mem_singleFields h hg f hf).2, lookup_singleFields h hg⟩
    rw [singleFields_eq h hg]
    exact Keyed.nodup_ofList _
  have hgroup : source.group? group declared =
      .ok (if (source.singleFields group).isEmpty then none
        else some (.object (Source.declare declared (source.singleFields group)))) := by
    rw [group?, text?_eq_none h hg]
    rfl
  refine ⟨_, hgroup, ?_⟩
  cases hsingle : source.singleFields group with
  | nil =>
      refine .nothing fun name => ?_
      rw [← htable.lookup, hsingle, List.lookup_nil]
  | cons f rest =>
      have hlower : ∀ name ∈ fieldNames, Text.lower name = name := by decide
      rw [← hsingle, if_neg (by simp [hsingle])]
      refine .fields (htable.declare (fun f hf => ?_) declared)
      exact hlower f.1 (forall_mem_singleFields h hg f hf).1

end Settings

end Accrual
