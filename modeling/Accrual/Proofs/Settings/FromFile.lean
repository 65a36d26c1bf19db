import Accrual.Proofs.Settings.Assignments
import Accrual.Proofs.Settings.Precedence
import Mathlib.Data.List.Find
import Mathlib.Data.List.Nodup

/-!
# Settings from the file instead of the environment

The same assignments can stand in the environment or in the file.  Under the
names of settings they come to the same, but under short names they count in the
environment only, so that a file comes to what its assignments under the names of
settings come to in the environment (`load_written`).
-/

namespace Accrual

open Source

namespace Settings

/-! ### Names as they are spelled -/

namespace Field

def all : List Field :=
  [debug, logLevel, logFormat, logColors, reportLevel, reportSeparator, reportBullet]

theorem mem_all (field : Field) : field ∈ all := by
  cases field <;> decide

def names : List String := all.map name

def shortNames : List String := all.filterMap shortName?

theorem name_mem_names (field : Field) : field.name ∈ names :=
  List.mem_map_of_mem field.mem_all

theorem shortName_mem_shortNames {field : Field} {short : String}
    (h : field.shortName? = some short) : short ∈ shortNames :=
  List.mem_filterMap.mpr ⟨field, field.mem_all, h⟩

/-- No two names of settings, short ones or not, are the same in small letters. -/
theorem nodup_lower_names : ((names ++ shortNames).map Text.lower).Nodup := by
  decide +kernel

theorem names_are_documented : ∀ name ∈ names ++ shortNames,
    family.toList.isPrefixOf (Text.lower name).toList ∧ Text.lower name ∈ documentedNames := by
  decide +kernel

theorem names_are_words : ∀ name ∈ names ++ shortNames,
    name.toList ≠ [] ∧ name.toList.all DotEnv.isWordChar ∧ name.toList.head? ≠ some 'e' := by
  decide +kernel

end Field

/-- An assignment of a word to the name of a setting, which may be a short one. -/
def IsAssignment (a : String × String) : Prop :=
  a.1 ∈ Field.names ++ Field.shortNames ∧ a.2 ≠ "" ∧ a.2.toList.all Char.isAlphanum

instance (a : String × String) : Decidable (IsAssignment a) :=
  inferInstanceAs (Decidable
    (a.1 ∈ Field.names ++ Field.shortNames ∧ a.2 ≠ "" ∧ a.2.toList.all Char.isAlphanum))

def IsUnrelated (name : String) : Prop := family.toList.isPrefixOf (Text.lower name).toList = false

instance (name : String) : Decidable (IsUnrelated name) :=
  inferInstanceAs (Decidable (_ = false))

theorem IsUnrelated.not_mem_names {name : String} (h : IsUnrelated name) :
    name ∉ Field.names ++ Field.shortNames := by
  intro hmem
  have hfamily := (Field.names_are_documented name hmem).1
  rw [h] at hfamily
  cases hfamily

end Settings

/-! ### Sources with names as they are spelled -/

namespace Source

open Settings

/-- The names of a source are spelled like those of settings, or do not mean any. -/
def IsSpelled (source : Source) : Prop :=
  ∀ a ∈ source.assigned, a.1 ∈ Field.names ++ Field.shortNames ∨ IsUnrelated a.1

namespace IsSpelled

variable {source : Source} (h : source.IsSpelled)
include h

theorem isDocumented : source.IsDocumented := by
  intro a ha hfamily
  obtain hname | hother := h a ha
  · exact (Field.names_are_documented a.1 hname).2
  · rw [hother] at hfamily
    cases hfamily

/-- **In such a source, a name has the content that it is assigned last.** -/
theorem content?_eq {name : String} (hname : name ∈ Field.names ++ Field.shortNames) :
    source.content? name = source.assigned.reverse.lookup name := by
  rw [content?, ← Keyed.find?_map_snd]
  congr 1
  refine List.find?_congr fun a ha => ?_
  rw [Bool.eq_iff_iff, beq_iff_eq, beq_iff_eq]
  refine ⟨fun heq => ?_, congrArg Text.lower⟩
  obtain hspelled | hother := h a (List.mem_reverse.mp ha)
  · exact List.inj_on_of_nodup_map Field.nodup_lower_names hname hspelled heq
  · have hunrelated : IsUnrelated name := by
      rw [IsUnrelated, heq]
      exact hother
    exact absurd hname hunrelated.not_mem_names

end IsSpelled

end Source

/-! ### The same assignments in either place -/

namespace Settings

theorem isSpelled_ofEnvironment {environment : List (String × String)}
    (h : ∀ v ∈ environment, v.1 ∈ Field.names ++ Field.shortNames ∨ IsUnrelated v.1) :
    (Source.ofEnvironment environment).IsSpelled := by
  intro a ha
  obtain ⟨v, hv, rfl⟩ := List.mem_map.mp ha
  exact h v hv

theorem content?_ofEnvironment {environment : List (String × String)}
    (h : (Source.ofEnvironment environment).IsSpelled) {name : String}
    (hname : name ∈ Field.names ++ Field.shortNames) :
    (Source.ofEnvironment environment).content? name =
      (environment.reverse.lookup name).map some := by
  rw [h.content?_eq hname, Source.ofEnvironment]
  dsimp only
  rw [← List.map_reverse, Keyed.lookup_map]

section

variable {assignments others : List (String × String)}
  (h : ∀ a ∈ assignments, IsAssignment a) (ho : ∀ v ∈ others, IsUnrelated v.1)

include h in
/-- A file of assignments holds them as they are written. -/
theorem ofDotEnv_written : Source.ofDotEnv (DotEnv.written assignments) =
    Source.ofAssignments (assignments.map fun a => (a.1, some a.2)) := by
  have hplain : ∀ a ∈ assignments, DotEnv.IsPlain a := by
    intro a ha
    obtain ⟨hname, htext, hchars⟩ := h a ha
    obtain ⟨hne, hall, hstart⟩ := Field.names_are_words a.1 hname
    refine ⟨⟨hne, List.all_eq_true.mp hall⟩, hstart, ⟨?_, fun c hc => ?_⟩⟩
    · simpa using htext
    · rw [DotEnv.isWordChar, List.all_eq_true.mp hchars c hc, Bool.true_or]
  rw [Source.ofDotEnv, DotEnv.assignments_written hplain]

include h in
theorem isSpelled_written : (Source.ofDotEnv (DotEnv.written assignments)).IsSpelled := by
  rw [ofDotEnv_written h]
  intro a ha
  refine .inl (Keyed.forall_mem_merge (K := fun name => name ∈ Field.names ++ Field.shortNames)
    (C := fun _ => True) (fun e he => ?_) (by simp) a ha).1
  obtain ⟨a, ha, rfl⟩ := List.mem_map.mp he
  exact ⟨(h a ha).1, trivial⟩

include h in
theorem content?_written {name : String} (hname : name ∈ Field.names ++ Field.shortNames) :
    (Source.ofDotEnv (DotEnv.written assignments)).content? name =
      (assignments.reverse.lookup name).map some := by
  rw [(isSpelled_written h).content?_eq hname, ofDotEnv_written h, Source.ofAssignments]
  dsimp only
  rw [Keyed.lookup_reverse (Keyed.nodup_ofList _), Keyed.lookup_ofList, ← List.map_reverse,
    Keyed.lookup_map]

include ho in
theorem lookup_unrelated {name : String} (hname : name ∈ Field.names ++ Field.shortNames) :
    others.reverse.lookup name = none := by
  refine List.lookup_eq_none_iff.mpr fun v hv => bne_iff_ne.mpr ?_
  rintro rfl
  exact (ho v (List.mem_reverse.mp hv)).not_mem_names hname

include ho in
theorem isSpelled_unrelated : (Source.ofEnvironment others).IsSpelled :=
  isSpelled_ofEnvironment fun v hv => .inr (ho v hv)

include ho in
theorem content?_unrelated {name : String} (hname : name ∈ Field.names ++ Field.shortNames) :
    (Source.ofEnvironment others).content? name = none := by
  rw [content?_ofEnvironment (isSpelled_unrelated ho) hname, lookup_unrelated ho hname,
    Option.map_none]

include h ho in
theorem isSpelled_environment : (Source.ofEnvironment (others ++ assignments)).IsSpelled := by
  refine isSpelled_ofEnvironment fun v hv => ?_
  obtain hother | hassigned := List.mem_append.mp hv
  · exact .inr (ho v hother)
  · exact .inl (h v hassigned).1

include h ho in
theorem content?_environment {name : String} (hname : name ∈ Field.names ++ Field.shortNames) :
    (Source.ofEnvironment (others ++ assignments)).content? name =
      (assignments.reverse.lookup name).map some := by
  rw [content?_ofEnvironment (isSpelled_environment h ho) hname, List.reverse_append,
    List.lookup_append, lookup_unrelated ho hname, Option.or_none]

/-! ### Loading from either place -/

variable (clock : Seconds) (field : Field)

include h ho in
/-- In the file, an assignment counts under the name of a setting. -/
theorem effective?_written :
    field.effective? ⟨others, DotEnv.written assignments, clock⟩ =
      (assignments.reverse.lookup field.name).map some := by
  have hname := List.mem_append_left Field.shortNames field.name_mem_names
  have hshort : field.shortName?.bind (Source.ofEnvironment others).content? = none := by
    refine Option.bind_eq_none_iff.mpr fun short hs => content?_unrelated ho ?_
    exact List.mem_append_right Field.names (Field.shortName_mem_shortNames hs)
  rw [Field.effective?]
  dsimp only
  rw [content?_unrelated ho hname, content?_written h hname, hshort, Option.none_or,
    Option.or_none]

include h ho in
/-- In the environment, an assignment counts under the name of a setting, and then under the short
name. -/
theorem effective?_environment :
    field.effective? ⟨others ++ assignments, "", clock⟩ =
      ((assignments.reverse.lookup field.name).or
        (field.shortName?.bind fun short => assignments.reverse.lookup short)).map some := by
  have hname := List.mem_append_left Field.shortNames field.name_mem_names
  have hfile : (Source.ofDotEnv "").content? field.name = none := rfl
  have hshort : field.shortName?.bind (Source.ofEnvironment (others ++ assignments)).content? =
      (field.shortName?.bind fun short => assignments.reverse.lookup short).map some := by
    cases hs : field.shortName? with
    | none => rfl
    | some short =>
        have hmem := List.mem_append_right Field.names (Field.shortName_mem_shortNames hs)
        exact content?_environment h ho hmem
  rw [Field.effective?]
  dsimp only
  rw [content?_environment h ho hname, hfile, hshort, Option.or_none, Option.map_or]

include h ho in
theorem load_written_iff (c : Settings) :
    load ⟨others, DotEnv.written assignments, clock⟩ = .ok c ↔
      ∀ field : Field, field.Is c ((assignments.reverse.lookup field.name).map some) := by
  have hload := load_iff ⟨others, DotEnv.written assignments, clock⟩
    (isSpelled_unrelated ho).isDocumented (isSpelled_written h).isDocumented c
  simpa only [effective?_written h ho] using hload

include h ho in
theorem load_environment_iff (c : Settings) :
    load ⟨others ++ assignments, "", clock⟩ = .ok c ↔ ∀ field : Field, field.Is c
      (((assignments.reverse.lookup field.name).or
        (field.shortName?.bind fun short => assignments.reverse.lookup short)).map some) := by
  have hfile : (Source.ofDotEnv "").IsDocumented := by decide
  have hload := load_iff ⟨others ++ assignments, "", clock⟩
    (isSpelled_environment h ho).isDocumented hfile c
  simpa only [effective?_environment h ho] using hload

end

theorem toOption_eq_of_iff {ε α : Type} {x y : Except ε α} (h : ∀ a, x = .ok a ↔ y = .ok a) :
    x.toOption = y.toOption := by
  cases x with
  | ok a => rw [(h a).mp rfl]
  | error e =>
      cases y with
      | ok a => cases (h a).mpr rfl
      | error e => rfl

def withoutShortNames (assignments : List (String × String)) : List (String × String) :=
  assignments.filter fun a => !Field.shortNames.contains a.1

/-- **A file comes to what its assignments under the names of settings come to in the environment**,
to the same settings or to no settings; under short names it assigns nothing.  Without short names,
the file is as good as the environment. -/
theorem load_written {assignments others : List (String × String)}
    (h : ∀ a ∈ assignments, IsAssignment a) (ho : ∀ v ∈ others, IsUnrelated v.1)
    (clock : Seconds) :
    (load ⟨others, DotEnv.written assignments, clock⟩).toOption =
        (load ⟨others ++ withoutShortNames assignments, "", clock⟩).toOption ∧
      ((∀ a ∈ assignments, a.1 ∈ Field.names) →
        (load ⟨others, DotEnv.written assignments, clock⟩).toOption =
          (load ⟨others ++ assignments, "", clock⟩).toOption) := by
  have hkept : ∀ a ∈ withoutShortNames assignments, IsAssignment a := fun a ha =>
    h a (List.mem_of_mem_filter ha)
  have hlookup : ∀ name, (withoutShortNames assignments).reverse.lookup name =
      if !Field.shortNames.contains name then assignments.reverse.lookup name else none := by
    intro name
    rw [withoutShortNames, ← List.filter_reverse,
      Keyed.lookup_filter fun name => !Field.shortNames.contains name]
  have hname : ∀ field : Field, Field.shortNames.contains field.name = false := by
    intro field
    cases field <;> decide
  have hshort : ∀ field : Field, (field.shortName?.bind fun short =>
      (withoutShortNames assignments).reverse.lookup short) = none := by
    intro field
    refine Option.bind_eq_none_iff.mpr fun short hs => ?_
    rw [hlookup, List.contains_iff_mem.mpr (Field.shortName_mem_shortNames hs)]
    rfl
  have hall : (load ⟨others, DotEnv.written assignments, clock⟩).toOption =
      (load ⟨others ++ withoutShortNames assignments, "", clock⟩).toOption := by
    refine toOption_eq_of_iff fun c => ?_
    rw [load_written_iff h ho, load_environment_iff hkept ho]
    simp only [hshort, Option.or_none]
    simp only [hlookup, hname, Bool.not_false, if_true]
  refine ⟨hall, fun hlong => ?_⟩
  have hself : withoutShortNames assignments = assignments := by
    refine List.filter_eq_self.mpr fun a ha => ?_
    obtain ⟨field, -, hfield⟩ := List.mem_map.mp (hlong a ha)
    rw [← hfield, hname]
    rfl
  rw [hall, hself]

/-- A debug mode, a bullet, and a short name that counts for nothing in the file. -/
theorem load_written_bullet :
    let assignments := [("VALIDCASE_DEBUG", "yes"), ("VALIDCASE_LOG_LEVEL", "LOUD"),
      ("VALIDCASE_REPORT__BULLET", "x1")]
    let others := [("HOME", "root")]
    (∀ a ∈ assignments, IsAssignment a) ∧ (∀ v ∈ others, IsUnrelated v.1) ∧
      (load ⟨others, DotEnv.written assignments, .zero⟩).toOption =
        (load ⟨[("HOME", "root"), ("VALIDCASE_DEBUG", "yes"), ("VALIDCASE_REPORT__BULLET", "x1")],
          "", .zero⟩).toOption := by
  intro assignments others
  have h : ∀ a ∈ assignments, IsAssignment a := by decide +kernel
  have ho : ∀ v ∈ others, IsUnrelated v.1 := by decide +kernel
  exact ⟨h, ho, (load_written h ho .zero).1⟩

/-- **A file is not as good as the environment**: a level that is assigned under its short name is
that of logging in the environment, and is ignored in the file. -/
theorem load_ignores_short_name :
    let assignments := [("VALIDCASE_LOG_LEVEL", "DEBUG")]
    (∀ a ∈ assignments, IsAssignment a) ∧
      load { environment := assignments } = .ok { logging := { level := .debug } } ∧
      load { dotenv := DotEnv.written assignments } = .ok {} := by
  intro assignments
  have h : ∀ a ∈ assignments, IsAssignment a := by decide +kernel
  have ho : ∀ v ∈ ([] : List (String × String)), IsUnrelated v.1 := by simp
  refine ⟨h, ?_, ?_⟩
  · refine (load_environment_iff h ho .zero _).mpr fun field => ?_
    cases field with
    | logLevel => exact (by decide : Text.upper "DEBUG" = "DEBUG")
    | _ => rfl
  · refine (load_written_iff h ho .zero _).mpr fun field => ?_
    cases field <;> rfl

end Settings

end Accrual
