import Accrual.Proofs.Settings.Sources

/-!
# What a group is read from

Both sources are merged name by name (`gives_mergeGroup`), and what neither of
them gives is looked up under the short name of its field (`complete_ok`).  Where
no rule of the group is changed, none of this can fail, so that a group loads if
the contents that were found can be read (`load_iff`).
-/

namespace Accrual

open Source

namespace Json

/-! ### Single contents -/

theorem replace_fieldContent (old : Option Json) (content : Option String) :
    replace old (fieldContent content) = fieldContent content := by
  rcases old with _ | (_ | _) <;> cases content <;> rfl

/-- Single contents override what was there. -/
theorem overlay_eq_merge (base : Fields) {more : Fields}
    (h : ∀ f ∈ more, ∃ content, f.2 = fieldContent content) :
    overlay base more = Keyed.merge base more := by
  induction more generalizing base with
  | nil => rw [overlay, Keyed.merge_nil]
  | cons field rest ih =>
      obtain ⟨⟨content, hcontent⟩, hrest⟩ := List.forall_mem_cons.mp h
      obtain ⟨name, json⟩ := field
      obtain rfl : json = fieldContent content := hcontent
      rw [overlay, replace_fieldContent, ih _ hrest, Keyed.merge_cons]

end Json

namespace Settings

/-! ### Merging both sources -/

variable {table more : String → Option Json}

/-- What is laid over other fields comes first. -/
theorem Tabulates.overlay {base fields : Json.Fields} (hbase : Tabulates base table)
    (h : Tabulates fields more) :
    Tabulates (Json.overlay base fields) fun name => (more name).or (table name) := by
  rw [Json.overlay_eq_merge base h.single]
  refine ⟨Keyed.nodup_merge hbase.distinct fields, ?_, fun name => ?_⟩
  · intro f hf
    exact (Keyed.forall_mem_merge (K := fun _ => True)
      (C := fun content => ∃ c, content = fieldContent c)
      (fun f hf => ⟨trivial, h.single f hf⟩) (fun f hf => ⟨trivial, hbase.single f hf⟩) f hf).2
  · rw [Keyed.lookup_merge, Keyed.lookup_reverse h.distinct, h.lookup, hbase.lookup]

/-- **Both sources together**: name by name, the environment comes first. -/
theorem gives_mergeGroup {file environment : Option Json} (hfile : Gives file table)
    (henvironment : Gives environment more) :
    Gives (mergeGroup file environment) fun name => (more name).or (table name) := by
  cases henvironment with
  | nothing hmore =>
      have htable : (fun name => (more name).or (table name)) = table := by
        funext name
        rw [hmore, Option.none_or]
      rw [htable]
      exact hfile
  | fields hmore =>
      cases hfile with
      | nothing htable =>
          have htable : (fun name => (more name).or (table name)) = more := by
            funext name
            rw [htable, Option.or_none]
          rw [htable]
          exact .fields hmore
      | fields htable => exact .fields (htable.overlay hmore)

/-! ### Short names -/

/-- What the environment gives for a field under its short name. -/
def shortContent? (beginning : String) (environment : Source) (field : String) : Option Json :=
  (environment.content? (beginning ++ field)).join.map .text

theorem shortContent?_ofEnvironment (environment : List (String × String))
    {beginning field name : String} (h : Text.lower name = Text.lower (beginning ++ field)) :
    shortContent? beginning (Source.ofEnvironment environment) field =
      ((Source.ofEnvironment environment).content? name).map fieldContent := by
  rw [shortContent?, ← content?_congr _ h]
  cases hcontent : (Source.ofEnvironment environment).content? name with
  | none => rfl
  | some content =>
      obtain ⟨text, rfl⟩ := exists_text_of_content? hcontent
      rfl

def pick (fields : List String) (table : String → Option Json) : Json.Fields :=
  fields.filterMap fun field => (table field).map fun content => (field, content)

theorem pick_cons_of_none {field : String} (h : table field = none) (rest : List String) :
    pick (field :: rest) table = pick rest table :=
  List.filterMap_cons_none (by rw [h, Option.map_none])

theorem pick_cons_of_some {field : String} {content : Json} (h : table field = some content)
    (rest : List String) : pick (field :: rest) table = (field, content) :: pick rest table :=
  List.filterMap_cons_some (by rw [h, Option.map_some])

theorem lookup_pick (fields : List String) (table : String → Option Json) (name : String) :
    (pick fields table).lookup name = if fields.contains name then table name else none := by
  induction fields with
  | nil => rfl
  | cons field rest ih =>
      cases hcontent : table field with
      | none =>
          rw [pick_cons_of_none hcontent, ih]
          by_cases hname : name = field
          · subst hname
            simp [hcontent]
          · simp [hname]
      | some content =>
          rw [pick_cons_of_some hcontent, List.lookup_cons, List.contains_cons]
          cases hname : name == field with
          | true => rw [eq_of_beq hname, hcontent, Bool.true_or, if_pos rfl]
          | false => rw [ih, Bool.false_or]

theorem map_fst_pick (fields : List String) (table : String → Option Json) :
    (pick fields table).map Prod.fst = fields.filter fun field => (table field).isSome := by
  induction fields with
  | nil => rfl
  | cons field rest ih =>
      cases hcontent : table field with
      | none => rw [pick_cons_of_none hcontent, ih, List.filter_cons_of_neg (by simp [hcontent])]
      | some content =>
          rw [pick_cons_of_some hcontent, List.map_cons, ih,
            List.filter_cons_of_pos (by simp [hcontent])]

theorem tabulates_pick {fields : List String} (hfields : fields.Nodup)
    (htable : ∀ field content, table field = some content → ∃ c, content = fieldContent c) :
    Tabulates (pick fields table) fun name =>
      if fields.contains name then table name else none where
  distinct := by
    rw [map_fst_pick]
    exact hfields.filter _
  single := by
    intro f hf
    obtain ⟨field, _, hpair⟩ := List.mem_filterMap.mp hf
    obtain ⟨content, hcontent, rfl⟩ := Option.map_eq_some_iff.mp hpair
    exact htable field content hcontent
  lookup := lookup_pick fields table

/-- The rules of a group to which nothing but contents of fields is given. -/
def plainRules (beginning : String) : ShortNames := { beginning := .text beginning }

theorem contents_plainRules (beginning : String) (source : Source) :
    (plainRules beginning).contents source = source.contents := by
  have hall : source.assigned.filter (fun _ => true) = source.assigned :=
    List.filter_eq_self.mpr fun _ _ => rfl
  simp [ShortNames.contents, plainRules, ShortNames.spell, Source.contents, hall]

theorem found_plainRules (beginning : String) (source : Source) (fields : List String) :
    (plainRules beginning).found source fields =
      .ok (pick fields (shortContent? beginning source)) := by
  induction fields with
  | nil => rfl
  | cons field rest ih =>
      have hname : (plainRules beginning).shortName? field =
          some (Text.lower (beginning ++ field)) := rfl
      rw [ShortNames.found, hname, ih, contents_plainRules]
      dsimp only [bind, Except.bind]
      rw [lookup_contents]
      cases htext : (source.content? (beginning ++ field)).join with
      | none =>
          have hnone : shortContent? beginning source field = none := by
            rw [shortContent?, htext, Option.map_none]
          rw [pick_cons_of_none hnone]
          rfl
      | some text =>
          have hsome : shortContent? beginning source field = some (.text text) := by
            rw [shortContent?, htext, Option.map_some]
          rw [pick_cons_of_some hsome]
          rfl

/-- A group to which no file is given finds nothing in files. -/
theorem foundInFile_plainRules (beginning : String) (declared : List String) :
    (plainRules beginning).foundInFile (Source.ofAssignments []) declared = .ok [] := by
  have hnothing : pick declared (shortContent? beginning (Source.ofAssignments [])) = [] := by
    rw [pick, List.filterMap_eq_nil_iff]
    intro field _
    rfl
  rw [ShortNames.foundInFile, found_plainRules, hnothing]
  rfl

/-! ### Loading a group -/

@[simp] theorem throw_ne_ok {ε α : Type} {error : ε} {a : α} :
    (throw error : Except ε α) ≠ .ok a := nofun

@[simp] theorem pure_eq_ok {ε α : Type} {a b : α} : (pure a : Except ε α) = .ok b ↔ a = b :=
  ⟨Except.ok.inj, congrArg Except.ok⟩

theorem mapError_eq_ok {ε ε' α : Type} {e : Except ε α} {f : ε → ε'} {a : α} :
    e.mapError f = .ok a ↔ e = .ok a := by
  cases e with
  | ok b =>
      constructor <;> intro h <;> cases h <;> rfl
  | error error =>
      constructor <;> intro h <;> cases h

section

variable {α : Type} (group : Group α) (surroundings : Surroundings) {fields : Json.Fields}

/-- Fields under which only contents of fields are given leave all rules as they are. -/
theorem Tabulates.given?_rule (h : Tabulates fields table)
    (hplain : ∀ name, name ∉ fieldNames → table name = none) {rule : String}
    (hrule : rule ∉ fieldNames) : ShortNames.given? fields rule = none := by
  rw [ShortNames.given?, h.lookup, hplain rule hrule]

theorem Tabulates.ofFields (h : Tabulates fields table)
    (hplain : ∀ name, name ∉ fieldNames → table name = none) (beginning : String) :
    ShortNames.ofFields beginning fields = .ok (plainRules beginning) := by
  rw [ShortNames.ofFields, h.given?_rule hplain (by decide), h.given?_rule hplain (by decide),
    h.given?_rule hplain (by decide), h.given?_rule hplain (by decide),
    h.given?_rule hplain (by decide)]
  rfl

/-- **The fields of a group** are those that are given, and then those that the environment has
under short names. -/
theorem complete_ok (hd : group.declared.Nodup) (h : Tabulates fields table)
    (hplain : ∀ name, name ∉ fieldNames → table name = none) :
    ∃ out, group.complete surroundings fields = .ok out ∧ ∀ name ∈ group.declared,
      out.lookup name = (table name).or
        (shortContent? group.beginning (Source.ofEnvironment surroundings.environment) name) := by
  let environment := Source.ofEnvironment surroundings.environment
  let found := pick group.declared (shortContent? group.beginning environment)
  have hfields : group.complete surroundings fields =
      .ok (Json.overlay (Json.overlay [] found) fields) := by
    have hfile : Files.source none none surroundings.dotenv = .ok (Source.ofAssignments []) := rfl
    rw [Group.complete, h.given?_rule hplain (by decide), Group.fields]
    dsimp only
    rw [h.ofFields hplain, h.given?_rule hplain (by decide), h.given?_rule hplain (by decide),
      h.given?_rule hplain (by decide), h.given?_rule hplain (by decide),
      h.given?_rule hplain (by decide), hfile]
    dsimp only [bind, Except.bind]
    rw [found_plainRules, foundInFile_plainRules]
    rfl
  refine ⟨_, hfields, fun name hname => ?_⟩
  have hsingle : ∀ field content, shortContent? group.beginning environment field = some content →
      ∃ c, content = fieldContent c := by
    intro field content hcontent
    obtain ⟨text, _, rfl⟩ := Option.map_eq_some_iff.mp hcontent
    exact ⟨some text, rfl⟩
  have hnothing : Tabulates [] fun _ => none := tabulates_nil fun _ => rfl
  have hall := (hnothing.overlay (tabulates_pick hd hsingle)).overlay h
  rw [hall.lookup, Option.or_none, if_pos (List.contains_iff_mem.mpr hname)]

/-- **A group loads if it can be read** from what is given, or else found under short names. -/
theorem load_group_iff (hd : group.declared.Nodup) {given : Option Json} (h : Gives given table)
    (hplain : ∀ name, name ∉ fieldNames → table name = none) :
    ∃ out : Json.Fields, (∀ name ∈ group.declared, out.lookup name = (table name).or
        (shortContent? group.beginning (Source.ofEnvironment surroundings.environment) name)) ∧
      ∀ settings, group.load surroundings given = .ok (.ok settings) ↔
        group.read out = .ok settings := by
  cases h with
  | nothing hnone =>
      obtain ⟨out, hout, hlookup⟩ := complete_ok group surroundings hd (tabulates_nil hnone) hplain
      refine ⟨out, hlookup, fun settings => ?_⟩
      rw [Group.load, hout]
      dsimp only [bind, Except.bind]
      cases group.read out <;> simp
  | fields htable =>
      obtain ⟨out, hout, hlookup⟩ := complete_ok group surroundings hd htable hplain
      refine ⟨out, hlookup, fun settings => ?_⟩
      rw [Group.load, hout]
      exact ⟨fun h => mapError_eq_ok.mp (Except.ok.inj h),
        fun h => congrArg Except.ok (mapError_eq_ok.mpr h)⟩

end

end Settings

end Accrual
