import Accrual.Proofs.Json.Reading
import Accrual.Proofs.Keyed
import Accrual.Proofs.Logging.Rendering

/-!
# Structured forms are read back

Whatever has a structured form has one that is read as some data
(`isReadable_of_toJson`).  A plain value, which is made of nothing, truth
values, integers, texts, lists and dictionaries, is told by that data as it was
(`IsPlain.comesBack`), as long as its levels can be counted; beyond that it is
refused (`IsPlain.toJson_tooDeep`).
-/

namespace Accrual

/-- Where each item has a partner, the row has a row of partners. -/
theorem exists_forall₂ {α β : Type} {R : α → β → Prop} {as : List α}
    (h : ∀ a ∈ as, ∃ b, R a b) : ∃ bs, List.Forall₂ R as bs := by
  induction as with
  | nil => exact ⟨[], .nil⟩
  | cons a as ih =>
      obtain ⟨⟨b, hb⟩, has⟩ := List.forall_mem_cons.mp h
      obtain ⟨bs, hbs⟩ := ih has
      exact ⟨b :: bs, .cons hb hbs⟩

namespace Json

def IsReadable (j : Json) : Prop := ∃ read, ReadsAs j read

theorem isReadable_array {items : List Json} (h : ∀ j ∈ items, j.IsReadable) :
    (array items).IsReadable := by
  obtain ⟨reads, hreads⟩ := exists_forall₂ h
  exact ⟨_, readsAs_array hreads⟩

theorem isReadable_object {fields : Fields} (h : ∀ f ∈ fields, f.2.IsReadable) :
    (object fields).IsReadable := by
  have hfields : ∀ f ∈ fields, ∃ read, FieldReadsAs f read := by
    intro f hf
    obtain ⟨read, hread⟩ := h f hf
    exact ⟨(f.1, read), rfl, hread⟩
  obtain ⟨reads, hreads⟩ := exists_forall₂ hfields
  exact ⟨_, readsAs_object hreads⟩

theorem isReadable_zip {names : List String} {contents : List Json}
    (h : ∀ j ∈ contents, j.IsReadable) : (object (names.zip contents)).IsReadable :=
  isReadable_object fun f hf => h f.2 (List.of_mem_zip hf).2

theorem isReadable_real (m e : Int) : (real m e).IsReadable := by
  obtain ⟨m', e', h⟩ := readsAs_real m e
  exact ⟨_, h⟩

theorem isReadable_text (s : String) : (text s).IsReadable := ⟨_, readsAs_text s⟩

end Json

namespace Value

theorem readsAs_int {n : Int} (h : isWide n = false) : Json.ReadsAs (.int n) (.int n) := by
  have hbounds : -9223372036854775808 ≤ n ∧ n ≤ 18446744073709551615 := by
    simpa [isWide] using h
  have hlength : (Text.decimal n.natAbs).length ≤ 20 :=
    (Nat.length_toDigits_le_iff (by decide) (by decide)).mpr (by omega)
  exact Json.readsAs_int (by omega)

mutual

/-- **Every structured form can be read.** -/
theorem isReadable_of_toJson (v : Value) {level : Nat} {j : Json} (h : v.toJson level = .ok j) :
    j.IsReadable := by
  match v with
  | absent =>
      cases h
      exact ⟨_, Json.readsAs_null⟩
  | bool b =>
      cases h
      exact ⟨_, Json.readsAs_bool b⟩
  | int n =>
      rw [toJson] at h
      split at h
      next => cases h
      next hn =>
        cases h
        exact ⟨_, readsAs_int (by simpa using hn)⟩
  | list items =>
      rw [toJson] at h
      obtain ⟨inside, -, h⟩ := except_bind_ok h
      obtain ⟨js, hjs, h⟩ := except_bind_ok h
      cases h
      exact Json.isReadable_array (isReadable_of_toJsons items hjs)
  | tuple items =>
      rw [toJson] at h
      obtain ⟨js, hjs, h⟩ := except_bind_ok h
      cases h
      exact Json.isReadable_array (isReadable_of_toJsons items hjs)
  | dictionary entries =>
      rw [toJson] at h
      obtain ⟨inside, -, h⟩ := except_bind_ok h
      obtain ⟨names, -, h⟩ := except_bind_ok h
      obtain ⟨js, hjs, h⟩ := except_bind_ok h
      cases h
      exact Json.isReadable_zip (isReadable_of_contentsToJson entries hjs)
  | success v | failure v =>
      rw [toJson] at h
      obtain ⟨inside, -, h⟩ := except_bind_ok h
      obtain ⟨j, hj, h⟩ := except_bind_ok h
      cases h
      exact Json.isReadable_object (List.forall_mem_singleton.mpr (isReadable_of_toJson v hj))
  | logger context _ _ =>
      rw [toJson] at h
      obtain ⟨inside, -, h⟩ := except_bind_ok h
      obtain ⟨within, -, h⟩ := except_bind_ok h
      obtain ⟨names, -, h⟩ := except_bind_ok h
      obtain ⟨js, hjs, h⟩ := except_bind_ok h
      cases h
      have hcontext : (Json.object (names.zip js)).IsReadable :=
        Json.isReadable_zip (isReadable_of_contentsToJson context hjs)
      exact Json.isReadable_object (List.forall_mem_singleton.mpr hcontext)
  | consoleRenderer output colors showTimestamp =>
      rw [toJson] at h
      obtain ⟨inside, -, h⟩ := except_bind_ok h
      obtain ⟨outputForm, houtput, h⟩ := except_bind_ok h
      obtain ⟨colorsForm, hcolors, h⟩ := except_bind_ok h
      cases h
      refine Json.isReadable_object ?_
      simp only [List.forall_mem_cons]
      exact ⟨isReadable_of_toJson output houtput, isReadable_of_toJson colors hcolors,
        ⟨_, Json.readsAs_bool showTimestamp⟩, List.forall_mem_nil _⟩
  | jsonRenderer output =>
      rw [toJson] at h
      obtain ⟨inside, -, h⟩ := except_bind_ok h
      obtain ⟨j, hj, h⟩ := except_bind_ok h
      cases h
      exact Json.isReadable_object (List.forall_mem_singleton.mpr (isReadable_of_toJson output hj))
  | silentRenderer =>
      rw [toJson] at h
      obtain ⟨_, -, h⟩ := except_bind_ok h
      cases h
      exact Json.isReadable_object (List.forall_mem_nil _)
  | entry time name event context =>
      rw [toJson] at h
      obtain ⟨inside, -, h⟩ := except_bind_ok h
      obtain ⟨j, hj, h⟩ := except_bind_ok h
      obtain ⟨within, -, h⟩ := except_bind_ok h
      obtain ⟨names, -, h⟩ := except_bind_ok h
      obtain ⟨js, hjs, h⟩ := except_bind_ok h
      cases h
      refine Json.isReadable_object ?_
      simp only [List.forall_mem_cons]
      exact ⟨Json.isReadable_real _ _, Json.isReadable_text name, isReadable_of_toJson event hj,
        Json.isReadable_zip (isReadable_of_contentsToJson context hjs), List.forall_mem_nil _⟩
  | ok _ | err _ =>
      simp only [toJson] at h
      split at h
      next =>
        cases h
        exact Json.isReadable_text _
      next => cases h
  | text _ | violation _ | stage _ _ | function _ | fault _ | code _ | exception _ _ | settings _
  | loggingSettings _ | reportSettings _ | stream _ =>
      cases h
      exact Json.isReadable_text _
termination_by structural v

theorem isReadable_of_toJsons (vs : List Value) {level : Nat} {js : List Json}
    (h : toJsons level vs = .ok js) : ∀ j ∈ js, j.IsReadable := by
  match vs with
  | [] =>
      cases h
      exact List.forall_mem_nil _
  | v :: rest =>
      rw [toJsons] at h
      obtain ⟨j, hj, h⟩ := except_bind_ok h
      obtain ⟨js, hjs, h⟩ := except_bind_ok h
      cases h
      exact List.forall_mem_cons.mpr ⟨isReadable_of_toJson v hj, isReadable_of_toJsons rest hjs⟩
termination_by structural vs

theorem isReadable_of_contentsToJson (entries : List (Value × Value)) {level : Nat}
    {js : List Json} (h : contentsToJson level entries = .ok js) : ∀ j ∈ js, j.IsReadable := by
  match entries with
  | [] =>
      cases h
      exact List.forall_mem_nil _
  | (key, v) :: rest =>
      rw [contentsToJson] at h
      obtain ⟨j, hj, h⟩ := except_bind_ok h
      obtain ⟨js, hjs, h⟩ := except_bind_ok h
      cases h
      exact List.forall_mem_cons.mpr
        ⟨isReadable_of_toJson v hj, isReadable_of_contentsToJson rest hjs⟩
termination_by structural entries

end

end Value

/-! ### What data says -/

namespace Json

mutual

/-- The value that data says.  Numbers with places and texts with half characters say none. -/
def data? : Json → Option Value
  | null => some .absent
  | bool b => some (.bool b)
  | int n => some (.int n)
  | text s => some (.text s)
  | array items => (itemData? items).map .list
  | object fields => (fieldData? fields).map fun fields => .dictionary (Entries.ofTexts fields)
  | real _ _ | nonFinite _ _ | brokenText => none
termination_by structural j => j

def itemData? : List Json → Option (List Value)
  | [] => some []
  | item :: rest => do return (← data? item) :: (← itemData? rest)
termination_by structural items => items

def fieldData? : List (String × Json) → Option (List (String × Value))
  | [] => some []
  | (name, content) :: rest => do return (name, ← data? content) :: (← fieldData? rest)
termination_by structural fields => fields

end

end Json

namespace Value

/-- Nothing, truth values, integers that can be written, texts, and lists and dictionaries of such
values, which stand at most so many levels inside each other.  The keys of a dictionary are
texts. -/
inductive IsPlain : Nat → Value → Prop
  | absent {depth : Nat} : IsPlain depth .absent
  | bool {depth : Nat} (b : Bool) : IsPlain depth (.bool b)
  | int {depth : Nat} {n : Int} (hlow : -9223372036854775808 ≤ n)
      (hhigh : n ≤ 18446744073709551615) : IsPlain depth (.int n)
  | text {depth : Nat} (s : String) : IsPlain depth (.text s)
  | list {depth : Nat} {items : List Value} (h : ∀ v ∈ items, IsPlain depth v) :
      IsPlain (depth + 1) (.list items)
  | dictionary {depth : Nat} {fields : List (String × Value)}
      (hkeys : (fields.map Prod.fst).Nodup) (h : ∀ f ∈ fields, IsPlain depth f.2) :
      IsPlain (depth + 1) (.dictionary (Entries.ofTexts fields))

theorem IsPlain.of_dictionary {depth : Nat} {fields : List (String × Value)}
    (h : (Value.dictionary (Entries.ofTexts fields)).IsPlain (depth + 1)) :
    ∀ f ∈ fields, f.2.IsPlain depth := by
  generalize hv : Value.dictionary (Entries.ofTexts fields) = v at h
  cases h with
  | dictionary hkeys hfields =>
      have hinj : Function.Injective fun f : String × Value => (Value.text f.1, f.2) := by
        rintro ⟨key, v⟩ ⟨other, w⟩ h
        cases h
        rfl
      obtain rfl := List.map_injective_iff.mpr hinj (Value.dictionary.inj hv)
      exact hfields
  | _ => cases hv

/-- The value has a structured form at the level, and the form is read back as the value. -/
def ComesBack (level : Nat) (v : Value) : Prop :=
  ∃ j, v.toJson level = .ok j ∧ Json.ReadsAs j j ∧ j.data? = some v

theorem toJsons_comesBack {level : Nat} {items : List Value} (h : ∀ v ∈ items, v.ComesBack level) :
    ∃ js, toJsons level items = .ok js ∧ (∀ j ∈ js, Json.ReadsAs j j) ∧
      Json.itemData? js = some items := by
  induction items with
  | nil => exact ⟨[], rfl, List.forall_mem_nil _, rfl⟩
  | cons v items ih =>
      obtain ⟨⟨j, hj, hread, hdata⟩, hitems⟩ := List.forall_mem_cons.mp h
      obtain ⟨js, hjs, hreads, hall⟩ := ih hitems
      refine ⟨j :: js, ?_, List.forall_mem_cons.mpr ⟨hread, hreads⟩, ?_⟩
      · rw [toJsons, hj, hjs]
        rfl
      · rw [Json.itemData?, hdata, hall]
        rfl

theorem keyNames_ofTexts (fields : List (String × Value)) :
    keyNames (Entries.ofTexts fields) = .ok (fields.map Prod.fst) := by
  induction fields with
  | nil => rfl
  | cons field rest ih =>
      rw [Entries.ofTexts_cons, keyNames, ih]
      rfl

theorem contentsToJson_comesBack {level : Nat} {fields : List (String × Value)}
    (h : ∀ f ∈ fields, f.2.ComesBack level) :
    ∃ js, contentsToJson level (Entries.ofTexts fields) = .ok js ∧
      js.length = fields.length ∧ (∀ j ∈ js, Json.ReadsAs j j) ∧
      Json.fieldData? ((fields.map Prod.fst).zip js) = some fields := by
  induction fields with
  | nil => exact ⟨[], rfl, rfl, List.forall_mem_nil _, rfl⟩
  | cons field rest ih =>
      obtain ⟨⟨j, hj, hread, hdata⟩, hrest⟩ := List.forall_mem_cons.mp h
      obtain ⟨js, hjs, hlength, hreads, hall⟩ := ih hrest
      refine ⟨j :: js, ?_, by simp [hlength], List.forall_mem_cons.mpr ⟨hread, hreads⟩, ?_⟩
      · rw [Entries.ofTexts_cons, contentsToJson, hj, hjs]
        rfl
      · rw [List.map_cons, List.zip_cons_cons, Json.fieldData?, hdata, hall]
        rfl

section

variable {level inside : Nat} {js : List Json} (hlevel : levelInside level = .ok inside)
include hlevel

theorem toJson_list {items : List Value} (h : toJsons inside items = .ok js) :
    (list items).toJson level = .ok (.array js) := by
  simp only [toJson, hlevel, bind, Except.bind, h]
  rfl

theorem toJson_dictionary {entries : Entries} {names : List String}
    (hnames : keyNames entries = .ok names) (h : contentsToJson inside entries = .ok js) :
    (dictionary entries).toJson level = .ok (.object (names.zip js)) := by
  simp only [toJson, hlevel, bind, Except.bind, hnames, h]
  rfl

end

theorem levelInside_ok {level : Nat} (h : level + 1 < levelCount) :
    levelInside level = .ok (level + 1) := by
  have hmod : level % levelCount = level := Nat.mod_eq_of_lt (by omega)
  rw [levelInside, hmod, if_neg (by omega)]

/-- **A plain value comes back** from its structured form, as long as the levels can be counted. -/
theorem IsPlain.comesBack {depth : Nat} {v : Value} (h : IsPlain depth v) {level : Nat}
    (hlevel : level + depth < levelCount) : v.ComesBack level := by
  induction h generalizing level with
  | absent => exact ⟨.null, rfl, Json.readsAs_null, rfl⟩
  | bool b => exact ⟨.bool b, rfl, Json.readsAs_bool b, rfl⟩
  | @int depth n hlow hhigh =>
      have hwide : isWide n = false := by
        simp only [isWide, Bool.or_eq_false_iff, decide_eq_false_iff_not]
        omega
      exact ⟨.int n, by rw [toJson, hwide]; rfl, readsAs_int hwide, rfl⟩
  | text s => exact ⟨.text s, rfl, Json.readsAs_text s, rfl⟩
  | @list depth items _ ih =>
      have hinside : levelInside level = .ok (level + 1) := levelInside_ok (by omega)
      have hitems : ∀ v ∈ items, v.ComesBack (level + 1) := fun v hv => ih v hv (by omega)
      obtain ⟨js, hjs, hreads, hdata⟩ := toJsons_comesBack hitems
      exact ⟨.array js, toJson_list hinside hjs, Json.readsAs_array (List.forall₂_same.mpr hreads),
        by rw [Json.data?, hdata]; rfl⟩
  | @dictionary depth fields hkeys _ ih =>
      have hinside : levelInside level = .ok (level + 1) := levelInside_ok (by omega)
      have hcontents : ∀ f ∈ fields, f.2.ComesBack (level + 1) := fun f hf => ih f hf (by omega)
      obtain ⟨js, hjs, hlength, hreads, hdata⟩ := contentsToJson_comesBack hcontents
      have hnodup : (((fields.map Prod.fst).zip js).map Prod.fst).Nodup := by
        rw [List.map_fst_zip (by simp [hlength])]
        exact hkeys
      have hforms : ∀ f ∈ (fields.map Prod.fst).zip js, Json.FieldReadsAs f f :=
        fun f hf => ⟨rfl, hreads f.2 (List.of_mem_zip hf).2⟩
      have hread := Json.readsAs_object (List.forall₂_same.mpr hforms)
      rw [Keyed.ofList_of_nodup hnodup] at hread
      exact ⟨_, toJson_dictionary hinside (keyNames_ofTexts fields) hjs, hread,
        by rw [Json.data?, hdata]; rfl⟩

/-! ### Too many levels -/

theorem levelInside_last {level : Nat} (h : level + 1 = levelCount) :
    levelInside level = .error .tooDeep := by
  have hmod : level % levelCount = level := Nat.mod_eq_of_lt (by omega)
  rw [levelInside, hmod, if_pos (by omega)]

theorem contentsToJson_eq (level : Nat) (entries : Entries) :
    contentsToJson level entries = toJsons level (entries.map Prod.snd) := by
  induction entries with
  | nil => rfl
  | cons entry rest ih => rw [contentsToJson, ih, List.map_cons, toJsons]

/-- One value that is too deep is enough, if the others have a structured form. -/
theorem toJsons_tooDeep {level : Nat} {items : List Value}
    (h : ∀ v ∈ items, (∃ j, v.toJson level = .ok j) ∨ v.toJson level = .error .tooDeep)
    (hdeep : ∃ v ∈ items, v.toJson level = .error .tooDeep) :
    toJsons level items = .error .tooDeep := by
  induction items with
  | nil =>
      obtain ⟨v, hv, -⟩ := hdeep
      cases hv
  | cons v items ih =>
      obtain ⟨⟨j, hj⟩ | hv, hitems⟩ := List.forall_mem_cons.mp h
      · obtain ⟨w, hw, hfails⟩ := hdeep
        obtain rfl | hrest := List.mem_cons.mp hw
        · rw [hj] at hfails
          cases hfails
        · rw [toJsons, hj, ih hitems ⟨w, hrest, hfails⟩]
          rfl
      · rw [toJsons, hv]
        rfl

/-- Values of which one stands too deep inside the others. -/
theorem toJsons_of_not_isPlain {level room : Nat} (hlevel : level + room < levelCount)
    {items : List Value}
    (h : ∀ v ∈ items, ¬v.IsPlain room → v.toJson level = .error .tooDeep)
    (hdeep : ¬∀ v ∈ items, v.IsPlain room) : toJsons level items = .error .tooDeep := by
  refine toJsons_tooDeep (fun v hv => ?_) ?_
  · by_cases hplain : v.IsPlain room
    · obtain ⟨j, hj, -⟩ := hplain.comesBack hlevel
      exact .inl ⟨j, hj⟩
    · exact .inr (h v hv hplain)
  · simp only [Classical.not_forall] at hdeep
    obtain ⟨v, hv, hplain⟩ := hdeep
    exact ⟨v, hv, h v hv hplain⟩

/-- **A plain value is refused** where its levels cannot be counted any more. -/
theorem IsPlain.toJson_tooDeep {depth : Nat} {v : Value} (h : IsPlain depth v) {level room : Nat}
    (hlevel : level + room + 1 = levelCount) (hdeep : ¬v.IsPlain room) :
    v.toJson level = .error .tooDeep := by
  induction h generalizing level room with
  | absent => exact absurd .absent hdeep
  | bool b => exact absurd (.bool b) hdeep
  | int hlow hhigh => exact absurd (.int hlow hhigh) hdeep
  | text s => exact absurd (.text s) hdeep
  | @list depth items _ ih =>
      cases room with
      | zero =>
          rw [toJson, levelInside_last (by omega)]
          rfl
      | succ room =>
          have hinside : levelInside level = .ok (level + 1) := levelInside_ok (by omega)
          have hroom : level + 1 + room + 1 = levelCount := by omega
          have hitems : toJsons (level + 1) items = .error .tooDeep :=
            toJsons_of_not_isPlain (Nat.lt_of_succ_le (Nat.le_of_eq hroom))
              (fun v hv hplain => ih v hv hroom hplain) fun hall => hdeep (.list hall)
          simp only [toJson, hinside, bind, Except.bind, hitems]
  | @dictionary depth fields hkeys _ ih =>
      cases room with
      | zero =>
          rw [toJson, levelInside_last (by omega)]
          rfl
      | succ room =>
          have hinside : levelInside level = .ok (level + 1) := levelInside_ok (by omega)
          have hroom : level + 1 + room + 1 = levelCount := by omega
          have hvalues : (Entries.ofTexts fields).map Prod.snd = fields.map Prod.snd := by
            simp [Entries.ofTexts]
          have hcontents : contentsToJson (level + 1) (Entries.ofTexts fields) =
              .error .tooDeep := by
            rw [contentsToJson_eq, hvalues]
            refine toJsons_of_not_isPlain (Nat.lt_of_succ_le (Nat.le_of_eq hroom)) ?_ fun hall =>
              hdeep (.dictionary hkeys fun f hf => hall f.2 (List.mem_map_of_mem hf))
            intro v hv hplain
            obtain ⟨f, hf, rfl⟩ := List.mem_map.mp hv
            exact ih f hf hroom hplain
          simp only [toJson, hinside, bind, Except.bind, keyNames_ofTexts, hcontents]

end Value

end Accrual
