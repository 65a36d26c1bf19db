import Accrual.Proofs.Values.Equality
import Accrual.Record
import Mathlib.Data.List.DropRight

/-!
# Violations keep stripped texts

A text is stripped of the white space at its ends if what is left neither begins
nor ends with white space (`Text.IsStripped`).  There is only one such text
(`Text.isStripped_iff`), and stripping it changes nothing.  So a violation that
is built from the texts of another one is the same again, and two violations are
equal if their texts are once stripped (`Violation.violation_eq`).
-/

namespace Accrual

namespace Text

/-! ### Stripped texts -/

/-- What is left of a text without its longest white prefix and its longest white suffix. -/
structure IsStripped (outer inner : List Char) : Prop where
  split : ∃ front back, outer = front ++ inner ++ back ∧
    (∀ c ∈ front, isWhiteSpace c = true) ∧ ∀ c ∈ back, isWhiteSpace c = true
  head : ∀ c, inner.head? = some c → isWhiteSpace c = false
  last : ∀ c, inner.getLast? = some c → isWhiteSpace c = false

theorem head_trimStart {cs : List Char} {c : Char} (h : (trimStart cs).head? = some c) :
    isWhiteSpace c = false := by
  have hhead := List.head?_dropWhile_not isWhiteSpace cs
  rw [← trimStart, h] at hhead
  exact hhead

theorem getLast_trimEnd {cs : List Char} {c : Char} (h : (trimEnd cs).getLast? = some c) :
    isWhiteSpace c = false := by
  rw [trimEnd, List.getLast?_reverse] at h
  exact head_trimStart h

theorem trimEnd_prefix (cs : List Char) : trimEnd cs <+: cs :=
  List.rdropWhile_prefix isWhiteSpace cs

theorem trimStart_split (cs : List Char) : cs.takeWhile isWhiteSpace ++ trimStart cs = cs :=
  List.takeWhile_append_dropWhile

theorem trimEnd_split (cs : List Char) :
    trimEnd cs ++ (cs.reverse.takeWhile isWhiteSpace).reverse = cs := by
  rw [trimEnd, ← List.reverse_append, List.takeWhile_append_dropWhile, List.reverse_reverse]

theorem isStripped_strip (cs : List Char) : IsStripped cs (strip cs) where
  split := by
    refine ⟨cs.takeWhile isWhiteSpace, ((trimStart cs).reverse.takeWhile isWhiteSpace).reverse,
      ?_, fun c hc => List.mem_takeWhile_imp hc, fun c hc => ?_⟩
    · rw [strip, List.append_assoc, trimEnd_split, trimStart_split]
    · exact List.mem_takeWhile_imp (List.mem_reverse.mp hc)
  head := by
    intro c hc
    obtain ⟨back, hback⟩ := trimEnd_prefix (trimStart cs)
    have hhead : (trimStart cs).head? = some c := by
      rw [← hback, ← strip, List.head?_append, hc, Option.some_or]
    exact head_trimStart hhead
  last := fun c hc => getLast_trimEnd hc

theorem trimStart_of_head {cs : List Char} (h : ∀ c, cs.head? = some c → isWhiteSpace c = false) :
    trimStart cs = cs := by
  cases cs with
  | nil => rfl
  | cons c rest => exact List.dropWhile_cons_of_neg (by simp [h c rfl])

theorem trimStart_append_white {front cs : List Char} (h : ∀ c ∈ front, isWhiteSpace c = true) :
    trimStart (front ++ cs) = trimStart cs :=
  List.dropWhile_append_of_pos h

theorem trimEnd_append_white {cs back : List Char} (h : ∀ c ∈ back, isWhiteSpace c = true) :
    trimEnd (cs ++ back) = trimEnd cs := by
  have hback : ∀ c ∈ back.reverse, isWhiteSpace c = true := fun c hc => h c (List.mem_reverse.mp hc)
  rw [trimEnd, List.reverse_append, List.dropWhile_append_of_pos hback, ← trimEnd]

theorem trimEnd_of_last {cs : List Char}
    (h : ∀ c, cs.getLast? = some c → isWhiteSpace c = false) : trimEnd cs = cs := by
  have hhead : trimStart cs.reverse = cs.reverse :=
    trimStart_of_head fun c hc => h c (by rwa [← List.head?_reverse])
  rw [trimEnd, ← trimStart, hhead, List.reverse_reverse]

/-- **There is one stripped text only.** -/
theorem isStripped_iff {outer inner : List Char} :
    IsStripped outer inner ↔ inner = strip outer := by
  refine ⟨fun h => ?_, fun h => h ▸ isStripped_strip outer⟩
  obtain ⟨front, back, rfl, hfront, hback⟩ := h.split
  rw [strip, List.append_assoc, trimStart_append_white hfront]
  cases inner with
  | nil =>
      -- all is white, so that the front takes everything
      have hall : trimStart back = [] := List.dropWhile_eq_nil_iff.mpr hback
      rw [List.nil_append, hall]
      rfl
  | cons c rest =>
      have hhead : ∀ d, ((c :: rest) ++ back).head? = some d → isWhiteSpace d = false :=
        fun d hd => h.head d hd
      rw [trimStart_of_head hhead, trimEnd_append_white hback, trimEnd_of_last h.last]

theorem strip_strip (cs : List Char) : strip (strip cs) = strip cs := by
  have h := isStripped_strip cs
  exact (isStripped_iff.mp ⟨⟨[], [], by simp, by simp, by simp⟩, h.head, h.last⟩).symm

theorem strip_of_white {cs : List Char} (h : ∀ c ∈ cs, isWhiteSpace c = true) : strip cs = [] :=
  (isStripped_iff.mp ⟨⟨cs, [], by simp, h, by simp⟩, by simp, by simp⟩).symm

theorem toList_stripped (s : String) : (stripped s).toList = strip s.toList :=
  String.toList_ofList

@[simp] theorem stripped_stripped (s : String) : stripped (stripped s) = stripped s := by
  rw [stripped, toList_stripped, strip_strip, ← stripped]

theorem stripped_of_white {s : String} (h : ∀ c ∈ s.toList, isWhiteSpace c = true) :
    stripped s = "" := by
  rw [stripped, strip_of_white h, String.ofList_nil]

end Text

open Text

namespace Violation

/-! ### Building a violation -/

def emptyTexts (field message : String) : List Problem :=
  ([("field", field), ("message", message)].filter fun text => stripped text.2 = "").map
    fun text => ⟨.tooShort, [text.1]⟩

/-- The violation that keeps the given texts stripped. -/
def ofTexts (field message : String) (code : Option String) : Violation :=
  ⟨stripped field, stripped message, code.map stripped⟩

theorem readCode_ofOptionText (fields : List (String × Value)) (code : Option String)
    (h : fields.lookup "code" = some (.ofOptionText code)) :
    readCode fields = .ok (code.map stripped) := by
  rw [readCode, h]
  cases code with
  | none => rfl
  | some s => rfl

/-- **A violation is built** from texts of which field and message are not empty once they are
stripped; otherwise the problems name those that are. -/
theorem violation_eq (field message : String) (code : Option String) :
    violation (.text field) (.text message) (.ofOptionText code) =
      if stripped field ≠ "" ∧ stripped message ≠ "" then .ok (ofTexts field message code)
      else .error (.invalid "Violation" (emptyTexts field message)) := by
  let fields : Record.Fields :=
    [("field", .text field), ("message", .text message), ("code", .ofOptionText code)]
  have hfield : Record.requiredText fields "field" = .ok field := rfl
  have hmessage : Record.requiredText fields "message" = .ok message := rfl
  have hcode : readCode fields = .ok (code.map stripped) := readCode_ofOptionText fields code rfl
  have hother : (fields.filter fun f => !(["field", "message", "code"].contains f.1)) = [] := rfl
  simp only [violation, ofFields, fields] at hfield hmessage hcode hother ⊢
  simp only [hfield, hmessage, hcode, hother, bind, Except.bind, readText]
  by_cases hf : stripped field = "" <;> by_cases hm : stripped message = "" <;>
    simp [hf, hm, emptyTexts, Problem.ofExcept, ofTexts]

/-- **Texts of a violation are stripped already**, so that it can be built from them. -/
theorem violation_of_violation {field message : String} {code : Option String} {v : Violation}
    (h : violation (.text field) (.text message) (.ofOptionText code) = .ok v) :
    v = ofTexts field message code ∧
      violation (.text v.field) (.text v.message) (.ofOptionText v.code) = .ok v := by
  rw [violation_eq] at h
  split at h
  next hne =>
    obtain rfl := Except.ok.inj h
    have hcode : (code.map stripped).map stripped = code.map stripped := by
      rw [Option.map_map]
      exact congrArg (code.map ·) (funext stripped_stripped)
    refine ⟨rfl, ?_⟩
    rw [violation_eq, if_pos (by simpa [ofTexts] using hne)]
    simp only [ofTexts, stripped_stripped, hcode]
  next => cases h

/-- An empty code is shown like none. -/
theorem render_of_empty_code {v : Violation} (h : v.code = some "") :
    v.render = { v with code := none }.render := by
  rw [render, h]
  rfl

/-- **Violations normalise their texts.**  Each text has one stripped form.  A violation is built if
field and message are not empty in this form, and keeps this form of all three texts; a code of
white space is kept as the empty text, which is shown like no code.  Otherwise the problems name the
empty ones.  Building a violation from its own texts gives the same violation, and two violations
are equal if and only if the stripped forms of their texts are. -/
theorem keeps_stripped_texts (field message : String) (code : Option String) :
    (∀ text : String, IsStripped text.toList (stripped text).toList ∧
      ∀ inner, IsStripped text.toList inner → inner = (stripped text).toList) ∧
    violation (.text field) (.text message) (.ofOptionText code) =
      (if stripped field ≠ "" ∧ stripped message ≠ "" then
        .ok ⟨stripped field, stripped message, code.map stripped⟩
      else .error (.invalid "Violation" (emptyTexts field message))) ∧
    ∀ v, violation (.text field) (.text message) (.ofOptionText code) = .ok v →
      violation (.text v.field) (.text v.message) (.ofOptionText v.code) = .ok v ∧
      (∀ text, code = some text → (∀ c ∈ text.toList, isWhiteSpace c = true) →
        v.code = some "" ∧
          (Value.violation v).plain = (Value.violation { v with code := none }).plain) ∧
      ∀ (field' message' : String) (code' : Option String) (w : Violation),
        violation (.text field') (.text message') (.ofOptionText code') = .ok w →
        ((Value.violation v == .violation w) = true ↔
          stripped field = stripped field' ∧ stripped message = stripped message' ∧
            code.map stripped = code'.map stripped) := by
  refine ⟨fun text => ?_, violation_eq field message code, fun v hv => ?_⟩
  · rw [toList_stripped]
    exact ⟨isStripped_strip _, fun inner => isStripped_iff.mp⟩
  · obtain ⟨rfl, hagain⟩ := violation_of_violation hv
    refine ⟨hagain, ?_, fun field' message' code' w hw => ?_⟩
    · rintro text rfl hwhite
      have hempty : (ofTexts field message (some text)).code = some "" :=
        congrArg some (stripped_of_white hwhite)
      exact ⟨hempty, congrArg String.toList (render_of_empty_code hempty)⟩
    · obtain ⟨rfl, -⟩ := violation_of_violation hw
      rw [Value.violation_beq, Value.violation.injEq, eq_comm, ofTexts, ofTexts, mk.injEq]

/-- A next line and an em space are white, a separator is not; the code is a tab. -/
theorem keeps_stripped_texts_separator :
    let v : Violation := ⟨"name", "too  short\x1f", some ""⟩
    violation (.text "\u0085 name\u2003") (.text " too  short\x1f\n") (.text "\t") = .ok v ∧
      violation (.text v.field) (.text v.message) (.ofOptionText v.code) = .ok v ∧
      (Value.violation v).plain = (Value.violation { v with code := none }).plain ∧
      (Value.violation v).toPlain = "name: too  short\x1f" := by
  intro v
  obtain ⟨-, heq, hbuilt⟩ :=
    keeps_stripped_texts "\u0085 name\u2003" " too  short\x1f\n" (some "\t")
  have hv : violation (.text "\u0085 name\u2003") (.text " too  short\x1f\n")
      (.ofOptionText (some "\t")) = .ok v := heq.trans (by decide +kernel)
  obtain ⟨hagain, hcode, -⟩ := hbuilt v hv
  have hwhite : "\t".toList.all isWhiteSpace = true := rfl
  exact ⟨hv, hagain, (hcode "\t" rfl (List.all_eq_true.mp hwhite)).2, by decide +kernel⟩

end Violation

end Accrual
