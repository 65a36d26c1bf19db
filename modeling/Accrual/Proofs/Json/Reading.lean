import Accrual.Proofs.Json.Scalars
import Mathlib.Data.List.Forall2

/-!
# Printed data is read back

The reader takes printed data from the front of whatever closes behind it
(`ReadsAs`).  Texts, truth values and integers are read back as they were, a
number with places as some number with places, a list item by item
(`readsAs_array`), and an object field by field (`readsAs_object`).  So a whole
text that prints some data is read as what the data is read as (`parse?_print`).
-/

namespace Accrual.Json

/-- A value starts neither with a blank nor with a closing bracket. -/
theorem head_of_value? {bound : Nat} {cs : List Char} {read : Json × List Char}
    (h : value? bound cs = some read) :
    ∃ c rest, cs = c :: rest ∧ isSpace c = false ∧ c ≠ ']' := by
  cases bound with
  | zero => cases h
  | succ bound =>
      cases cs with
      | nil => cases h
      | cons c rest =>
          refine ⟨c, rest, rfl, Bool.eq_false_iff.mpr fun hspace => ?_, fun hbracket => ?_⟩
          · simp only [isSpace, Bool.or_eq_true, beq_iff_eq] at hspace
            obtain ((rfl | rfl) | rfl) | rfl := hspace <;> cases h
          · subst hbracket
            cases h

theorem skipSpace_of_head {c : Char} (h : isSpace c = false) (rest : List Char) :
    skipSpace (c :: rest) = c :: rest :=
  List.dropWhile_cons_of_neg (by simp [h])

theorem items?_last {bound : Nat} {cs rest : List Char} {item : Json}
    (h : value? bound cs = some (item, ']' :: rest)) :
    items? (bound + 1) cs = some ([item], rest) := by
  simp only [items?, h]
  rfl

theorem items?_cons {bound : Nat} {cs more rest : List Char} {item : Json} {items : List Json}
    (h : value? bound cs = some (item, ',' :: more)) (hm : skipSpace more = more)
    (hi : items? bound more = some (items, rest)) :
    items? (bound + 1) cs = some (item :: items, rest) := by
  have hcomma : skipSpace (',' :: more) = ',' :: more := rfl
  simp only [items?, h, hcomma, hm, hi, Option.bind_eq_bind, Option.bind_some]

theorem value?_array {bound : Nat} {c : Char} {cs rest : List Char} {items : List Json}
    (hspace : isSpace c = false) (hbracket : c ≠ ']')
    (h : items? bound (c :: cs) = some (items, rest)) :
    value? (bound + 1) ('[' :: c :: cs) = some (array items, rest) := by
  simp only [value?, skipSpace_of_head hspace]
  split
  next heq => exact absurd (List.cons.inj heq).1 hbracket
  next => simp only [h, Option.bind_eq_bind, Option.bind_some]

theorem value?_object {bound : Nat} {cs rest : List Char} {fields : Fields}
    (h : fields? bound ('\x22' :: cs) = some (fields, rest)) :
    value? (bound + 1) ('\x7b' :: '\x22' :: cs) = some (object (Keyed.ofList fields), rest) := by
  have hfields : value? (bound + 1) ('\x7b' :: '\x22' :: cs) =
      (fields? bound ('\x22' :: cs)).bind fun read =>
        some (object (Keyed.ofList read.1), read.2) := rfl
  rw [hfields, h, Option.bind_some]

section

variable {bound : Nat} {cs more rest : List Char} {name : String} {content : Json}

theorem fields?_last (hn : text? cs = some (some name, ':' :: more))
    (hm : skipSpace more = more) (h : value? bound more = some (content, '\x7d' :: rest)) :
    fields? (bound + 1) ('\x22' :: cs) = some ([(name, content)], rest) := by
  have hcolon : skipSpace (':' :: more) = ':' :: more := rfl
  simp only [fields?, hn, hcolon, hm, h, Option.bind_eq_bind, Option.bind_some]
  rfl

theorem fields?_cons {after : List Char} {fields : Fields}
    (hn : text? cs = some (some name, ':' :: more)) (hm : skipSpace more = more)
    (h : value? bound more = some (content, ',' :: after)) (ha : skipSpace after = after)
    (hf : fields? bound after = some (fields, rest)) :
    fields? (bound + 1) ('\x22' :: cs) = some ((name, content) :: fields, rest) := by
  have hcolon : skipSpace (':' :: more) = ':' :: more := rfl
  have hcomma : skipSpace (',' :: after) = ',' :: after := rfl
  simp only [fields?, hn, hcolon, hm, h, hcomma, ha, hf, Option.bind_eq_bind, Option.bind_some]
  rfl

end

theorem head_of_number? {cs : List Char} {read : Json × List Char} (h : number? cs = some read) :
    ∃ c rest, cs = c :: rest ∧ (c.isDigit ∨ c = '-') := by
  cases cs with
  | nil => cases h
  | cons c rest =>
      refine ⟨c, rest, rfl, Decidable.or_iff_not_imp_left.mpr fun hdigit => ?_⟩
      have hwhole : wholePart? (c :: rest) = none := by
        unfold wholePart?
        split
        next heq =>
          obtain rfl := (List.cons.inj heq).1
          exact absurd rfl hdigit
        next => simp [digits, hdigit]
      unfold number? at h
      split at h
      next heq => exact (List.cons.inj heq).1
      next heq => exact (List.cons.inj heq).1
      next =>
        rw [unsignedNumber?, hwhole] at h
        cases h

/-- What starts like a number is read as one. -/
theorem value?_of_number? {cs : List Char} {read : Json × List Char} (h : number? cs = some read)
    (bound : Nat) : value? (bound + 1) cs = some read := by
  obtain ⟨c, rest, rfl, hc⟩ := head_of_number? h
  have hne : ∀ d ∈ ['\x22', '[', '\x7b', 'n', 't', 'f', 'N', 'I'], c ≠ d := by
    rintro d hd rfl
    have hall : ['\x22', '[', '\x7b', 'n', 't', 'f', 'N', 'I'].all
        (fun d => !(d.isDigit || d == '-')) = true := by decide
    have hother := List.all_eq_true.mp hall c hd
    simp only [Bool.not_eq_true', Bool.or_eq_false_iff, beq_eq_false_iff_ne] at hother
    obtain hdigit | hminus := hc
    · exact Bool.eq_false_iff.mp hother.1 hdigit
    · exact hother.2 hminus
  unfold value?
  split
  all_goals first
    | exact h
    | next heq => exact absurd (List.cons.inj heq).1 (hne _ (by decide))

/-! ### What printed data is read as -/

/-- The printed form of the data is read as some data, whatever closes behind it.  Two steps are
enough for each character. -/
def ReadsAs (j read : Json) : Prop :=
  ∀ bound rest, 2 * j.print.length < bound → Closes rest →
    value? bound (j.print ++ rest) = some (read, rest)

theorem readsAs_of_steps {j read : Json}
    (h : ∀ bound rest, 2 * j.print.length ≤ bound → Closes rest →
      value? (bound + 1) (j.print ++ rest) = some (read, rest)) : ReadsAs j read := by
  intro bound rest hbound hrest
  obtain ⟨bound, rfl⟩ : ∃ b, bound = b + 1 := ⟨bound - 1, by omega⟩
  exact h bound rest (by omega) hrest

theorem ReadsAs.head {j read : Json} (h : ReadsAs j read) :
    ∃ c cs, j.print = c :: cs ∧ isSpace c = false ∧ c ≠ ']' := by
  have hread := h (2 * j.print.length + 1) [] (Nat.lt_succ_self _) closes_nil
  rw [List.append_nil] at hread
  exact head_of_value? hread

/-- Printed data is read in one way only. -/
theorem ReadsAs.unique {j read other : Json} (h : ReadsAs j read) (ho : ReadsAs j other) :
    read = other := by
  have hread := h (2 * j.print.length + 1) [] (Nat.lt_succ_self _) closes_nil
  rw [ho _ [] (Nat.lt_succ_self _) closes_nil] at hread
  exact ((Prod.mk.inj (Option.some.inj hread)).1).symm

theorem ReadsAs.skipSpace_print {j read : Json} (h : ReadsAs j read) (more : List Char) :
    skipSpace (j.print ++ more) = j.print ++ more := by
  obtain ⟨c, cs, hstart, hspace, -⟩ := h.head
  rw [hstart]
  exact skipSpace_of_head hspace _

theorem readsAs_null : ReadsAs null null := readsAs_of_steps fun _ _ _ _ => rfl

theorem readsAs_bool (b : Bool) : ReadsAs (bool b) (bool b) := by
  cases b <;> exact readsAs_of_steps fun _ _ _ _ => rfl

theorem readsAs_text (s : String) : ReadsAs (text s) (text s) := by
  refine readsAs_of_steps fun bound rest _ _ => ?_
  have hprint : (text s).print ++ rest =
      '\x22' :: (s.toList.flatMap escapeChar ++ '\x22' :: rest) := by
    simp [print, printText]
  rw [hprint, value?, text?_escaped]
  rfl

theorem readsAs_int {n : Int} (h : (Text.decimal n.natAbs).length ≤ 4300) :
    ReadsAs (int n) (int n) :=
  readsAs_of_steps fun bound _ _ hrest => value?_of_number? (number?_signedDecimal h hrest) bound

theorem readsAs_real (m e : Int) : ∃ m' e', ReadsAs (real m e) (real m' e') := by
  obtain ⟨m', e', h⟩ := number?_withPlaces m e
  exact ⟨m', e', readsAs_of_steps fun bound rest _ hrest => value?_of_number? (h rest hrest) bound⟩

/-! ### Lists and objects -/

theorem exists_printItems (item : Json) (items : List Json) :
    ∃ more, printItems (item :: items) = item.print ++ more := by
  cases items with
  | nil => exact ⟨[], (List.append_nil _).symm⟩
  | cons next items => exact ⟨_, rfl⟩

theorem items?_printItems {items reads : List Json} (h : List.Forall₂ ReadsAs items reads)
    (hne : items ≠ []) (bound : Nat) (rest : List Char)
    (hbound : 2 * (printItems items).length ≤ bound) :
    items? (bound + 2) (printItems items ++ ']' :: rest) = some (reads, rest) := by
  induction h generalizing bound with
  | nil => exact absurd rfl hne
  | @cons item read items reads hitem hitems ih =>
      cases hitems with
      | nil =>
          exact items?_last (hitem (bound + 1) _ (Nat.lt_succ_of_le hbound) (closes_bracket rest))
      | @cons next _ items _ hnext hitems =>
          have hprint : printItems (item :: next :: items) =
              item.print ++ ',' :: printItems (next :: items) := rfl
          rw [hprint, List.length_append, List.length_cons] at hbound
          obtain ⟨bound, rfl⟩ : ∃ b, bound = b + 1 := ⟨bound - 1, by omega⟩
          have hmore := ih (List.cons_ne_nil _ _) bound (by omega)
          obtain ⟨more, hitems⟩ := exists_printItems next items
          rw [hprint, List.append_assoc, List.cons_append]
          refine items?_cons (hitem (bound + 2) _ (by omega) (closes_comma _)) ?_ hmore
          rw [hitems, List.append_assoc]
          exact hnext.skipSpace_print _

/-- **A list is read item by item.** -/
theorem readsAs_array {items reads : List Json} (h : List.Forall₂ ReadsAs items reads) :
    ReadsAs (array items) (array reads) := by
  refine readsAs_of_steps fun bound rest hbound _ => ?_
  have hprint : (array items).print = '[' :: (printItems items ++ [']']) := rfl
  rw [hprint, List.length_cons, List.length_append, List.length_singleton] at hbound
  rw [hprint, List.cons_append, List.append_assoc]
  cases h with
  | nil => rfl
  | @cons item _ items _ hitem hitems =>
      obtain ⟨bound, rfl⟩ : ∃ b, bound = b + 2 := ⟨bound - 2, by omega⟩
      have hread := items?_printItems (.cons hitem hitems) (List.cons_ne_nil _ _) bound rest
        (by omega)
      obtain ⟨c, cs, hstart, hspace, hbracket⟩ := hitem.head
      obtain ⟨more, hitems⟩ := exists_printItems item items
      rw [hitems, hstart, List.append_assoc, List.cons_append] at hread
      rw [hitems, hstart, List.append_assoc, List.cons_append]
      exact value?_array hspace hbracket hread

def FieldReadsAs (field read : String × Json) : Prop :=
  field.1 = read.1 ∧ ReadsAs field.2 read.2

theorem text?_printText (s : String) (rest : List Char) :
    ∃ cs, printText s ++ rest = '\x22' :: cs ∧ text? cs = some (some s, rest) :=
  ⟨s.toList.flatMap escapeChar ++ '\x22' :: rest, by simp [printText], text?_escaped s rest⟩

theorem exists_printFields (field : String × Json) (fields : Fields) :
    ∃ cs, printFields (field :: fields) = '\x22' :: cs := by
  cases fields <;> exact ⟨_, rfl⟩

theorem fields?_printFields {fields reads : Fields} (h : List.Forall₂ FieldReadsAs fields reads)
    (hne : fields ≠ []) (bound : Nat) (rest : List Char)
    (hbound : 2 * (printFields fields).length ≤ bound) :
    fields? (bound + 2) (printFields fields ++ '\x7d' :: rest) = some (reads, rest) := by
  induction h generalizing bound with
  | nil => exact absurd rfl hne
  | @cons field read fields reads hfield hfields ih =>
      obtain ⟨name, content⟩ := field
      obtain ⟨_, readContent⟩ := read
      obtain ⟨rfl, hcontent⟩ : name = _ ∧ ReadsAs content readContent := hfield
      cases hfields with
      | nil =>
          have hprint :
              printFields [(name, content)] = printText name ++ ':' :: content.print := rfl
          rw [hprint, List.length_append, List.length_cons] at hbound
          rw [hprint, List.append_assoc, List.cons_append]
          obtain ⟨ds, hquote, hname⟩ :=
            text?_printText name (':' :: (content.print ++ '\x7d' :: rest))
          rw [hquote]
          exact fields?_last hname (hcontent.skipSpace_print _)
            (hcontent (bound + 1) _ (by omega) (closes_brace rest))
      | @cons next _ fields _ hnext hfields =>
          have hprint : printFields ((name, content) :: next :: fields) =
              printText name ++ ':' :: content.print ++ ',' :: printFields (next :: fields) := rfl
          rw [hprint, List.length_append, List.length_append, List.length_cons,
            List.length_cons] at hbound
          obtain ⟨bound, rfl⟩ : ∃ b, bound = b + 1 := ⟨bound - 1, by omega⟩
          have hmore := ih (List.cons_ne_nil _ _) bound (by omega)
          obtain ⟨es, hfields⟩ := exists_printFields next fields
          rw [hprint, List.append_assoc, List.append_assoc, List.cons_append, List.cons_append]
          obtain ⟨ds, hquote, hname⟩ := text?_printText name
            (':' :: (content.print ++ ',' :: (printFields (next :: fields) ++ '\x7d' :: rest)))
          rw [hquote]
          refine fields?_cons hname (hcontent.skipSpace_print _)
            (hcontent (bound + 2) _ (by omega) (closes_comma _)) ?_ hmore
          rw [hfields]
          rfl

/-- **An object is read field by field.**  Of fields with the same name the last one counts. -/
theorem readsAs_object {fields reads : Fields} (h : List.Forall₂ FieldReadsAs fields reads) :
    ReadsAs (object fields) (object (Keyed.ofList reads)) := by
  refine readsAs_of_steps fun bound rest hbound _ => ?_
  have hprint : (object fields).print = '\x7b' :: (printFields fields ++ ['\x7d']) := rfl
  rw [hprint, List.length_cons, List.length_append, List.length_singleton] at hbound
  rw [hprint, List.cons_append, List.append_assoc]
  cases h with
  | nil => rfl
  | @cons field _ fields _ hfield hfields =>
      obtain ⟨bound, rfl⟩ : ∃ b, bound = b + 2 := ⟨bound - 2, by omega⟩
      have hread := fields?_printFields (.cons hfield hfields) (List.cons_ne_nil _ _) bound rest
        (by omega)
      obtain ⟨cs, hstart⟩ := exists_printFields field fields
      rw [hstart] at hread ⊢
      exact value?_object hread

/-- **A whole text** that prints some data is read as what the data is read as. -/
theorem parse?_print {j read : Json} (h : ReadsAs j read) : parse? j.print = some read := by
  have hskip := h.skipSpace_print []
  have hread := h (2 * j.print.length + 2) [] (by omega) closes_nil
  rw [List.append_nil] at hskip hread
  rw [parse?, hskip, hread]
  rfl

end Accrual.Json
