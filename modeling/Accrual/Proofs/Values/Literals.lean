import Accrual.Callback.Meaning
import Accrual.Proofs.Lines.Rows
import Accrual.Proofs.Values.Equality
import Accrual.Proofs.Values.Writable

/-!
# Literals tell the values they write

The first characters of a literal tell the kind of the value (`Value.kindOf?`),
and for each kind the rest is read from the front: a number ends where the
digits end, a text at its closing quote, and a row at the first bracket behind
an element.  So the literal of data tells where it ends and which value it
writes, whatever follows that can follow a literal (`IsData.determines`).
Between a row of one element and its bracket a tuple has a comma, but no space
as there is between two elements.

Literals of data are printable throughout (`IsData.printable_literal`).
-/

namespace Accrual

open Text

namespace Text

/-! ### Numbers and texts -/

def isNumeral (c : Char) : Bool := c.isDigit || c == '-'

theorem isNumeral_of_mem {n : Int} {c : Char} (h : c ∈ signedDecimal n) : isNumeral c = true := by
  have hdigits : ∀ {k : Nat}, c ∈ decimal k → isNumeral c = true := fun h => by
    rw [isNumeral, isDigit_of_mem_decimal h, Bool.true_or]
  unfold signedDecimal at h
  split at h
  · rcases List.mem_cons.mp h with rfl | h
    · rfl
    · exact hdigits h
  · exact hdigits h

theorem EndsLiteral.isNumeral_eq_false {rest : List Char} (h : EndsLiteral rest) :
    ∀ c, rest.head? = some c → isNumeral c = false := by
  intro c hc
  rcases h c hc with rfl | rfl | rfl | rfl | rfl <;> rfl

theorem decimal_inj {m n : Nat} (h : decimal m = decimal n) : m = n := by
  rw [← ofDecimal_decimal m, h, ofDecimal_decimal]

theorem minus_cons_ne_decimal (cs : List Char) (n : Nat) : '-' :: cs ≠ decimal n := by
  intro h
  have hminus : '-' ∈ decimal n := by simp [← h]
  exact absurd (isDigit_of_mem_decimal hminus) (by decide)

theorem signedDecimal_inj {m n : Int} (h : signedDecimal m = signedDecimal n) : m = n := by
  unfold signedDecimal at h
  split_ifs at h with hm hn hn
  · have habs := decimal_inj (List.cons.inj h).2
    omega
  · exact absurd h (minus_cons_ne_decimal _ _)
  · exact absurd h.symm (minus_cons_ne_decimal _ _)
  · have habs := decimal_inj h
    omega

theorem optionLiteral_append_inj {code code' : Option String} {rest more : List Char}
    (h : optionLiteral code ++ rest = optionLiteral code' ++ more) :
    code = code' ∧ rest = more := by
  have hnone : ∀ {cs rest more : List Char}, quoted cs ++ rest ≠ "None".toList ++ more := by
    intro cs rest more h
    have hquote := isQuote_quoteFor cs
    rw [(List.cons.inj h).1] at hquote
    exact absurd hquote (by decide)
  cases code with
  | none =>
      cases code' with
      | none => exact ⟨rfl, List.append_cancel_left h⟩
      | some s => exact absurd h.symm hnone
  | some s =>
      cases code' with
      | none => exact absurd h hnone
      | some s' =>
          obtain ⟨htext, hrest⟩ := quoted_append_inj h
          rw [String.toList_inj.mp htext]
          exact ⟨rfl, hrest⟩

end Text

namespace Violation

theorem literal_append (v : Violation) (rest : List Char) :
    v.literal ++ rest = "Violation(field=".toList ++ (quoted v.field.toList ++
      (", message=".toList ++ (quoted v.message.toList ++
        (", code=".toList ++ (optionLiteral v.code ++ ')' :: rest))))) := by
  simp [literal, applied]

theorem literal_append_inj {v w : Violation} {rest more : List Char}
    (h : v.literal ++ rest = w.literal ++ more) : v = w ∧ rest = more := by
  rw [literal_append, literal_append] at h
  have hfields := List.append_cancel_left h
  obtain ⟨hfield, hbehind⟩ := quoted_append_inj hfields
  have hmessages := List.append_cancel_left hbehind
  obtain ⟨hmessage, hbehind'⟩ := quoted_append_inj hmessages
  have hcodes := List.append_cancel_left hbehind'
  obtain ⟨hcode, hbehind''⟩ := optionLiteral_append_inj hcodes
  obtain ⟨field, message, code⟩ := v
  obtain ⟨field', message', code'⟩ := w
  simp only at hfield hmessage hcode
  rw [String.toList_inj.mp hfield, String.toList_inj.mp hmessage, hcode]
  exact ⟨rfl, (List.cons.inj hbehind'').2⟩

theorem printable_literal (v : Violation) : Printable v.literal := by
  have hcode : Printable (optionLiteral v.code) := by
    cases v.code with
    | none => decide
    | some s => exact printable_quoted _
  have hall := literal_append v []
  rw [List.append_nil] at hall
  rw [hall]
  simp only [printable_append, printable_cons]
  exact ⟨by decide, printable_quoted _, by decide, printable_quoted _, by decide, hcode, rfl,
    printable_nil⟩

end Violation

namespace Value

/-! ### Kinds -/

inductive Kind
  | absent
  | bool
  | int
  | text
  | list
  | tuple
  | dictionary
  | violation
  | variant (k : Variant)

def Variant.head : Variant → String
  | success => "Success"
  | failure => "Failure"
  | ok => "Ok"
  | err => "Err"

def kind? : Value → Option Kind
  | .absent => some .absent
  | .bool _ => some .bool
  | .int _ => some .int
  | .text _ => some .text
  | .list _ => some .list
  | .tuple _ => some .tuple
  | .dictionary _ => some .dictionary
  | .violation _ => some .violation
  | .success _ => some (.variant .success)
  | .failure _ => some (.variant .failure)
  | .ok _ => some (.variant .ok)
  | .err _ => some (.variant .err)
  | _ => none

theorem kind?_wrap (k : Variant) (v : Value) : (k.wrap v).kind? = some (.variant k) := by
  cases k <;> rfl

/-- How the literals of each kind begin, those of numbers apart. -/
def openings : List (List Char × Kind) :=
  [("None".toList, .absent), ("True".toList, .bool), ("False".toList, .bool),
    ([singleQuote], .text), ([doubleQuote], .text), (['['], .list), (['('], .tuple),
    (['\x7b'], .dictionary), ("Violation(".toList, .violation),
    ("Success(".toList, .variant .success), ("Failure(".toList, .variant .failure),
    ("Ok(".toList, .variant .ok), ("Err(".toList, .variant .err)]

def kindOf? (cs : List Char) : Option Kind :=
  if cs.head?.any isNumeral then some .int
  else (openings.find? fun opening => opening.1.isPrefixOf cs).map Prod.snd

theorem kindOf?_signedDecimal (n : Int) (rest : List Char) :
    kindOf? (signedDecimal n ++ rest) = some .int := by
  have hne : signedDecimal n ≠ [] := by
    unfold signedDecimal
    split
    · exact List.cons_ne_nil _ _
    · exact decimal_ne_nil _
  obtain ⟨c, cs, hcs⟩ := List.exists_cons_of_ne_nil hne
  have hc : isNumeral c = true := isNumeral_of_mem (n := n) (by simp [hcs])
  rw [hcs, kindOf?, List.cons_append, List.head?_cons, Option.any_some, if_pos hc]

theorem kindOf?_quoted (cs rest : List Char) : kindOf? (quoted cs ++ rest) = some .text := by
  rw [quoted]
  rcases isQuote_quoteFor cs with hq | hq <;> rw [hq] <;> rfl

theorem kindOf?_of_endsLiteral {rest : List Char} (h : EndsLiteral rest) : kindOf? rest = none := by
  cases rest with
  | nil => rfl
  | cons c rest =>
      rcases h c rfl with rfl | rfl | rfl | rfl | rfl <;> rfl

/-! ### Literals of each kind -/

def entryLiteral (e : Value × Value) : List Char := literal e.1 ++ ':' :: ' ' :: literal e.2

theorem literals_eq (items : List Value) : literals items = row literal items := by
  induction items with
  | nil => rfl
  | cons v rest ih =>
      cases rest with
      | nil => simp [literals, row, further]
      | cons w rest =>
          change literal v ++ ',' :: ' ' :: literals (w :: rest) = _
          rw [ih]
          simp [row, further]

theorem entryLiterals_eq (entries : Entries) :
    entryLiterals entries = row entryLiteral entries := by
  induction entries with
  | nil => rfl
  | cons e rest ih =>
      cases rest with
      | nil => simp [entryLiterals, row, further, entryLiteral]
      | cons f rest =>
          change entryLiteral e ++ ',' :: ' ' :: entryLiterals (f :: rest) = _
          rw [ih]
          simp [row, further]

def tupleEnd (items : List Value) : List Char := if items.length = 1 then ",)".toList else [')']

theorem literal_list (items : List Value) :
    literal (.list items) = '[' :: (row literal items ++ [']']) := by
  rw [← literals_eq]
  rfl

theorem literal_tuple (items : List Value) :
    literal (.tuple items) = '(' :: (row literal items ++ tupleEnd items) := by
  rw [← literals_eq]
  rcases items with _ | ⟨v, _ | ⟨w, items⟩⟩ <;> rfl

theorem literal_dictionary (entries : Entries) :
    literal (.dictionary entries) = '\x7b' :: (row entryLiteral entries ++ ['\x7d']) := by
  rw [← entryLiterals_eq]
  rfl

theorem literal_wrap (k : Variant) (v : Value) :
    literal (k.wrap v) = k.head.toList ++ '(' :: (literal v ++ [')']) := by
  have happlied : literal (k.wrap v) = applied k.head (literal v) := by cases k <;> rfl
  rw [happlied, applied, List.append_assoc, List.cons_append]

variable {v w : Value}

/-- **The first characters of a literal tell the kind** of its value. -/
theorem IsData.kindOf?_literal (h : IsData v) (rest : List Char) :
    kindOf? (literal v ++ rest) = v.kind? := by
  cases h with
  | absent => rfl
  | bool b => cases b <;> rfl
  | int n => exact kindOf?_signedDecimal n rest
  | text s => exact kindOf?_quoted s.toList rest
  | violation v =>
      change kindOf? (v.literal ++ rest) = _
      rw [Violation.literal_append]
      rfl
  | list => rw [literal_list]; rfl
  | tuple => rw [literal_tuple]; rfl
  | dictionary => rw [literal_dictionary]; rfl
  | variant k => rw [literal_wrap]; cases k <;> rfl

theorem IsData.isSome_kind? (h : IsData v) : v.kind?.isSome = true := by
  cases h with
  | variant k => rw [kind?_wrap]; rfl
  | _ => rfl

theorem IsData.not_endsLiteral (h : IsData v) (rest : List Char) :
    ¬EndsLiteral (literal v ++ rest) := by
  intro hends
  have hkind := h.isSome_kind?
  rw [← h.kindOf?_literal rest, kindOf?_of_endsLiteral hends] at hkind
  cases hkind

theorem IsData.kind?_eq (hv : IsData v) (hw : IsData w) {rest more : List Char}
    (h : literal v ++ rest = literal w ++ more) : v.kind? = w.kind? := by
  rw [← hv.kindOf?_literal rest, h, hw.kindOf?_literal]

/-! ### Each kind is told from its text -/

theorem determines_absent : Determines literal IsData .absent := by
  intro w rest more hw hr hm h
  have hkind := IsData.absent.kind?_eq hw h
  cases hw with
  | absent => exact ⟨rfl, List.append_cancel_left h⟩
  | variant k => cases k <;> cases hkind
  | _ => cases hkind

theorem determines_bool (b : Bool) : Determines literal IsData (.bool b) := by
  intro w rest more hw hr hm h
  have hkind := (IsData.bool b).kind?_eq hw h
  cases hw with
  | bool b' =>
      -- the first letters tell the two truth values apart
      have hhead := congrArg List.head? h
      cases b <;> cases b' <;>
        first
        | exact ⟨rfl, List.append_cancel_left h⟩
        | exact absurd (Option.some.inj hhead) (by decide)
  | variant k => cases k <;> cases hkind
  | _ => cases hkind

theorem determines_int (n : Int) : Determines literal IsData (.int n) := by
  intro w rest more hw hr hm h
  have hkind := (IsData.int n).kind?_eq hw h
  cases hw with
  | int m =>
      obtain ⟨hnumeral, hrest⟩ := append_inj_of_stop (fun _ => isNumeral_of_mem)
        (fun _ => isNumeral_of_mem) hr.isNumeral_eq_false hm.isNumeral_eq_false h
      exact ⟨congrArg int (signedDecimal_inj hnumeral), hrest⟩
  | variant k => cases k <;> cases hkind
  | _ => cases hkind

theorem determines_text (s : String) : Determines literal IsData (.text s) := by
  intro w rest more hw hr hm h
  have hkind := (IsData.text s).kind?_eq hw h
  cases hw with
  | text t =>
      obtain ⟨htext, hrest⟩ := quoted_append_inj h
      exact ⟨congrArg text (String.toList_inj.mp htext), hrest⟩
  | variant k => cases k <;> cases hkind
  | _ => cases hkind

theorem determines_violation (v : Violation) : Determines literal IsData (.violation v) := by
  intro w rest more hw hr hm h
  have hkind := (IsData.violation v).kind?_eq hw h
  cases hw with
  | violation u =>
      obtain ⟨hsame, hrest⟩ := Violation.literal_append_inj h
      exact ⟨congrArg violation hsame, hrest⟩
  | variant k => cases k <;> cases hkind
  | _ => cases hkind

theorem endsRow_tupleEnd (items : List Value) (rest : List Char) :
    EndsRow (tupleEnd items ++ rest) := by
  unfold tupleEnd
  split
  · exact ⟨endsLiteral_cons (by decide) _, nofun⟩
  · exact endsRow_bracket (by decide) rest

section

variable {items : List Value} (hitems : ∀ v ∈ items, IsData v)
  (hall : ∀ v ∈ items, Determines literal IsData v)
include hitems hall

theorem determines_list : Determines literal IsData (.list items) := by
  intro w rest more hw hr hm h
  have hkind := (IsData.list hitems).kind?_eq hw h
  cases hw with
  | list hothers =>
      simp only [literal_list, List.cons_append, List.append_assoc] at h
      obtain ⟨rfl, hrest⟩ := row_append_inj (fun _ hb => hb.not_endsLiteral)
        (fun v hv => ⟨hitems v hv, hall v hv⟩) hothers (endsRow_bracket (by decide) rest)
        (endsRow_bracket (by decide) more) (List.cons.inj h).2
      exact ⟨rfl, (List.cons.inj hrest).2⟩
  | variant k => cases k <;> cases hkind
  | _ => cases hkind

theorem determines_tuple : Determines literal IsData (.tuple items) := by
  intro w rest more hw hr hm h
  have hkind := (IsData.tuple hitems).kind?_eq hw h
  cases hw with
  | tuple hothers =>
      simp only [literal_tuple, List.cons_append, List.append_assoc] at h
      obtain ⟨rfl, hrest⟩ := row_append_inj (fun _ hb => hb.not_endsLiteral)
        (fun v hv => ⟨hitems v hv, hall v hv⟩) hothers (endsRow_tupleEnd items rest)
        (endsRow_tupleEnd _ more) (List.cons.inj h).2
      exact ⟨rfl, List.append_cancel_left hrest⟩
  | variant k => cases k <;> cases hkind
  | _ => cases hkind

end

def IsDataEntry (e : Value × Value) : Prop := IsData e.1 ∧ IsData e.2

theorem entryLiteral_append (e : Value × Value) (rest : List Char) :
    entryLiteral e ++ rest = literal e.1 ++ (':' :: ' ' :: (literal e.2 ++ rest)) := by
  simp [entryLiteral]

/-- An entry is told from its text as its key and its content are. -/
theorem determines_entry {e : Value × Value} (hkey : Determines literal IsData e.1)
    (hcontent : Determines literal IsData e.2) : Determines entryLiteral IsDataEntry e := by
  intro f rest more hf hr hm h
  rw [entryLiteral_append, entryLiteral_append] at h
  obtain ⟨hkeys, hbehind⟩ :=
    hkey hf.1 (endsLiteral_cons (by decide) _) (endsLiteral_cons (by decide) _) h
  obtain ⟨hcontents, hrest⟩ := hcontent hf.2 hr hm (List.cons.inj (List.cons.inj hbehind).2).2
  exact ⟨Prod.ext hkeys hcontents, hrest⟩

theorem determines_dictionary {entries : Entries} (hdata : ∀ e ∈ entries, IsDataEntry e)
    (hdiffer : KeysDiffer entries) (hkeys : ∀ e ∈ entries, Determines literal IsData e.1)
    (hcontents : ∀ e ∈ entries, Determines literal IsData e.2) :
    Determines literal IsData (.dictionary entries) := by
  intro w rest more hw hr hm h
  have hdictionary : IsData (.dictionary entries) :=
    .dictionary (fun e he => (hdata e he).1) (fun e he => (hdata e he).2) hdiffer
  have hkind := hdictionary.kind?_eq hw h
  cases hw with
  | dictionary hothers hothers' =>
      simp only [literal_dictionary, List.cons_append, List.append_assoc] at h
      have hopen : ∀ f, IsDataEntry f → ∀ cs, ¬EndsLiteral (entryLiteral f ++ cs) := by
        intro f hf cs
        rw [entryLiteral_append]
        exact hf.1.not_endsLiteral _
      obtain ⟨rfl, hrest⟩ := row_append_inj hopen
        (fun e he => ⟨hdata e he, determines_entry (hkeys e he) (hcontents e he)⟩)
        (fun f hf => ⟨hothers f hf, hothers' f hf⟩) (endsRow_bracket (by decide) rest)
        (endsRow_bracket (by decide) more) (List.cons.inj h).2
      exact ⟨rfl, (List.cons.inj hrest).2⟩
  | variant k => cases k <;> cases hkind
  | _ => cases hkind

theorem determines_wrap (k : Variant) {v : Value} (hdata : IsData v)
    (hv : Determines literal IsData v) : Determines literal IsData (k.wrap v) := by
  intro w rest more hw hr hm h
  have hkind := (hdata.variant k).kind?_eq hw h
  rw [kind?_wrap] at hkind
  cases hw with
  | variant l hu =>
      rw [kind?_wrap] at hkind
      cases hkind
      simp only [literal_wrap, List.cons_append, List.append_assoc] at h
      have hpayload := (List.cons.inj (List.append_cancel_left h)).2
      obtain ⟨rfl, hrest⟩ :=
        hv hu (endsLiteral_cons (by decide) _) (endsLiteral_cons (by decide) _) hpayload
      exact ⟨rfl, (List.cons.inj hrest).2⟩
  | _ => cases hkind

/-- **The literal of data tells where it ends and which value it writes.** -/
theorem IsData.determines (h : IsData v) : Determines literal IsData v := by
  induction h with
  | absent => exact determines_absent
  | bool b => exact determines_bool b
  | int n => exact determines_int n
  | text s => exact determines_text s
  | violation v => exact determines_violation v
  | list hitems ih => exact determines_list hitems ih
  | tuple hitems ih => exact determines_tuple hitems ih
  | dictionary hkeys hcontents hdiffer ih ih' =>
      exact determines_dictionary (fun e he => ⟨hkeys e he, hcontents e he⟩) hdiffer ih ih'
  | variant k hdata ih => exact determines_wrap k hdata ih

/-! ### Printable literals -/

theorem printable_tupleEnd (items : List Value) : Printable (tupleEnd items) := by
  unfold tupleEnd
  split <;> decide

theorem printable_entryLiteral {e : Value × Value} (hkey : Printable (literal e.1))
    (hcontent : Printable (literal e.2)) : Printable (entryLiteral e) := by
  simp only [entryLiteral, printable_append, printable_cons]
  exact ⟨hkey, rfl, rfl, hcontent⟩

/-- **Literals of data are printable**, whatever texts the data hold. -/
theorem IsData.printable_literal (h : IsData v) : Printable v.literal := by
  induction h with
  | absent => decide
  | bool b => cases b <;> decide
  | int n => exact printable_signedDecimal n
  | text s => exact printable_quoted s.toList
  | violation v => exact v.printable_literal
  | list _ ih =>
      rw [literal_list, printable_cons, printable_append]
      exact ⟨rfl, printable_row ih, by decide⟩
  | tuple _ ih =>
      rw [literal_tuple, printable_cons, printable_append]
      exact ⟨rfl, printable_row ih, printable_tupleEnd _⟩
  | dictionary _ _ _ ih ih' =>
      rw [literal_dictionary, printable_cons, printable_append]
      exact ⟨rfl, printable_row fun e he => printable_entryLiteral (ih e he) (ih' e he), by decide⟩
  | variant k _ ih =>
      have hhead : Printable k.head.toList := by cases k <;> decide
      rw [literal_wrap, printable_append, printable_cons, printable_append]
      exact ⟨hhead, rfl, ih, by decide⟩

/-! ### The function that writes literals -/

theorem apply_literal (call : Calls) (v : Value) (s : Store) :
    Callback.literal.apply call [v] s =
      if v.isWritable then .ok (.text v.toLiteral) s else .error .numberTooLong s := by
  change (Callback.written toLiteral v >>= fun literal => return text literal) s = _
  rw [Callback.written, written_eq]
  cases v.isWritable <;> rfl

/-- **Literals are unambiguous.**  Two values that are put together from nothing, truth values,
numbers, texts, violations, lists, tuples, dictionaries and the four variants have the same literal
only if they are the same value, with the same entries of dictionaries in the same order.  Whatever
texts the value holds, its literal has no control character in it and none that ends a line.  This
literal is what the function for it gives, unless a number is too long to be written out. -/
theorem literal_tells_value {v w : Value} (hv : IsData v) (hw : IsData w) :
    (v.toLiteral = w.toLiteral ↔ v = w) ∧
      (∀ c ∈ v.toLiteral.toList, ¬IsControl c ∧ ¬BreaksLine c) ∧
      ∀ (call : Calls) (s : Store), Callback.literal.apply call [v] s =
        if v.isWritable then .ok (.text v.toLiteral) s else .error .numberTooLong s := by
  refine ⟨⟨fun h => ?_, congrArg toLiteral⟩, fun c hc => ?_, fun call s => apply_literal call v s⟩
  · have hsame : literal v ++ [] = literal w ++ [] := by
      rw [String.ofList_injective h]
    exact (hv.determines hw endsLiteral_nil endsLiteral_nil hsame).1
  · rw [toLiteral, String.toList_ofList] at hc
    have hprintable := hv.printable_literal c hc
    exact ⟨not_isControl_of_isPrintable hprintable, not_breaksLine_of_isPrintable hprintable⟩

/-- A violation and a text that reads like one, each the error in a tuple of one. -/
theorem literal_tells_value_lookalike :
    let v : Value := .tuple [.failure (.violation ⟨"age", "two\nlines", none⟩)]
    let w : Value :=
      .tuple [.failure (.text "Violation(field='age', message='two\\nlines', code=None)")]
    IsData v ∧ IsData w ∧
      v.toLiteral = "(Failure(Violation(field='age', message='two\\nlines', code=None)),)" ∧
      w.toLiteral =
        "(Failure(\x22Violation(field='age', message='two\\\\nlines', code=None)\x22),)" ∧
      v.toLiteral ≠ w.toLiteral ∧ ∀ c ∈ v.toLiteral.toList, ¬IsControl c ∧ ¬BreaksLine c := by
  intro v w
  have hv : IsData v :=
    .tuple (List.forall_mem_singleton.mpr (.variant .failure (.violation _)))
  have hw : IsData w :=
    .tuple (List.forall_mem_singleton.mpr (.variant .failure (.text _)))
  obtain ⟨hiff, hclear, -⟩ := literal_tells_value hv hw
  have hne : v ≠ w := by simp [v, w]
  exact ⟨hv, hw, by decide +kernel, by decide +kernel, fun h => hne (hiff.mp h), hclear⟩

end Value

end Accrual
