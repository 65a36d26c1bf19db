import Accrual.Json.Printer
import Accrual.Proofs.Lines.Printable
import Accrual.Text.Blank

/-!
# Texts of one line

A text of one line holds no line feed.  Printable texts are of one line, and so
is the printed form of any structured data, whatever texts it is made from
(`oneLine_print`): a line feed in a text is always escaped.
-/

namespace Accrual

namespace Text

def OneLine (cs : List Char) : Prop := '\n' ∉ cs

instance (cs : List Char) : Decidable (OneLine cs) := inferInstanceAs (Decidable ('\n' ∉ cs))

@[simp] theorem oneLine_nil : OneLine [] := List.not_mem_nil

@[simp] theorem oneLine_cons {c : Char} {cs : List Char} :
    OneLine (c :: cs) ↔ c ≠ '\n' ∧ OneLine cs := by
  simp [OneLine, eq_comm]

@[simp] theorem oneLine_append {cs ds : List Char} :
    OneLine (cs ++ ds) ↔ OneLine cs ∧ OneLine ds := by
  simp [OneLine]

theorem oneLine_flatMap {f : Char → List Char} (h : ∀ c, OneLine (f c)) (cs : List Char) :
    OneLine (cs.flatMap f) := by
  induction cs with
  | nil => exact oneLine_nil
  | cons c rest ih => exact oneLine_append.mpr ⟨h c, ih⟩

theorem oneLine_intercalate {separator : List Char} (hs : OneLine separator)
    {parts : List (List Char)} (h : ∀ part ∈ parts, OneLine part) :
    OneLine (separator.intercalate parts) := by
  induction parts with
  | nil => exact oneLine_nil
  | cons part rest ih =>
      obtain ⟨hpart, hrest⟩ := List.forall_mem_cons.mp h
      cases rest with
      | nil => simpa using hpart
      | cons next rest =>
          rw [List.intercalate_cons_cons]
          simp only [oneLine_append]
          exact ⟨⟨hpart, hs⟩, ih hrest⟩

/-- What is left of a text of one line is of one line. -/
theorem OneLine.of_subset {cs ds : List Char} (h : OneLine ds) (hs : cs ⊆ ds) : OneLine cs :=
  fun hc => h (hs hc)

/-! ### Numerals and quoted texts -/

/-- A printable text is of one line, for the line feed is not printable. -/
theorem Printable.oneLine {cs : List Char} (h : Printable cs) : OneLine cs :=
  fun hc => absurd (h '\n' hc) (by decide)

theorem oneLine_decimal (n : Nat) : OneLine (decimal n) := (printable_decimal n).oneLine

theorem oneLine_signedDecimal (n : Int) : OneLine (signedDecimal n) :=
  (printable_signedDecimal n).oneLine

theorem oneLine_hexadecimal (width n : Nat) : OneLine (hexadecimal width n) :=
  (printable_hexadecimal width n).oneLine

/-- **A quoted text is of one line.** -/
theorem oneLine_quoted (cs : List Char) : OneLine (quoted cs) := (printable_quoted cs).oneLine

theorem oneLine_replicate_zero (n : Nat) : OneLine (List.replicate n '0') := by
  intro hm
  exact absurd (List.eq_of_mem_replicate hm) (by decide)

theorem oneLine_padded {cs : List Char} (h : OneLine cs) (width : Nat) :
    OneLine (padded width cs) :=
  oneLine_append.mpr ⟨oneLine_replicate_zero _, h⟩

/-! ### Numbers with places -/

theorem oneLine_positional {digits : List Char} (h : OneLine digits) (whole : Int) :
    OneLine (positional digits whole) := by
  unfold positional
  split
  · simp [h, oneLine_replicate_zero]
  · have htake := h.of_subset (List.take_subset whole.toNat digits)
    have hdrop := h.of_subset (List.drop_subset whole.toNat digits)
    dsimp only
    split <;> simp [htake, hdrop, oneLine_replicate_zero]

theorem oneLine_scientific {digits exponent : List Char} (h : OneLine digits)
    (he : OneLine exponent) : OneLine (scientific digits exponent) := by
  have htake := h.of_subset (List.take_subset 1 digits)
  have htail := h.of_subset (List.tail_sublist digits).subset
  unfold scientific
  split <;> simp [htake, htail, he]

theorem oneLine_signedExponent (width : Nat) (n : Int) : OneLine (signedExponent width n) := by
  unfold signedExponent
  split <;> simp [oneLine_padded (oneLine_decimal _)]

theorem oneLine_withPlaces {how : PlacesNotation} (h : ∀ n, OneLine (how.exponent n))
    (mantissa exponent : Int) : OneLine (withPlaces how mantissa exponent) := by
  have hdigits : OneLine ((decimal mantissa.natAbs).reverse.dropWhile (· == '0')).reverse := by
    refine (oneLine_decimal mantissa.natAbs).of_subset fun c hc => ?_
    have hdrop := (List.dropWhile_sublist _).subset (List.mem_reverse.mp hc)
    exact List.mem_reverse.mp hdrop
  have hsign : OneLine (if mantissa < 0 then ['-'] else []) := by split <;> decide
  unfold withPlaces
  refine oneLine_append.mpr ⟨hsign, ?_⟩
  split
  · decide
  · split
    · exact oneLine_positional hdigits _
    · exact oneLine_scientific hdigits (h _)

/-- A text without blanks is of one line, for the line feed is one. -/
theorem oneLine_of_no_blank {cs : List Char} (h : cs.any isBlank = false) : OneLine cs := by
  intro hm
  have hblank := List.any_eq_false.mp h _ hm
  exact absurd (by decide : isBlank '\n' = true) hblank

end Text

/-! ### Structured data -/

namespace Json

open Text

theorem oneLine_escapeChar (c : Char) : OneLine (escapeChar c) := by
  unfold escapeChar
  split
  next h =>
    have hc : c ≠ '\n' := by
      rintro rfl
      exact absurd h (by decide)
    simp [hc]
  next h =>
    have hc : c ≠ '\n' := by
      rintro rfl
      exact absurd h (by decide)
    simp [hc]
  · decide
  · decide
  · decide
  · decide
  · decide
  next hfeed _ _ =>
    have hc : c ≠ '\n' := by
      rintro rfl
      exact hfeed (by decide)
    split <;> simp [hc, oneLine_hexadecimal]

theorem oneLine_printText (s : String) : OneLine (printText s) := by
  simp [printText, oneLine_flatMap oneLine_escapeChar]

theorem oneLine_printNonFinite (sign infinite : Bool) :
    OneLine (printNonFinite sign infinite) := by
  cases sign <;> cases infinite <;> decide

mutual

/-- **Printed data is of one line.** -/
theorem oneLine_print (j : Json) : OneLine j.print :=
  match j with
  | null => by decide
  | bool b => by cases b <;> decide
  | int n => oneLine_signedDecimal n
  | real mantissa exponent => oneLine_withPlaces (oneLine_signedExponent 1) mantissa exponent
  | nonFinite sign infinite => oneLine_printNonFinite sign infinite
  | text s => oneLine_printText s
  | brokenText => by decide
  | array items => by
      have hitems := oneLine_printItems items
      simp [print, hitems]
  | object fields => by
      have hfields := oneLine_printFields fields
      simp [print, hfields]
termination_by structural j

theorem oneLine_printItems (items : List Json) : OneLine (printItems items) :=
  match items with
  | [] => oneLine_nil
  | [item] => oneLine_print item
  | item :: next :: rest => by
      have hitem := oneLine_print item
      have hrest := oneLine_printItems (next :: rest)
      simp [printItems, hitem, hrest]
termination_by structural items

theorem oneLine_printFields (fields : List (String × Json)) : OneLine (printFields fields) :=
  match fields with
  | [] => oneLine_nil
  | [(name, content)] => by
      have hcontent := oneLine_print content
      simp [printFields, oneLine_printText, hcontent]
  | (name, content) :: next :: rest => by
      have hcontent := oneLine_print content
      have hrest := oneLine_printFields (next :: rest)
      simp [printFields, oneLine_printText, hcontent, hrest]
termination_by structural fields

end

end Json

end Accrual
