import Accrual.Json.Parser
import Accrual.Json.Printer

/-!
# Printed texts and numbers are read back

A reader takes a printed text or number from the front of whatever follows it,
and leaves what follows untouched.  A text ends at its own quote, for every
quote inside it is escaped (`text?_escaped`).  A number ends where a list or an
object goes on or closes (`Closes`); an integer is read back as it was
(`number?_signedDecimal`), and a number with places as some number with places
(`number?_withPlaces`).
-/

namespace Accrual.Json

open Text

/-! ### Texts -/

theorem hexDigit?_digitChar {d : Nat} (h : d < 16) : hexDigit? d.digitChar = some d :=
  (by decide : ∀ d < 16, hexDigit? d.digitChar = some d) d h

/-- The characters below the space have two digits at most. -/
theorem hexadecimal_control {n : Nat} (h : n < 0x20) :
    hexadecimal 4 n = ['0', '0', (n / 16).digitChar, (n % 16).digitChar] :=
  (by decide : ∀ n < 0x20,
    hexadecimal 4 n = ['0', '0', (n / 16).digitChar, (n % 16).digitChar]) n h

theorem numericEscape?_control {c : Char} (h : c.toNat < 0x20) (rest : List Char) :
    numericEscape? (hexadecimal 4 c.toNat ++ rest) = some (some c, rest) := by
  have hzero : hexDigit? '0' = some 0 := rfl
  have hhigh := hexDigit?_digitChar (show c.toNat / 16 < 16 by omega)
  have hlow := hexDigit?_digitChar (show c.toNat % 16 < 16 by omega)
  have hfour : hexFour? (hexadecimal 4 c.toNat ++ rest) = some (c.toNat, rest) := by
    rw [hexadecimal_control h]
    simp only [List.cons_append, List.nil_append, hexFour?, hzero, hhigh, hlow, Option.bind_eq_bind,
      Option.bind_some, Option.some.injEq, Prod.mk.injEq, and_true]
    omega
  have hhalf : isHighHalf c.toNat = false ∧ isLowHalf c.toNat = false := by
    simp only [isHighHalf, isLowHalf, Bool.and_eq_false_iff, decide_eq_false_iff_not]
    omega
  simp only [numericEscape?, hfour, hhalf, Option.bind_eq_bind, Option.bind_some,
    Bool.false_eq_true, if_false, Char.ofNat_toNat]

/-- **Each escape is read back** as its character, whatever follows. -/
theorem textBody?_escapeChar (c : Char) (bound : Nat) (rest : List Char) :
    textBody? (bound + 1) (escapeChar c ++ rest) =
      (textBody? bound rest).bind fun read => some (some c :: read.1, read.2) := by
  unfold escapeChar
  split
  next h =>
    obtain rfl : c = '\x22' := Char.toNat_inj.mp h
    rfl
  next h =>
    obtain rfl : c = '\\' := Char.toNat_inj.mp h
    rfl
  next h =>
    obtain rfl : c = '\x08' := Char.toNat_inj.mp h
    rfl
  next h =>
    obtain rfl : c = '\t' := Char.toNat_inj.mp h
    rfl
  next h =>
    obtain rfl : c = '\n' := Char.toNat_inj.mp h
    rfl
  next h =>
    obtain rfl : c = '\x0c' := Char.toNat_inj.mp h
    rfl
  next h =>
    obtain rfl : c = '\r' := Char.toNat_inj.mp h
    rfl
  next hquote hbackslash _ _ _ _ _ =>
    split
    next h =>
      have hescape : escape? ('u' :: (hexadecimal 4 c.toNat ++ rest)) = some (some c, rest) :=
        numericEscape?_control h rest
      rw [List.cons_append, List.cons_append, textBody?, if_neg (by decide), if_pos rfl, hescape]
      rfl
    next h =>
      have hne : c ≠ '\x22' ∧ c ≠ '\\' := by
        constructor <;> rintro rfl
        · exact hquote rfl
        · exact hbackslash rfl
      rw [List.singleton_append, textBody?, if_neg hne.1, if_neg hne.2, if_neg h]
      rfl

theorem escapeChar_ne_nil (c : Char) : escapeChar c ≠ [] := by
  unfold escapeChar
  split <;> first | exact List.cons_ne_nil _ _ | (split <;> exact List.cons_ne_nil _ _)

theorem length_le_length_flatMap_escapeChar (cs : List Char) :
    cs.length ≤ (cs.flatMap escapeChar).length := by
  induction cs with
  | nil => exact Nat.le_refl 0
  | cons c cs ih =>
      have hc := List.length_pos_iff.mpr (escapeChar_ne_nil c)
      rw [List.flatMap_cons, List.length_append, List.length_cons]
      omega

theorem textBody?_escaped (cs rest : List Char) {bound : Nat} (h : cs.length < bound) :
    textBody? bound (cs.flatMap escapeChar ++ '\x22' :: rest) = some (cs.map some, rest) := by
  induction cs generalizing bound with
  | nil =>
      obtain ⟨bound, rfl⟩ := Nat.exists_eq_add_of_lt h
      rfl
  | cons c cs ih =>
      rw [List.length_cons] at h
      obtain ⟨bound, rfl⟩ : ∃ b, bound = b + 1 := ⟨bound - 1, by omega⟩
      rw [List.flatMap_cons, List.append_assoc, textBody?_escapeChar, ih (by omega)]
      rfl

/-- **A printed text is read back**, and what follows it is left. -/
theorem text?_escaped (s : String) (rest : List Char) :
    text? (s.toList.flatMap escapeChar ++ '\x22' :: rest) = some (some s, rest) := by
  have hlength : s.toList.length < (s.toList.flatMap escapeChar ++ '\x22' :: rest).length + 1 := by
    have hescaped := length_le_length_flatMap_escapeChar s.toList
    rw [List.length_append]
    omega
  have hall : (s.toList.map some).mapM id = some s.toList := by
    rw [List.mapM_map]
    exact List.mapM_pure.trans (congrArg some (List.map_id' s.toList))
  rw [text?, textBody?_escaped s.toList rest hlength]
  simp [hall]

/-! ### Digits -/

def EndsDigits (rest : List Char) : Prop := ∀ c, rest.head? = some c → c.isDigit = false

/-- A value ends here: the list or the object that it stands in goes on or closes, or there is
nothing more. -/
def Closes (rest : List Char) : Prop := ∀ c, rest.head? = some c → c = ',' ∨ c = ']' ∨ c = '\x7d'

theorem closes_nil : Closes [] := nofun

theorem closes_comma (rest : List Char) : Closes (',' :: rest) := fun _ h => .inl (by cases h; rfl)

theorem closes_bracket (rest : List Char) : Closes (']' :: rest) :=
  fun _ h => .inr (.inl (by cases h; rfl))

theorem closes_brace (rest : List Char) : Closes ('\x7d' :: rest) :=
  fun _ h => .inr (.inr (by cases h; rfl))

theorem Closes.endsDigits {rest : List Char} (h : Closes rest) : EndsDigits rest := by
  intro c hc
  obtain rfl | rfl | rfl := h c hc <;> decide

theorem digits_append {ds rest : List Char} (hd : ∀ c ∈ ds, c.isDigit) (hr : EndsDigits rest) :
    digits (ds ++ rest) = (ds, rest) := by
  rw [digits, List.takeWhile_append_of_pos hd, List.dropWhile_append_of_pos hd]
  cases rest with
  | nil => rw [List.takeWhile_nil, List.append_nil, List.dropWhile_nil]
  | cons c rest =>
      have hc := hr c rfl
      rw [List.takeWhile_cons_of_neg (by simp [hc]), List.dropWhile_cons_of_neg (by simp [hc]),
        List.append_nil]

def IsLeading (ds : List Char) : Prop :=
  ∃ c cs, ds = c :: cs ∧ c ≠ '0' ∧ c.isDigit ∧ ∀ d ∈ cs, d.isDigit

/-- The digits that can stand before a point: a zero alone, or digits that start with another
one. -/
def IsWhole (ds : List Char) : Prop := ds = ['0'] ∨ IsLeading ds

theorem IsWhole.isDigit {ds : List Char} (h : IsWhole ds) : ∀ c ∈ ds, c.isDigit := by
  obtain rfl | ⟨c, cs, rfl, -, hc, hcs⟩ := h
  · exact List.forall_mem_singleton.mpr rfl
  · exact List.forall_mem_cons.mpr ⟨hc, hcs⟩

theorem toDigits_head {n : Nat} (h : 0 < n) : ∃ c cs, Nat.toDigits 10 n = c :: cs ∧ c ≠ '0' := by
  induction n using Nat.strongRecOn with
  | ind n ih =>
      by_cases hn : n < 10
      · refine ⟨n.digitChar, [], Nat.toDigits_of_lt_base hn, ?_⟩
        rw [ne_eq, Nat.digitChar_eq_zero]
        omega
      · obtain ⟨c, cs, hdigits, hc⟩ := ih (n / 10) (by omega) (by omega)
        rw [Nat.toDigits_of_base_le (by decide) (by omega), hdigits]
        exact ⟨c, _, rfl, hc⟩

theorem isLeading_decimal {n : Nat} (h : 0 < n) : IsLeading (decimal n) := by
  obtain ⟨c, cs, hdigits, hc⟩ := toDigits_head h
  have hdecimal : decimal n = c :: cs := hdigits
  have hall : ∀ d ∈ c :: cs, d.isDigit := fun d hd => isDigit_of_mem_decimal (hdecimal ▸ hd)
  obtain ⟨hdigit, hcs⟩ := List.forall_mem_cons.mp hall
  exact ⟨c, cs, hdecimal, hc, hdigit, hcs⟩

theorem isWhole_decimal (n : Nat) : IsWhole (decimal n) := by
  obtain rfl | hn := Nat.eq_zero_or_pos n
  · exact .inl rfl
  · exact .inr (isLeading_decimal hn)

theorem wholePart?_append {ds rest : List Char} (h : IsWhole ds) (hr : EndsDigits rest) :
    wholePart? (ds ++ rest) = some (ds, rest) := by
  have hdigits := digits_append h.isDigit hr
  obtain rfl | ⟨c, cs, rfl, hc, -, -⟩ := h
  · rfl
  · unfold wholePart?
    split
    next heq => exact absurd (List.cons.inj heq).1 hc
    next =>
      rw [hdigits]
      rfl

/-! ### Numbers -/

theorem places_of_closes {rest : List Char} (h : Closes rest) : places rest = ([], rest) := by
  unfold places
  split
  next => exact absurd (h '.' rfl) (by decide)
  next => rfl

theorem exponentPart?_of_closes {rest : List Char} (h : Closes rest) :
    exponentPart? rest = none := by
  cases rest with
  | nil => rfl
  | cons c rest =>
      have hmark : ¬(c = 'e' ∨ c = 'E') := by
        obtain rfl | rfl | rfl := h c rfl <;> decide
      simp only [exponentPart?, hmark, false_and, if_false]

def signed (negative : Bool) (n : Nat) : Int := if negative then -n else n

theorem unsignedNumber?_decimal (negative : Bool) {n : Nat} (hn : (decimal n).length ≤ 4300)
    {rest : List Char} (h : Closes rest) :
    unsignedNumber? negative (decimal n ++ rest) = some (int (signed negative n), rest) := by
  simp only [unsignedNumber?, wholePart?_append (isWhole_decimal n) h.endsDigits,
    Option.bind_eq_bind, Option.bind_some, places_of_closes h, exponentPart?_of_closes h, hn,
    if_true, ofDecimal_decimal]
  rfl

/-- A text that starts with a digit has no sign. -/
theorem number?_of_digit {c : Char} (hc : c.isDigit) (cs : List Char) :
    number? (c :: cs) = unsignedNumber? false (c :: cs) := by
  have hminus : c ≠ '-' := by
    rintro rfl
    exact absurd hc (by decide)
  unfold number?
  split
  next heq => exact absurd (List.cons.inj heq).1 hminus
  next heq => exact absurd (List.cons.inj heq).1 hminus
  next => rfl

theorem number?_of_minus {c : Char} (hc : c.isDigit) (cs : List Char) :
    number? ('-' :: c :: cs) = unsignedNumber? true (c :: cs) := by
  have hinfinity : c ≠ 'I' := by
    rintro rfl
    exact absurd hc (by decide)
  unfold number?
  split
  next heq => exact absurd (List.cons.inj (List.cons.inj heq).2).1 hinfinity
  next heq =>
    obtain rfl := (List.cons.inj heq).2
    rfl
  next _ hminus => exact absurd rfl (hminus _)

theorem IsWhole.exists_cons {ds : List Char} (h : IsWhole ds) :
    ∃ c cs, ds = c :: cs ∧ c.isDigit := by
  obtain rfl | ⟨c, cs, rfl, -, hc, -⟩ := h
  · exact ⟨'0', [], rfl, rfl⟩
  · exact ⟨c, cs, rfl, hc⟩

def minus (negative : Bool) : List Char := if negative then ['-'] else []

theorem number?_append (negative : Bool) {whole : List Char} (h : IsWhole whole)
    (rest : List Char) :
    number? (minus negative ++ (whole ++ rest)) = unsignedNumber? negative (whole ++ rest) := by
  obtain ⟨c, cs, rfl, hc⟩ := h.exists_cons
  cases negative with
  | true => exact number?_of_minus hc _
  | false => exact number?_of_digit hc _

/-- **A printed integer is read back.** -/
theorem number?_signedDecimal {n : Int} (hn : (decimal n.natAbs).length ≤ 4300) {rest : List Char}
    (h : Closes rest) : number? (signedDecimal n ++ rest) = some (int n, rest) := by
  have hprinted : signedDecimal n ++ rest =
      minus (decide (n < 0)) ++ (decimal n.natAbs ++ rest) := by
    unfold signedDecimal minus
    by_cases hsign : n < 0 <;> simp [hsign]
  have hsigned : signed (decide (n < 0)) n.natAbs = n := by
    unfold signed
    by_cases hsign : n < 0 <;> simp only [hsign, decide_true, decide_false, if_true, if_false,
      Bool.false_eq_true] <;> omega
  rw [hprinted, number?_append _ (isWhole_decimal _), unsignedNumber?_decimal _ hn h, hsigned]

/-! ### Numbers with places -/

theorem isDigit_zeros (n : Nat) : ∀ c ∈ List.replicate n '0', c.isDigit := by
  intro c hc
  rw [List.eq_of_mem_replicate hc]
  decide

theorem exponentPart?_signedExponent (width : Nat) (n : Int) :
    ∃ k, ∀ rest, Closes rest →
      exponentPart? ('e' :: (signedExponent width n ++ rest)) = some (k, rest) := by
  have hall : ∀ c ∈ padded width (decimal n.natAbs), c.isDigit := by
    rw [padded]
    exact List.forall_mem_append.mpr ⟨isDigit_zeros _, fun c hc => isDigit_of_mem_decimal hc⟩
  have hne : padded width (decimal n.natAbs) ≠ [] := by
    rw [padded]
    exact List.append_ne_nil_of_right_ne_nil _ (decimal_ne_nil _)
  let size : Int := ofDecimal (padded width (decimal n.natAbs))
  refine ⟨if n < 0 then -size else size, fun rest h => ?_⟩
  have hdigits := digits_append hall h.endsDigits
  unfold signedExponent
  by_cases hsign : n < 0
  · simp [hsign, exponentPart?, hdigits, hne, size]
  · simp [hsign, exponentPart?, hdigits, hne, size]

theorem places_point {fraction rest : List Char} (hf : fraction ≠ [])
    (hd : ∀ c ∈ fraction, c.isDigit) (hr : EndsDigits rest) :
    places ('.' :: (fraction ++ rest)) = (fraction, rest) := by
  have hdigits := digits_append hd hr
  simp [places, hdigits, hf]

section

variable {negative : Bool} {cs whole fraction next rest : List Char}
  (hw : wholePart? cs = some (whole, next)) (hp : places next = (fraction, rest))
include hw hp

theorem unsignedNumber?_point (hf : fraction ≠ []) (he : exponentPart? rest = none) :
    unsignedNumber? negative cs =
      some (real (signed negative (ofDecimal (whole ++ fraction))) (-fraction.length), rest) := by
  obtain ⟨c, ds, rfl⟩ := List.exists_cons_of_ne_nil hf
  simp only [unsignedNumber?, hw, hp, he, Option.bind_eq_bind, Option.bind_some]
  rfl

theorem unsignedNumber?_exponent {k : Int} {more : List Char}
    (he : exponentPart? rest = some (k, more)) :
    unsignedNumber? negative cs = some
      (real (signed negative (ofDecimal (whole ++ fraction))) (k - fraction.length), more) := by
  cases fraction <;>
  · simp only [unsignedNumber?, hw, hp, he, Option.bind_eq_bind, Option.bind_some]
    rfl

end

/-- The text of a number with places, less its sign: it starts with the digits before the point, and
is read back as some number with places. -/
def IsReal (cs : List Char) : Prop :=
  (∃ whole more, cs = whole ++ more ∧ IsWhole whole) ∧
    ∀ negative, ∃ m e, ∀ rest, Closes rest →
      unsignedNumber? negative (cs ++ rest) = some (real m e, rest)

theorem isReal_point {whole fraction : List Char} (hw : IsWhole whole) (hf : fraction ≠ [])
    (hd : ∀ c ∈ fraction, c.isDigit) : IsReal (whole ++ '.' :: fraction) := by
  refine ⟨⟨whole, _, rfl, hw⟩, fun negative =>
    ⟨signed negative (ofDecimal (whole ++ fraction)), -fraction.length, fun rest h => ?_⟩⟩
  have hpoint : EndsDigits ('.' :: (fraction ++ rest)) := by
    rintro c ⟨⟩
    decide
  rw [List.append_assoc, List.cons_append]
  exact unsignedNumber?_point (wholePart?_append hw hpoint) (places_point hf hd h.endsDigits) hf
    (exponentPart?_of_closes h)

theorem isReal_scientific {ds : List Char} (h : IsLeading ds) (width : Nat) (n : Int) :
    IsReal (scientific ds (signedExponent width n)) := by
  obtain ⟨c, cs, rfl, hne, hc, hcs⟩ := h
  obtain ⟨k, hk⟩ := exponentPart?_signedExponent width n
  have hw : IsWhole [c] := .inr ⟨c, [], rfl, hne, hc, nofun⟩
  refine ⟨⟨[c], _, List.append_assoc [c] _ _, hw⟩, fun negative =>
    ⟨signed negative (ofDecimal ([c] ++ cs)), k - cs.length, fun rest hr => ?_⟩⟩
  have hmark : EndsDigits ('e' :: (signedExponent width n ++ rest)) := by
    rintro c ⟨⟩
    decide
  cases cs with
  | nil =>
      have hp : places ('e' :: (signedExponent width n ++ rest)) = ([], _) := rfl
      exact unsignedNumber?_exponent (wholePart?_append hw hmark) hp (hk rest hr)
  | cons d ds =>
      have hpoint : EndsDigits ('.' :: (d :: ds ++ 'e' :: (signedExponent width n ++ rest))) := by
        rintro c ⟨⟩
        decide
      have htext : scientific (c :: d :: ds) (signedExponent width n) ++ rest =
          [c] ++ '.' :: (d :: ds ++ 'e' :: (signedExponent width n ++ rest)) := by
        simp [scientific]
      rw [htext]
      exact unsignedNumber?_exponent (wholePart?_append hw hpoint)
        (places_point (List.cons_ne_nil d ds) hcs hmark) (hk rest hr)

theorem isReal_positional {ds : List Char} (h : IsLeading ds) (whole : Int) :
    IsReal (positional ds whole) := by
  have hds : ∀ c ∈ ds, c.isDigit := IsWhole.isDigit (.inr h)
  have hne : ds ≠ [] := by
    obtain ⟨c, cs, rfl, -⟩ := h
    exact List.cons_ne_nil c cs
  unfold positional
  split
  · exact isReal_point (.inl rfl) (List.append_ne_nil_of_right_ne_nil _ hne)
      (List.forall_mem_append.mpr ⟨isDigit_zeros _, hds⟩)
  next hwhole =>
    obtain ⟨n, hn⟩ : ∃ n, whole.toNat = n + 1 := ⟨whole.toNat - 1, by omega⟩
    have hbefore :
        IsWhole (ds.take whole.toNat ++ List.replicate (whole.toNat - ds.length) '0') := by
      obtain ⟨c, cs, rfl, hzero, hc, hcs⟩ := h
      refine .inr ⟨c, cs.take n ++ List.replicate (whole.toNat - (c :: cs).length) '0', ?_, hzero,
        hc, ?_⟩
      · rw [hn, List.take_succ_cons, List.cons_append]
      · exact List.forall_mem_append.mpr
          ⟨fun d hd => hcs d (List.mem_of_mem_take hd), isDigit_zeros _⟩
    refine isReal_point hbefore ?_ ?_
    · split
      · exact List.cons_ne_nil _ _
      next hafter => exact fun hnil => hafter (List.isEmpty_iff.mpr hnil)
    · split
      · exact List.forall_mem_singleton.mpr rfl
      · exact fun d hd => hds d (List.mem_of_mem_drop hd)

/-- The digits of a number that is not zero start with another digit, also without the zeros at
their end. -/
theorem isLeading_stripped {n : Nat} (h : 0 < n) :
    IsLeading ((decimal n).reverse.dropWhile (· == '0')).reverse := by
  obtain ⟨c, cs, hdecimal, hne, hc, hcs⟩ := isLeading_decimal h
  have hlast : [c].dropWhile (· == '0') = [c] := List.dropWhile_cons_of_neg (by simpa using hne)
  rw [hdecimal, List.reverse_cons, List.dropWhile_append]
  split
  · exact ⟨c, [], by rw [hlast]; rfl, hne, hc, nofun⟩
  · refine ⟨c, (cs.reverse.dropWhile (· == '0')).reverse, by simp, hne, hc, fun d hd => ?_⟩
    have hmem := (List.dropWhile_sublist _).subset (List.mem_reverse.mp hd)
    exact hcs d (List.mem_reverse.mp hmem)

/-- **A printed number with places is read back** as a number with places. -/
theorem number?_withPlaces (m e : Int) : ∃ m' e', ∀ rest, Closes rest →
    number? (withPlaces shortPlaces m e ++ rest) = some (real m' e', rest) := by
  obtain ⟨cs, hcs, hprinted⟩ : ∃ cs, IsReal cs ∧
      withPlaces shortPlaces m e = minus (decide (m < 0)) ++ cs := by
    have hsign : (if m < 0 then ['-'] else []) = minus (decide (m < 0)) := by
      simp [minus]
    unfold withPlaces
    dsimp only
    rw [hsign]
    by_cases hzero : m = 0
    · have hreal : IsReal "0.0".toList :=
        isReal_point (.inl rfl) (List.cons_ne_nil '0' []) (List.forall_mem_singleton.mpr rfl)
      exact ⟨_, hreal, by rw [if_pos hzero]⟩
    · have hds := isLeading_stripped (Int.natAbs_pos.mpr hzero)
      rw [if_neg hzero]
      split
      · exact ⟨_, isReal_positional hds _, rfl⟩
      · exact ⟨_, isReal_scientific hds 1 _, rfl⟩
  obtain ⟨⟨whole, more, rfl, hw⟩, hread⟩ := hcs
  obtain ⟨m', e', hrest⟩ := hread (decide (m < 0))
  refine ⟨m', e', fun rest h => ?_⟩
  rw [hprinted, List.append_assoc, List.append_assoc, number?_append _ hw, ← List.append_assoc]
  exact hrest rest h

end Accrual.Json
