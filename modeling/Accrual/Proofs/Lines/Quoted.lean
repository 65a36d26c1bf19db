import Accrual.Text.Quoted
import Mathlib.Tactic.SplitIfs

/-!
# Quoted texts can be read back

A word ends at the first character that words do not have
(`append_inj_of_stop`).  A quoted text may have any character in it, but an
escape is read from its first characters (`readChar`): what stands behind it
does not matter, and each escape gives its character back (`readChar_escapeIn`).
As no escape starts with the quote, the quote that ends a text is the first one
that starts no escape.  So a quoted text tells where it ends and which text it
quotes, whatever follows it (`quoted_append_inj`).
-/

namespace Accrual

/-! ### Words at the front of a text -/

theorem takeWhile_append_of_stop {p : Char → Bool} {word rest : List Char} (hw : ∀ c ∈ word, p c)
    (hr : ∀ c, rest.head? = some c → p c = false) : (word ++ rest).takeWhile p = word := by
  rw [List.takeWhile_append_of_pos hw]
  cases rest with
  | nil => exact List.append_nil word
  | cons c rest =>
      rw [List.takeWhile_cons_of_neg (by simp [hr c rfl]), List.append_nil]

/-- A word ends where the characters of words end. -/
theorem append_inj_of_stop {p : Char → Bool} {word word' rest rest' : List Char}
    (hw : ∀ c ∈ word, p c) (hw' : ∀ c ∈ word', p c)
    (hr : ∀ c, rest.head? = some c → p c = false) (hr' : ∀ c, rest'.head? = some c → p c = false)
    (h : word ++ rest = word' ++ rest') : word = word' ∧ rest = rest' := by
  have hword : word = word' := by
    rw [← takeWhile_append_of_stop hw hr, h, takeWhile_append_of_stop hw' hr']
  rw [hword] at h
  exact ⟨hword, List.append_cancel_left h⟩

end Accrual

namespace Accrual.Text

/-! ### Hexadecimal numerals -/

def hexadecimalDigit (c : Char) : Nat := if c.isDigit then c.toNat - 48 else c.toNat - 87

def ofHexadecimal (cs : List Char) : Nat := cs.foldl (fun n c => 16 * n + hexadecimalDigit c) 0

theorem hexadecimalDigit_digitChar {d : Nat} (h : d < 16) : hexadecimalDigit d.digitChar = d :=
  (by decide : ∀ d < 16, hexadecimalDigit d.digitChar = d) d h

theorem ofHexadecimal_concat (cs : List Char) (c : Char) :
    ofHexadecimal (cs ++ [c]) = 16 * ofHexadecimal cs + hexadecimalDigit c := by
  simp [ofHexadecimal]

theorem ofHexadecimal_toDigits (n : Nat) : ofHexadecimal (Nat.toDigits 16 n) = n := by
  induction n using Nat.strongRecOn with
  | ind n ih =>
      rw [Nat.toDigits_eq_if (by decide)]
      split
      next h => exact (Nat.zero_add _).trans (hexadecimalDigit_digitChar h)
      next h =>
        have hlt : n / 16 < n := Nat.div_lt_self (by omega) (by decide)
        rw [ofHexadecimal_concat, ih _ hlt, hexadecimalDigit_digitChar (Nat.mod_lt n (by decide))]
        omega

theorem ofHexadecimal_zeros (k : Nat) (cs : List Char) :
    ofHexadecimal (List.replicate k '0' ++ cs) = ofHexadecimal cs := by
  induction k with
  | zero => rfl
  | succ k ih => exact ih

theorem ofHexadecimal_hexadecimal (width n : Nat) : ofHexadecimal (hexadecimal width n) = n :=
  (ofHexadecimal_zeros _ _).trans (ofHexadecimal_toDigits n)

theorem length_hexadecimal {width n : Nat} (hw : 0 < width) (h : n < Nat.pow 16 width) :
    (hexadecimal width n).length = width := by
  have hdigits := (Nat.length_toDigits_le_iff (by decide : 1 < 16) hw).mpr h
  rw [hexadecimal, length_padded]
  omega

/-! ### Reading an escape -/

def readNumber (width : Nat) (cs : List Char) : Char × List Char :=
  (Char.ofNat (ofHexadecimal (cs.take width)), cs.drop width)

def readMark (mark : Char) (rest : List Char) : Char × List Char :=
  if mark = 'n' then ('\n', rest)
  else if mark = 'r' then ('\r', rest)
  else if mark = 't' then ('\t', rest)
  else if mark = 'x' then readNumber 2 rest
  else if mark = 'u' then readNumber 4 rest
  else if mark = 'U' then readNumber 8 rest
  else (mark, rest)

def readChar : List Char → Option (Char × List Char)
  | [] => none
  | c :: rest =>
      if c = '\\' then rest.head?.map fun mark => readMark mark rest.tail else some (c, rest)

theorem readNumber_hexadecimal {c : Char} (width : Nat) (hw : 0 < width)
    (h : c.toNat < Nat.pow 16 width) (rest : List Char) :
    readNumber width (hexadecimal width c.toNat ++ rest) = (c, rest) := by
  have hlength := length_hexadecimal hw h
  rw [readNumber, List.take_left' hlength, List.drop_left' hlength, ofHexadecimal_hexadecimal,
    Char.ofNat_toNat]

theorem readChar_numberEscape (c : Char) (rest : List Char) :
    readChar (numberEscape c ++ rest) = some (c, rest) := by
  unfold numberEscape
  split_ifs with hx hu
  · exact congrArg some (readNumber_hexadecimal 2 (by decide) hx rest)
  · exact congrArg some (readNumber_hexadecimal 4 (by decide) hu rest)
  · exact congrArg some (readNumber_hexadecimal 8 (by decide) c.val.toNat_lt rest)

def IsQuote (c : Char) : Prop := c = singleQuote ∨ c = doubleQuote

instance (c : Char) : Decidable (IsQuote c) :=
  inferInstanceAs (Decidable (c = singleQuote ∨ c = doubleQuote))

theorem isQuote_quoteFor (cs : List Char) : IsQuote (quoteFor cs) := by
  unfold quoteFor
  split
  · exact .inr rfl
  · exact .inl rfl

variable {quote : Char} (hq : IsQuote quote)
include hq

/-- **Each escape gives its character back**, whatever follows. -/
theorem readChar_escapeIn (c : Char) (rest : List Char) :
    readChar (escapeIn quote c ++ rest) = some (c, rest) := by
  unfold escapeIn
  split_ifs with hsame hfeed hreturn htab hprintable
  · obtain rfl | rfl := hsame
    · obtain rfl | rfl := hq <;> rfl
    · rfl
  · rw [hfeed]
    rfl
  · rw [hreturn]
    rfl
  · rw [htab]
    rfl
  · exact if_neg (not_or.mp hsame).2
  · exact readChar_numberEscape c rest

theorem escapeIn_append_ne (c : Char) (rest more : List Char) :
    escapeIn quote c ++ rest ≠ quote :: more := by
  have hbackslash : quote ≠ '\\' := by
    obtain rfl | rfl := hq <;> decide
  intro h
  -- read as a character, the quote would stand for itself, but its own escape starts otherwise
  have hread := congrArg readChar h
  rw [readChar_escapeIn hq, readChar, if_neg hbackslash] at hread
  obtain ⟨rfl, -⟩ := Prod.mk.inj (Option.some.inj hread)
  rw [escapeIn, if_pos (.inl rfl)] at h
  exact hbackslash (List.cons.inj h).1.symm

/-- **Where the escapes end and what they stand for** can be told from the text. -/
theorem flatMap_escapeIn_inj {cs ds rest more : List Char}
    (h : cs.flatMap (escapeIn quote) ++ quote :: rest =
      ds.flatMap (escapeIn quote) ++ quote :: more) : cs = ds ∧ rest = more := by
  induction cs generalizing ds with
  | nil =>
      cases ds with
      | nil => exact ⟨rfl, (List.cons_inj_right quote).mp h⟩
      | cons d ds =>
          rw [List.flatMap_cons, List.append_assoc] at h
          exact absurd h.symm (escapeIn_append_ne hq d _ _)
  | cons c cs ih =>
      cases ds with
      | nil =>
          rw [List.flatMap_cons, List.append_assoc] at h
          exact absurd h (escapeIn_append_ne hq c _ _)
      | cons d ds =>
          rw [List.flatMap_cons, List.flatMap_cons, List.append_assoc, List.append_assoc] at h
          have hread := congrArg readChar h
          rw [readChar_escapeIn hq, readChar_escapeIn hq] at hread
          obtain ⟨rfl, hrest⟩ := Prod.mk.inj (Option.some.inj hread)
          obtain ⟨rfl, hmore⟩ := ih hrest
          exact ⟨rfl, hmore⟩

omit hq

/-- **A quoted text can be read back**: what is quoted and what follows it can be told from the
text. -/
theorem quoted_append_inj {cs ds rest more : List Char}
    (h : quoted cs ++ rest = quoted ds ++ more) : cs = ds ∧ rest = more := by
  simp only [quoted, List.cons_append, List.append_assoc, List.cons.injEq, List.nil_append] at h
  obtain ⟨hquote, hbody⟩ := h
  rw [← hquote] at hbody
  exact flatMap_escapeIn_inj (isQuote_quoteFor cs) hbody

end Accrual.Text
