import Accrual.Settings.DotEnv

/-!
# Files that say what they are meant to

Assignments of words are written one a line, and read back from the file as they
are (`assignments_written`): nothing in a word ends a name or a value, quotes or
escapes anything, or starts a comment.
-/

namespace Accrual.DotEnv

open Text

/-! ### Words -/

def isWordChar (c : Char) : Bool := c.isAlphanum || c == '_'

def IsWord (cs : List Char) : Prop := cs ≠ [] ∧ ∀ c ∈ cs, isWordChar c

theorem ne_of_isWordChar {c d : Char} (h : isWordChar c) (hd : isWordChar d = false) : c ≠ d := by
  rintro rfl
  rw [hd] at h
  cases h

theorem toNat_of_isWordChar {c : Char} (h : isWordChar c) : 0x30 ≤ c.toNat ∧ c.toNat ≤ 0x7a := by
  have hbetween : ∀ {low high : Char}, low.val ≤ c.val → c.val ≤ high.val →
      low.toNat ≤ c.toNat ∧ c.toNat ≤ high.toNat := fun hlow hhigh =>
    ⟨UInt32.le_iff_toNat_le.mp hlow, UInt32.le_iff_toNat_le.mp hhigh⟩
  obtain halphanum | hline := Bool.or_eq_true_iff.mp h
  · obtain halpha | hdigit := Bool.or_eq_true_iff.mp halphanum
    · obtain hupper | hlower := Bool.or_eq_true_iff.mp halpha
      · obtain ⟨hlow, hhigh⟩ := of_decide_eq_true hupper
        obtain ⟨hlow, hhigh⟩ := hbetween hlow hhigh
        exact ⟨Nat.le_trans (by decide) hlow, Nat.le_trans hhigh (by decide)⟩
      · obtain ⟨hlow, hhigh⟩ := Bool.and_eq_true_iff.mp hlower
        obtain ⟨hlow, hhigh⟩ := hbetween (of_decide_eq_true hlow) (of_decide_eq_true hhigh)
        exact ⟨Nat.le_trans (by decide) hlow, Nat.le_trans hhigh (by decide)⟩
    · obtain ⟨hlow, hhigh⟩ := Char.isDigit_iff_toNat.mp hdigit
      exact ⟨hlow, Nat.le_trans hhigh (by decide)⟩
  · obtain rfl := eq_of_beq hline
    decide

theorem not_isBlank_of_isWordChar {c : Char} (h : isWordChar c) : isBlank c = false := by
  have hrange := toNat_of_isWordChar h
  simp only [isBlank, isWhiteSpace, Bool.or_eq_false_iff, Bool.and_eq_false_iff,
    decide_eq_false_iff_not, beq_eq_false_iff_ne]
  omega

theorem isNameChar_of_isWordChar {c : Char} (h : isWordChar c) : isNameChar c := by
  have hequals : c ≠ '=' := ne_of_isWordChar h (by decide)
  have hsign : c ≠ '#' := ne_of_isWordChar h (by decide)
  simp [isNameChar, hequals, hsign, not_isBlank_of_isWordChar h]

/-- A word in front of a text that does not go on with it is what can be taken from there. -/
theorem takeWhile_word {p : Char → Bool} {word : List Char} (h : IsWord word)
    (hp : ∀ c, isWordChar c → p c) {next : Char} (hnext : p next = false) (rest : List Char) :
    (word ++ next :: rest).takeWhile p = word ∧
      (word ++ next :: rest).dropWhile p = next :: rest := by
  have hall : ∀ c ∈ word, p c := fun c hc => hp c (h.2 c hc)
  rw [List.takeWhile_append_of_pos hall, List.dropWhile_append_of_pos hall,
    List.takeWhile_cons_of_neg (by simp [hnext]), List.dropWhile_cons_of_neg (by simp [hnext]),
    List.append_nil]
  exact ⟨rfl, rfl⟩

/-! ### One line -/

section

variable {name text : List Char}

theorem skipBlanks_cons {c : Char} (h : isLineBlank c = false) (cs : List Char) :
    skipBlanks (c :: cs) = c :: cs :=
  List.dropWhile_cons_of_neg (by simp [h])

theorem skipExport_cons {c : Char} (hc : c ≠ 'e') (cs : List Char) :
    skipExport (c :: cs) = c :: cs := by
  have hprefix : "export".toList.isPrefixOf (c :: cs) = false := by
    change ('e' == c && _) = false
    rw [beq_eq_false_iff_ne.mpr hc.symm, Bool.false_and]
  rw [skipExport, hprefix]
  rfl

theorem name?_word (h : IsWord name) (rest : List Char) :
    name? (name ++ '=' :: rest) = some (some (String.ofList name), '=' :: rest) := by
  obtain ⟨htake, hdrop⟩ := takeWhile_word h (fun c => isNameChar_of_isWordChar)
    (show isNameChar '=' = false by decide) rest
  obtain ⟨hne, hall⟩ := h
  cases name with
  | nil => exact absurd rfl hne
  | cons c cs =>
      have hc := hall c List.mem_cons_self
      unfold name?
      split
      next heq => exact absurd (List.cons.inj heq).1 (ne_of_isWordChar hc (by decide))
      next heq => exact absurd (List.cons.inj heq).1 (ne_of_isWordChar hc (by decide))
      next =>
        rw [htake, hdrop]
        rfl

theorem cutComment_of_no_blank {cs : List Char} (h : ∀ c ∈ cs, isBlank c = false) :
    cutComment cs = cs := by
  induction cs with
  | nil => rfl
  | cons c rest ih =>
      obtain ⟨hc, hrest⟩ := List.forall_mem_cons.mp h
      simp [cutComment, hc, ih hrest]

theorem bareValue_of_no_blank {cs : List Char} (h : ∀ c ∈ cs, isBlank c = false) :
    bareValue cs = cs := by
  have hreverse : cs.reverse.dropWhile isBlank = cs.reverse := by
    cases hr : cs.reverse with
    | nil => rfl
    | cons c rest =>
        have hc : c ∈ cs := List.mem_reverse.mp (hr ▸ List.mem_cons_self)
        exact List.dropWhile_cons_of_neg (by simp [h c hc])
  rw [bareValue, cutComment_of_no_blank h, hreverse, List.reverse_reverse]

/-- **The value of a line** that ends with a word is the word. -/
theorem optionalValue?_word (h : IsWord text) (rest : List Char) :
    optionalValue? ('=' :: (text ++ '\n' :: rest)) =
      some (some (String.ofList text), '\n' :: rest) := by
  have hline : ∀ c, isWordChar c → c != '\n' := fun c hc =>
    bne_iff_ne.mpr (ne_of_isWordChar hc (by decide))
  obtain ⟨htake, hdrop⟩ := takeWhile_word h hline
    (show ('\n' != '\n') = false by decide) rest
  have hbare := bareValue_of_no_blank fun c hc => not_isBlank_of_isWordChar (h.2 c hc)
  obtain ⟨hne, hall⟩ := h
  cases text with
  | nil => exact absurd rfl hne
  | cons c cs =>
      have hc := hall c List.mem_cons_self
      have hblank : isLineBlank c = false := by
        rw [isLineBlank, not_isBlank_of_isWordChar hc, Bool.false_and]
      have hvalue : value? (c :: (cs ++ '\n' :: rest)) =
          some (String.ofList (c :: cs), '\n' :: rest) := by
        unfold value?
        split
        next heq => exact absurd (List.cons.inj heq).1 (ne_of_isWordChar hc (by decide))
        next heq => exact absurd (List.cons.inj heq).1 (ne_of_isWordChar hc (by decide))
        next =>
          rw [List.cons_append] at htake hdrop
          rw [lineRest, htake, hdrop, hbare]
      rw [List.cons_append, optionalValue?, skipBlanks_cons (by decide)]
      simp [startsComment, hblank, skipBlanks_cons hblank, hvalue]

/-- **A line** assigns a word to a name that is one. -/
theorem line_word (hname : IsWord name) (hstart : name.head? ≠ some 'e') (htext : IsWord text)
    (rest : List Char) :
    line (name ++ '=' :: (text ++ '\n' :: rest)) =
      (some (String.ofList name, some (String.ofList text)), rest) := by
  have hexport : skipExport (name ++ '=' :: (text ++ '\n' :: rest)) =
      name ++ '=' :: (text ++ '\n' :: rest) := by
    obtain ⟨hne, -⟩ := hname
    cases name with
    | nil => exact absurd rfl hne
    | cons c cs => exact skipExport_cons (fun hc => hstart (congrArg some hc)) _
  have hend : skipBlanks ('\n' :: rest) = '\n' :: rest := skipBlanks_cons (by decide) rest
  rw [line, hexport, name?_word hname]
  dsimp only
  rw [optionalValue?_word htext]
  simp [skipComment, hend]

end

/-! ### Whole files -/

def written (assignments : List (String × String)) : String :=
  String.join (assignments.map fun a => a.1 ++ "=" ++ a.2 ++ "\n")

/-- Both the name and the text of an assignment are words. The name does not look like the word
`export`. -/
structure IsPlain (a : String × String) : Prop where
  name : IsWord a.1.toList
  start : a.1.toList.head? ≠ some 'e'
  text : IsWord a.2.toList

def lineOf (a : String × String) : List Char := a.1.toList ++ '=' :: (a.2.toList ++ ['\n'])

theorem toList_written (assignments : List (String × String)) :
    (written assignments).toList = assignments.flatMap lineOf := by
  rw [written, String.toList_join, List.flatMap_map]
  congr 1
  funext a
  simp [lineOf]

theorem normalizeLines_of_no_return {cs : List Char} (h : '\r' ∉ cs) : normalizeLines cs = cs := by
  induction cs with
  | nil => rfl
  | cons c rest ih =>
      rw [List.mem_cons, not_or] at h
      unfold normalizeLines
      split
      next heq => exact absurd (List.cons.inj heq).1.symm h.1
      next heq => exact absurd (List.cons.inj heq).1.symm h.1
      next heq =>
        obtain ⟨rfl, rfl⟩ := List.cons.inj heq
        rw [ih h.2]
      next heq => cases heq

theorem dropMark_of_no_mark {cs : List Char} (h : '\ufeff' ∉ cs) : dropMark cs = cs := by
  unfold dropMark
  split
  next => exact absurd List.mem_cons_self h
  next => rfl

variable {assignments : List (String × String)} (h : ∀ a ∈ assignments, IsPlain a)
include h

/-- What is no character of words, does not separate a name from its text and does not end a line,
does not occur. -/
theorem not_mem_written {c : Char} (hc : isWordChar c = false) (hequals : c ≠ '=')
    (hend : c ≠ '\n') : c ∉ assignments.flatMap lineOf := by
  intro hm
  obtain ⟨a, ha, hline⟩ := List.mem_flatMap.mp hm
  have hplain := h a ha
  simp only [lineOf, List.mem_append, List.mem_cons, List.not_mem_nil, or_false] at hline
  obtain hname | rfl | htext | rfl := hline
  · exact ne_of_isWordChar (hplain.name.2 c hname) hc rfl
  · exact hequals rfl
  · exact ne_of_isWordChar (hplain.text.2 c htext) hc rfl
  · exact hend rfl

/-- As many lines are read as there are, if the bound allows for them. -/
theorem lines_written {bound : Nat} (hbound : assignments.length ≤ bound) :
    lines bound (assignments.flatMap lineOf) = assignments.map fun a => (a.1, some a.2) := by
  induction assignments generalizing bound with
  | nil => cases bound <;> rfl
  | cons a rest ih =>
      obtain ⟨hplain, hrest⟩ := List.forall_mem_cons.mp h
      cases bound with
      | zero => cases hbound
      | succ bound =>
          obtain ⟨c, cs, hname⟩ := List.exists_cons_of_ne_nil hplain.name.1
          have hblank : isBlank c = false :=
            not_isBlank_of_isWordChar (hplain.name.2 c (hname ▸ List.mem_cons_self))
          have hall : (a :: rest).flatMap lineOf =
              a.1.toList ++ '=' :: (a.2.toList ++ '\n' :: rest.flatMap lineOf) := by
            simp [lineOf]
          have hline := line_word hplain.name hplain.start hplain.text (rest.flatMap lineOf)
          have hskip : ((a :: rest).flatMap lineOf).dropWhile isBlank =
              (a :: rest).flatMap lineOf := by
            rw [hall, hname]
            exact List.dropWhile_cons_of_neg (by simp [hblank])
          rw [lines, hskip, hall]
          split
          next hnil => exact absurd hnil (by simp)
          next =>
            rw [hline, ih hrest (Nat.le_of_succ_le_succ hbound)]
            simp

/-- **A written file is read back.** -/
theorem assignments_written :
    DotEnv.assignments (written assignments) = assignments.map fun a => (a.1, some a.2) := by
  have hlength : assignments.length ≤ (assignments.flatMap lineOf).length := by
    clear h
    induction assignments with
    | nil => exact Nat.le_refl 0
    | cons a rest ih =>
        simp only [List.flatMap_cons, List.length_append, List.length_cons, lineOf]
        omega
  rw [DotEnv.assignments, toList_written,
    dropMark_of_no_mark (not_mem_written h (by decide) (by decide) (by decide)),
    normalizeLines_of_no_return (not_mem_written h (by decide) (by decide) (by decide))]
  exact lines_written h hlength

end Accrual.DotEnv
