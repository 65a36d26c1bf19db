import Accrual.Proofs.Lines.Quoted

/-!
# Numerals and quoted texts are printable

A printable text has no control character in it and none that ends a line.
Numerals are printable, and so is every quoted text, whatever text it quotes
(`printable_quoted`): a character is quoted as it is only if it is printable,
and escapes are made of printable characters.
-/

namespace Accrual.Text

/-! ### Characters -/

/-- The characters before the space, and those from U+007F to U+009F. -/
def IsControl (c : Char) : Prop := c.toNat < 0x20 ∨ 0x7f ≤ c.toNat ∧ c.toNat < 0xa0

/-- The characters after which a new line begins: those from line feed to carriage return, the
separators of files, groups and records, the next line, and the separators of lines and of
paragraphs. -/
def BreaksLine (c : Char) : Prop :=
  c.toNat ∈ [0x0a, 0x0b, 0x0c, 0x0d, 0x1c, 0x1d, 0x1e, 0x85, 0x2028, 0x2029]

theorem not_mem_range_of_isPrintable {c : Char} (h : isPrintable c = true) {low high : Nat}
    (hrange : (low, high) ∈ unprintable) (hlow : 0x7f ≤ low) :
    ¬(low ≤ c.toNat ∧ c.toNat ≤ high) := by
  rintro ⟨hle, hge⟩
  have hany : unprintable.any (fun range => range.1 ≤ c.toNat && c.toNat ≤ range.2) = true :=
    List.any_eq_true.mpr ⟨_, hrange, by simp [hle, hge]⟩
  rw [isPrintable, if_neg (by omega), hany] at h
  simp at h

theorem not_isControl_of_isPrintable {c : Char} (h : isPrintable c = true) : ¬IsControl c := by
  intro hcontrol
  have hspace := toNat_ge_of_isPrintable h
  have hrange : (0x80, 0xa0) ∈ unprintable := .head _
  have hhigh := not_mem_range_of_isPrintable h hrange (by decide)
  have hdelete : c.toNat ≠ 0x7f := by
    intro hc
    rw [isPrintable, hc] at h
    simp at h
  unfold IsControl at hcontrol
  omega

/-- **A printable character ends no line**: those that do are control characters, or one of the two
separators. -/
theorem not_breaksLine_of_isPrintable {c : Char} (h : isPrintable c = true) : ¬BreaksLine c := by
  intro hbreaks
  have hcontrol := not_isControl_of_isPrintable h
  have hrange : (0x2028, 0x202f) ∈ unprintable := by decide +kernel
  have hseparator := not_mem_range_of_isPrintable h hrange (by decide)
  unfold IsControl at hcontrol
  simp only [BreaksLine, List.mem_cons, List.not_mem_nil, or_false] at hbreaks
  omega

/-! ### Texts -/

def Printable (cs : List Char) : Prop := ∀ c ∈ cs, isPrintable c = true

instance (cs : List Char) : Decidable (Printable cs) :=
  decidable_of_iff (cs.all isPrintable = true) List.all_eq_true

@[simp] theorem printable_nil : Printable [] := List.forall_mem_nil _

@[simp] theorem printable_cons {c : Char} {cs : List Char} :
    Printable (c :: cs) ↔ isPrintable c = true ∧ Printable cs :=
  List.forall_mem_cons

@[simp] theorem printable_append {cs ds : List Char} :
    Printable (cs ++ ds) ↔ Printable cs ∧ Printable ds :=
  List.forall_mem_append

theorem printable_flatMap {α : Type} {f : α → List Char} {as : List α}
    (h : ∀ a ∈ as, Printable (f a)) : Printable (as.flatMap f) := by
  intro c hc
  obtain ⟨a, ha, hc⟩ := List.mem_flatMap.mp hc
  exact h a ha c hc

/-! ### Numerals -/

theorem printable_toDigits {base : Nat} (hb : 1 < base) (hle : base ≤ 16) (n : Nat) :
    Printable (Nat.toDigits base n) := by
  have hdigit : ∀ d < 16, isPrintable d.digitChar = true := by decide
  induction n using Nat.strongRecOn with
  | ind n ih =>
      rw [Nat.toDigits_eq_if hb]
      split
      next h => simp [hdigit n (by omega)]
      next h =>
        have hlt : n / base < n := Nat.div_lt_self (by omega) hb
        have hmod := Nat.mod_lt n (by omega : 0 < base)
        simp [ih _ hlt, hdigit (n % base) (by omega)]

theorem printable_decimal (n : Nat) : Printable (decimal n) :=
  printable_toDigits (by decide) (by decide) n

theorem printable_signedDecimal (n : Int) : Printable (signedDecimal n) := by
  have hminus : isPrintable '-' = true := rfl
  unfold signedDecimal
  split <;> simp [hminus, printable_decimal]

theorem printable_hexadecimal (width n : Nat) : Printable (hexadecimal width n) := by
  refine printable_append.mpr ⟨?_, printable_toDigits (by decide) (by decide) n⟩
  intro c hc
  rw [List.eq_of_mem_replicate hc]
  rfl

/-! ### Quoted texts -/

theorem IsQuote.isPrintable {c : Char} (h : IsQuote c) : isPrintable c = true := by
  rcases h with rfl | rfl <;> rfl

theorem printable_numberEscape (c : Char) : Printable (numberEscape c) := by
  have hmarks : Printable ['\\', 'x', 'u', 'U'] := by decide
  simp only [printable_cons] at hmarks
  unfold numberEscape
  split_ifs <;> simp [hmarks, printable_hexadecimal]

/-- **Every escape is printable**, that of a character which is not among them. -/
theorem printable_escapeIn {quote : Char} (hq : IsQuote quote) (c : Char) :
    Printable (escapeIn quote c) := by
  have hbackslash : isPrintable '\\' = true := rfl
  unfold escapeIn
  split_ifs with hsame _ _ _ hc
  · rcases hsame with rfl | rfl
    · simp [hbackslash, hq.isPrintable]
    · simp [hbackslash]
  · decide
  · decide
  · decide
  · simp [hc]
  · exact printable_numberEscape c

/-- **A quoted text is printable.** -/
theorem printable_quoted (cs : List Char) : Printable (quoted cs) := by
  have hq := isQuote_quoteFor cs
  have hbody := printable_flatMap fun c (_ : c ∈ cs) => printable_escapeIn hq c
  simp [quoted, hq.isPrintable, hbody]

end Accrual.Text
