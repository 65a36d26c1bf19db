import Accrual.Proofs.Lines.Printable

/-!
# Rows can be read back

A row is written with a comma and a space between its elements.  If the text of
each element tells where it ends (`Determines`), the row tells its elements and
where it ends (`row_append_inj`): behind an element comes either a comma with a
space, and then one more element, or something else, and then the row is over.
-/

namespace Accrual.Text

/-! ### Told from the text -/

/-- What can follow a literal: nothing, or a mark that divides or ends a row. -/
def EndsLiteral (rest : List Char) : Prop :=
  ∀ c, rest.head? = some c → c = ',' ∨ c = ':' ∨ c = ')' ∨ c = ']' ∨ c = '\x7d'

theorem endsLiteral_nil : EndsLiteral [] := nofun

theorem endsLiteral_cons {c : Char} (h : c = ',' ∨ c = ':' ∨ c = ')' ∨ c = ']' ∨ c = '\x7d')
    (rest : List Char) : EndsLiteral (c :: rest) := by
  intro d hd
  rw [← Option.some.inj hd]
  exact h

/-- Where the text of `a` ends, and that it is that of `a`, can be told from the texts of all that
have the property. -/
def Determines {α : Type} (p : α → List Char) (Q : α → Prop) (a : α) : Prop :=
  ∀ ⦃b : α⦄ ⦃rest more : List Char⦄, Q b → EndsLiteral rest → EndsLiteral more →
    p a ++ rest = p b ++ more → a = b ∧ rest = more

/-! ### Rows -/

variable {α : Type} (p : α → List Char)

def further (as : List α) : List Char := as.flatMap fun a => ',' :: ' ' :: p a

def row : List α → List Char
  | [] => []
  | a :: as => p a ++ further p as

def EndsRow (rest : List Char) : Prop :=
  EndsLiteral rest ∧ ∀ tail, rest ≠ ',' :: ' ' :: tail

variable {p} {Q : α → Prop} {as bs : List α} {rest more : List Char}

theorem endsLiteral_further (h : EndsLiteral rest) (as : List α) :
    EndsLiteral (further p as ++ rest) := by
  cases as with
  | nil => exact h
  | cons a as => exact endsLiteral_cons (by decide) _

theorem further_cons (a : α) (as : List α) (rest : List Char) :
    further p (a :: as) ++ rest = ',' :: ' ' :: (p a ++ (further p as ++ rest)) := by
  simp [further]

theorem further_append_inj (ha : ∀ a ∈ as, Determines p Q a) (hb : ∀ b ∈ bs, Q b)
    (hr : EndsRow rest) (hm : EndsRow more) (h : further p as ++ rest = further p bs ++ more) :
    as = bs ∧ rest = more := by
  induction as generalizing bs with
  | nil =>
      cases bs with
      | nil => exact ⟨rfl, h⟩
      | cons b bs =>
          rw [further_cons] at h
          exact absurd h (hr.2 _)
  | cons a as ih =>
      cases bs with
      | nil =>
          rw [further_cons] at h
          exact absurd h.symm (hm.2 _)
      | cons b bs =>
          obtain ⟨ha, has⟩ := List.forall_mem_cons.mp ha
          obtain ⟨hb, hbs⟩ := List.forall_mem_cons.mp hb
          rw [further_cons, further_cons] at h
          have htail := (List.cons.inj (List.cons.inj h).2).2
          obtain ⟨rfl, hfurther⟩ :=
            ha hb (endsLiteral_further hr.1 as) (endsLiteral_further hm.1 bs) htail
          obtain ⟨rfl, hrest⟩ := ih has hbs hfurther
          exact ⟨rfl, hrest⟩

/-- **A row tells its elements** if each of them is told from its text, and no text of an element
begins like what can follow one. -/
theorem row_append_inj (hopen : ∀ b, Q b → ∀ more, ¬EndsLiteral (p b ++ more))
    (ha : ∀ a ∈ as, Q a ∧ Determines p Q a) (hb : ∀ b ∈ bs, Q b) (hr : EndsRow rest)
    (hm : EndsRow more) (h : row p as ++ rest = row p bs ++ more) : as = bs ∧ rest = more := by
  cases as with
  | nil =>
      cases bs with
      | nil => exact ⟨rfl, h⟩
      | cons b bs =>
          have hends := hr.1
          rw [show rest = row p (b :: bs) ++ more from h, row, List.append_assoc] at hends
          exact absurd hends (hopen b (hb b (.head _)) _)
  | cons a as =>
      obtain ⟨⟨hqa, hda⟩, has⟩ := List.forall_mem_cons.mp ha
      cases bs with
      | nil =>
          have hends := hm.1
          rw [show more = row p (a :: as) ++ rest from h.symm, row, List.append_assoc] at hends
          exact absurd hends (hopen a hqa _)
      | cons b bs =>
          obtain ⟨hb, hbs⟩ := List.forall_mem_cons.mp hb
          rw [row, row, List.append_assoc, List.append_assoc] at h
          obtain ⟨rfl, hfurther⟩ :=
            hda hb (endsLiteral_further hr.1 as) (endsLiteral_further hm.1 bs) h
          obtain ⟨rfl, hrest⟩ :=
            further_append_inj (fun a ha => (has a ha).2) hbs hr hm hfurther
          exact ⟨rfl, hrest⟩

theorem endsRow_bracket {c : Char} (hc : c = ')' ∨ c = ']' ∨ c = '\x7d') (rest : List Char) :
    EndsRow (c :: rest) := by
  rcases hc with rfl | rfl | rfl <;> exact ⟨endsLiteral_cons (by decide) rest, nofun⟩

theorem printable_row (h : ∀ a ∈ as, Printable (p a)) : Printable (row p as) := by
  have hmarks : isPrintable ',' = true ∧ isPrintable ' ' = true := ⟨rfl, rfl⟩
  cases as with
  | nil => exact printable_nil
  | cons a as =>
      obtain ⟨ha, has⟩ := List.forall_mem_cons.mp h
      refine printable_append.mpr ⟨ha, printable_flatMap fun b hb => ?_⟩
      simp [hmarks, has b hb]

end Accrual.Text
