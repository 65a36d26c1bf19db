import Accrual.Proofs.Lines.Quoted
import Accrual.Proofs.Lines.Report

/-!
# Pairs on a console line

A pair of texts on a line is read from the front: the key ends at the first
equals sign, a quoted value at its closing quote, and any other value at the
first blank.  What tells a quoted value from another one is its first character,
so that the pairs of a line are clear as long as no value that is not quoted
begins with a quote (`Console.IsClear`).  Then the line determines the context
(`line_determines_context`); without that it does not
(`same_line_of_opening_quote`).
-/

namespace Accrual

open Text

namespace Console

/-! ### Values -/

/-- A text that is quoted on a line, or that does not begin as if it were. -/
def IsClear (s : String) : Prop :=
  s.toList.any isBlank = true ∨ ∀ c ∈ s.toList.head?, ¬IsQuote c

def EndsValue (rest : List Char) : Prop := ∀ c, rest.head? = some c → isBlank c = true

theorem isBlank_of_isQuote {c : Char} (h : IsQuote c) : isBlank c = false := by
  obtain rfl | rfl := h <;> decide

/-- A quoted text is none of the others. -/
theorem quoted_append_ne {t : String} (ht : IsClear t) (hb : ¬t.toList.any isBlank = true)
    {rest : List Char} (hr : EndsValue rest) (cs more : List Char) :
    quoted cs ++ more ≠ t.toList ++ rest := by
  intro h
  have hhead := congrArg List.head? h
  have hquote := isQuote_quoteFor cs
  cases htext : t.toList with
  | nil =>
      rw [htext] at hhead
      have hblank := hr _ hhead.symm
      rw [isBlank_of_isQuote hquote] at hblank
      cases hblank
  | cons c word =>
      rw [htext] at hhead
      cases hhead
      exact ht.resolve_left hb _ (by rw [htext]; rfl) hquote

/-- **Where a value ends and what it is** can be told from the text. -/
theorem formatValue_append_inj {s t : String} (hs : IsClear s) (ht : IsClear t)
    {rest more : List Char} (hr : EndsValue rest) (hm : EndsValue more)
    (h : formatValue (.text s) ++ rest = formatValue (.text t) ++ more) :
    s = t ∧ rest = more := by
  rw [formatValue_text, formatValue_text] at h
  by_cases hsb : s.toList.any isBlank = true <;> by_cases htb : t.toList.any isBlank = true
  · rw [if_pos hsb, if_pos htb] at h
    exact (quoted_append_inj h).imp_left String.toList_inj.mp
  · rw [if_pos hsb, if_neg htb] at h
    exact absurd h (quoted_append_ne ht htb hm _ _)
  · rw [if_neg hsb, if_pos htb] at h
    exact absurd h.symm (quoted_append_ne hs hsb hr _ _)
  · rw [if_neg hsb, if_neg htb] at h
    have hword : ∀ {s : String}, ¬s.toList.any isBlank = true →
        ∀ c ∈ s.toList, (!isBlank c) = true := by
      intro s hb c hc
      simp only [List.any_eq_true, not_exists, not_and] at hb
      simp [hb c hc]
    have hstop : ∀ {rest : List Char}, EndsValue rest →
        ∀ c, rest.head? = some c → (!isBlank c) = false := fun hr c hc => by simp [hr c hc]
    obtain ⟨htext, hrest⟩ := append_inj_of_stop (hword hsb) (hword htb) (hstop hr) (hstop hm) h
    exact ⟨String.toList_inj.mp htext, hrest⟩

/-! ### Pairs -/

/-- A pair of texts with a key that ends at the first equals sign, and a clear value. -/
def IsClearPair (pair : Value × Value) : Prop :=
  ∃ key content : String, pair = (.text key, .text content) ∧ '=' ∉ key.toList ∧ IsClear content

theorem formatPair_texts (key content : String) :
    formatPair .plain (.text key, .text content) =
      key.toList ++ '=' :: formatValue (.text content) := by
  simp [formatPair, Palette.plain, Value.plain]

theorem formatPair_append_inj {p q : Value × Value} (hp : IsClearPair p) (hq : IsClearPair q)
    {rest more : List Char} (hr : EndsValue rest) (hm : EndsValue more)
    (h : formatPair .plain p ++ rest = formatPair .plain q ++ more) : p = q ∧ rest = more := by
  obtain ⟨key, content, rfl, hkey, hcontent⟩ := hp
  obtain ⟨key', content', rfl, hkey', hcontent'⟩ := hq
  rw [formatPair_texts, formatPair_texts, List.append_assoc, List.append_assoc] at h
  have hword : ∀ {cs : List Char}, '=' ∉ cs → ∀ c ∈ cs, (c != '=') = true := by
    intro cs hcs c hc
    rw [bne_iff_ne]
    exact fun he => hcs (he ▸ hc)
  obtain ⟨hk, hvalue⟩ := append_inj_of_stop (hword hkey) (hword hkey')
    (fun c hc => by cases hc; rfl) (fun c hc => by cases hc; rfl) h
  obtain ⟨rfl, hrest⟩ := formatValue_append_inj hcontent hcontent' hr hm (List.cons.inj hvalue).2
  rw [String.toList_inj.mp hk]
  exact ⟨rfl, hrest⟩

def spacedPairs (pairs : Entries) : List Char :=
  pairs.flatMap fun pair => ' ' :: formatPair .plain pair

theorem endsValue_spacedPairs (pairs : Entries) : EndsValue (spacedPairs pairs) := by
  intro c hc
  cases pairs with
  | nil => cases hc
  | cons pair rest =>
      cases hc
      decide

/-- **The pairs on a line** can be told from the text. -/
theorem spacedPairs_inj {ps qs : Entries} (hp : ∀ p ∈ ps, IsClearPair p)
    (hq : ∀ q ∈ qs, IsClearPair q) (h : spacedPairs ps = spacedPairs qs) : ps = qs := by
  induction ps generalizing qs with
  | nil =>
      cases qs with
      | nil => rfl
      | cons q qs => cases h
  | cons p ps ih =>
      cases qs with
      | nil => cases h
      | cons q qs =>
          obtain ⟨hp, hps⟩ := List.forall_mem_cons.mp hp
          obtain ⟨hq, hqs⟩ := List.forall_mem_cons.mp hq
          have htail : formatPair .plain p ++ spacedPairs ps =
              formatPair .plain q ++ spacedPairs qs := (List.cons.inj h).2
          obtain ⟨rfl, hrest⟩ := formatPair_append_inj hp hq (endsValue_spacedPairs ps)
            (endsValue_spacedPairs qs) htail
          rw [ih hps hqs hrest]

/-! ### Lines -/

theorem joined_cons (part : List Char) (parts : List (List Char)) :
    joined (part :: parts) = part ++ parts.flatMap (' ' :: ·) := by
  induction parts generalizing part with
  | nil => rfl
  | cons next parts ih =>
      rw [joined, List.intercalate_cons_cons, ← joined, ih, List.flatMap_cons]
      simp

theorem joined_append_pairs {front : List (List Char)} (h : front ≠ []) (pairs : Entries) :
    joined (front ++ pairs.map (formatPair .plain)) = joined front ++ spacedPairs pairs := by
  obtain ⟨part, parts, rfl⟩ := List.exists_cons_of_ne_nil h
  rw [List.cons_append, joined_cons, joined_cons, List.flatMap_append, List.append_assoc,
    List.flatMap_map, spacedPairs]

theorem haveTextKeys_of_isClearPair {context : Entries} (h : ∀ p ∈ context, IsClearPair p) :
    context.HaveTextKeys := by
  intro e he
  obtain ⟨key, content, rfl, -⟩ := h e he
  exact ⟨key, rfl⟩

/-- **A line determines the context** of its entry. -/
theorem perm_of_line_eq {entry : LogEntry} {context : Entries}
    (he : ∀ p ∈ entry.context, IsClearPair p) (hc : ∀ p ∈ context, IsClearPair p)
    {showTimestamp : Bool} {cs : List Char} (h : line .plain showTimestamp entry = .ok cs)
    (h' : line .plain showTimestamp { entry with context } = .ok cs) :
    entry.context.Perm context := by
  obtain ⟨time, pairs, htime, hpairs, htext⟩ := parts_of_line h
  obtain ⟨time', pairs', htime', hpairs', htext'⟩ := parts_of_line h'
  have htimes : time = time' := Except.ok.inj (htime.symm.trans htime')
  subst htimes
  have hperm := perm_of_sortedPairs (haveTextKeys_of_isClearPair he) hpairs
  have hperm' := perm_of_sortedPairs (haveTextKeys_of_isClearPair hc) hpairs'
  rw [htext', lineOf, lineOf, joined_append_pairs (by simp), joined_append_pairs (by simp)] at htext
  have hsame : pairs = pairs' :=
    spacedPairs_inj (fun p hp => he p (hperm.subset hp)) (fun p hp => hc p (hperm'.subset hp))
      (List.append_cancel_left htext).symm
  rw [hsame] at hperm
  exact hperm.symm.trans hperm'

end Console

namespace Renderer

theorem line_of_texts {output colors : Value} {showTimestamp : Bool} {entry : LogEntry}
    {texts : List (Stream × String)}
    (h : (console output colors showTimestamp).texts entry = .ok texts) :
    ∃ cs, Console.line (palette colors) showTimestamp entry = .ok cs ∧ ∃ stream,
      texts = [(stream, String.ofList (cs ++ ['\n']))] := by
  obtain ⟨cs, hline, h⟩ := except_bind_ok h
  cases output with
  | stream stream =>
      cases h
      exact ⟨cs, hline, stream, rfl⟩
  | _ => cases h

/-- **What the console writes determines the context.**  Two entries that differ in their contexts
at most have the same pairs if the console writes the same line for both without colours, provided
that keys and values are texts, no key has an equals sign in it, and no value that is not quoted
begins with a quote. -/
theorem line_determines_context {entry : LogEntry} {context : Entries}
    (he : ∀ p ∈ entry.context, Console.IsClearPair p) (hc : ∀ p ∈ context, Console.IsClearPair p)
    {output colors : Value} (hcolors : colors.isTruthy = false) {showTimestamp : Bool} {s t : Store}
    (h : (console output colors showTimestamp).render entry s = .ok () t)
    (h' : (console output colors showTimestamp).render { entry with context } s = .ok () t) :
    entry.context.Perm context := by
  obtain ⟨texts, htexts, rfl⟩ := texts_of_render_ok h
  obtain ⟨texts', htexts', hsame⟩ := texts_of_render_ok h'
  have hwritten : texts = texts' := List.append_cancel_left (congrArg Store.written hsame)
  subst hwritten
  obtain ⟨cs, hline, stream, htext⟩ := line_of_texts htexts
  obtain ⟨cs', hline', stream', htext'⟩ := line_of_texts htexts'
  rw [htext, List.cons.injEq, Prod.mk.injEq] at htext'
  have hcs : cs = cs' := List.append_cancel_right (String.ofList_injective htext'.1.2)
  subst hcs
  have hplain : palette colors = .plain := by
    rw [palette, hcolors]
    rfl
  rw [hplain] at hline hline'
  exact Console.perm_of_line_eq he hc hline hline'

/-- What a console without colours and times writes. -/
theorem render_of_sortedPairs {entry : LogEntry} {pairs : Entries}
    (h : Console.sortedPairs entry.context = .ok pairs) (he : entry.event.isWritable = true)
    (hw : Value.areEntriesWritable pairs = true) (stream : Stream) (s : Store) :
    (console (.stream stream) .absent false).render entry s =
      .ok () (s.writes
        [(stream, String.ofList (Console.lineOf .plain entry [] pairs ++ ['\n']))]) :=
  render_of_texts (texts_console rfl h he hw stream) s

/-- Values with blanks, quotes and equals signs, in two orders of the keys. -/
theorem line_determines_context_blanks :
    let entry : LogEntry := ⟨.zero, "info", .text "saved",
      [(.text "name", .text "o'hara = x"), (.text "file", .text "a=b")]⟩
    let context : Entries := [(.text "file", .text "a=b"), (.text "name", .text "o'hara = x")]
    ∃ t, (console (.stream .stderr) .absent false).render entry {} = .ok () t ∧
      (console (.stream .stderr) .absent false).render { entry with context } {} = .ok () t ∧
      t.written = [(.stderr, "[info] saved file=a=b name=\x22o'hara = x\x22\n")] ∧
      entry.context.Perm context := by
  intro entry context
  have hfile : Console.IsClearPair (.text "file", .text "a=b") :=
    ⟨_, _, rfl, by decide, .inr fun c hc => by cases hc; decide⟩
  have hname : Console.IsClearPair (.text "name", .text "o'hara = x") :=
    ⟨_, _, rfl, by decide, .inl rfl⟩
  have hpairs : Console.sortedPairs entry.context = .ok context :=
    (Console.sortedPairs_pair (by decide) ..).2
  have hpairs' : Console.sortedPairs { entry with context }.context = .ok context :=
    (Console.sortedPairs_pair (by decide) ..).1
  have h := render_of_sortedPairs hpairs rfl rfl .stderr {}
  have h' := render_of_sortedPairs hpairs' rfl rfl .stderr {}
  refine ⟨_, h, h', by decide +kernel, line_determines_context ?_ ?_ rfl h h'⟩
  · simp [entry, hfile, hname]
  · simp [context, hfile, hname]

/-- Two values that are not quoted make one that is: the first begins with a quote, and the second
ends with one. -/
theorem same_line_of_opening_quote :
    let entry : LogEntry := ⟨.zero, "info", .text "saved",
      [(.text "a", .text "'x"), (.text "b", .text "y'")]⟩
    let context : Entries := [(.text "a", .text "x b=y")]
    ∃ t, (console (.stream .stderr) .absent false).render entry {} = .ok () t ∧
      (console (.stream .stderr) .absent false).render { entry with context } {} = .ok () t ∧
      t.written = [(.stderr, "[info] saved a='x b=y'\n")] ∧
      ¬entry.context.Perm context := by
  intro entry context
  have hpairs : Console.sortedPairs entry.context = .ok entry.context :=
    (Console.sortedPairs_pair (by decide) ..).1
  have hpairs' : Console.sortedPairs { entry with context }.context = .ok context :=
    Console.sortedPairs_singleton ..
  have hsame : Console.lineOf .plain entry [] entry.context =
      Console.lineOf .plain { entry with context } [] context := by
    decide +kernel
  have h := render_of_sortedPairs hpairs rfl rfl .stderr {}
  have h' := render_of_sortedPairs hpairs' rfl rfl .stderr {}
  rw [← hsame] at h'
  exact ⟨_, h, h', by decide +kernel, fun hperm => absurd hperm.length_eq (by decide)⟩

end Renderer

end Accrual
