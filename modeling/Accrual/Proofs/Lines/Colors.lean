import Accrual.Proofs.Lines.Pairs

/-!
# Colours do not change the content

A terminal takes an escape character, a bracket, a row of digits and semicolons
and the letter `m` for one code and shows all other characters (`pieces`).  The
codes that a line is coloured with are complete, so that no text next to one can
become a part of it, and a text without escape characters holds no part of
another one.  What is shown of a coloured line is therefore the line without
colours (`Stretch.shown_flatMap`).

A coloured line is a row of stretches, each with a code in front and a reset
behind (`line_stretches`).  Only the level has no code in front if it has no
colour of its own; its stretch is reset all the same.
-/

namespace Accrual.Console

/-! ### What a terminal reads -/

def escape : Char := '\x1b'

def isParameter (c : Char) : Bool := c.isDigit || c == ';'

/-- The parameters of the code that a text begins with, and what follows the code. -/
def code? : List Char → Option (String × List Char)
  | c :: d :: rest =>
      if c = escape ∧ d = '[' ∧ (rest.dropWhile isParameter).head? = some 'm' then
        some (String.ofList (rest.takeWhile isParameter), (rest.dropWhile isParameter).tail)
      else none
  | _ => none

inductive Piece
  | char (c : Char)
  | code (parameters : String)

def Piece.char? : Piece → Option Char
  | char c => some c
  | code _ => none

theorem length_of_code? {cs rest : List Char} {parameters : String}
    (h : code? cs = some (parameters, rest)) : rest.length < cs.length := by
  match cs with
  | [] | [c] => cases h
  | c :: d :: cs =>
      rw [code?] at h
      split at h
      next =>
        cases h
        have hdrop := (List.dropWhile_sublist isParameter (l := cs)).length_le
        simp only [List.length_tail, List.length_cons]
        omega
      next => cases h

/-- A text as a terminal reads it, from the front. -/
def pieces : List Char → List Piece
  | [] => []
  | c :: cs =>
      match _h : code? (c :: cs) with
      | some (parameters, rest) => .code parameters :: pieces rest
      | none => .char c :: pieces cs
termination_by cs => cs.length
decreasing_by
  · exact length_of_code? _h
  · exact Nat.lt_succ_self cs.length

/-- A text without its codes. -/
def shown (cs : List Char) : List Char := (pieces cs).filterMap Piece.char?

theorem pieces_nil : pieces [] = [] := by rw [pieces]

theorem pieces_of_code? {cs rest : List Char} {parameters : String}
    (h : code? cs = some (parameters, rest)) : pieces cs = .code parameters :: pieces rest := by
  cases cs with
  | nil => cases h
  | cons c cs =>
      rw [pieces]
      split
      next h' =>
        cases h'.symm.trans h
        rfl
      next h' => cases h'.symm.trans h

theorem pieces_cons_of_ne {c : Char} (h : c ≠ escape) (cs : List Char) :
    pieces (c :: cs) = .char c :: pieces cs := by
  have hcode : code? (c :: cs) = none := by
    cases cs with
    | nil => rfl
    | cons d cs => exact if_neg fun hall => h hall.1
  rw [pieces]
  split
  next h' => cases h'.symm.trans hcode
  next => rfl

theorem code?_code {parameters : String} (h : ∀ c ∈ parameters.toList, isParameter c = true)
    (rest : List Char) : code? (code parameters ++ rest) = some (parameters, rest) := by
  have hstop : ∀ c, ('m' :: rest).head? = some c → isParameter c = false := by
    rintro c ⟨⟩
    rfl
  have htake := takeWhile_append_of_stop h hstop
  have hdrop : (parameters.toList ++ 'm' :: rest).dropWhile isParameter = 'm' :: rest := by
    rw [List.dropWhile_append_of_pos h]
    rfl
  have htext : code parameters ++ rest = escape :: '[' :: (parameters.toList ++ 'm' :: rest) := by
    simp [code, escape]
  rw [htext, code?, htake, hdrop, if_pos ⟨rfl, rfl, rfl⟩, String.ofList_toList]
  rfl

/-- **A code is read** whatever follows it. -/
theorem pieces_code {parameters : String} (h : ∀ c ∈ parameters.toList, isParameter c = true)
    (rest : List Char) : pieces (code parameters ++ rest) = .code parameters :: pieces rest :=
  pieces_of_code? (code?_code h rest)

/-- **A text without escapes is shown** whatever follows it. -/
theorem pieces_text {cs : List Char} (h : escape ∉ cs) (rest : List Char) :
    pieces (cs ++ rest) = cs.map .char ++ pieces rest := by
  induction cs with
  | nil => rfl
  | cons c cs ih =>
      rw [List.mem_cons, not_or] at h
      rw [List.cons_append, pieces_cons_of_ne (Ne.symm h.1), ih h.2]
      rfl

/-! ### Stretches -/

/-- A stretch of a coloured line with the text ahead of it and behind it.  The code in front of the
stretch is told by its parameters. -/
structure Stretch where
  ahead : List Char
  opening : Option String
  inner : List Char
  behind : List Char

def reset : String := "0"

namespace Stretch

def colored (s : Stretch) : List Char :=
  s.ahead ++ s.opening.elim [] code ++ s.inner ++ code reset ++ s.behind

def plain (s : Stretch) : List Char := s.ahead ++ s.inner ++ s.behind

def pieces (s : Stretch) : List Piece :=
  s.ahead.map .char ++ (s.opening.map .code).toList ++ s.inner.map .char ++
    .code reset :: s.behind.map .char

/-- The code in front is complete, and it is not the one that resets. -/
def IsOpened (s : Stretch) : Prop :=
  ∀ parameters, s.opening = some parameters →
    parameters ≠ reset ∧ ∀ c ∈ parameters.toList, isParameter c = true

theorem pieces_colored {s : Stretch} (hs : s.IsOpened) (h : escape ∉ s.plain) (rest : List Char) :
    Console.pieces (s.colored ++ rest) = s.pieces ++ Console.pieces rest := by
  simp only [plain, List.mem_append, not_or] at h
  obtain ⟨⟨hahead, hinner⟩, hbehind⟩ := h
  have hreset : ∀ c ∈ reset.toList, isParameter c = true := List.all_eq_true.mp rfl
  have hopening : ∀ rest, Console.pieces (s.opening.elim [] code ++ rest) =
      (s.opening.map Piece.code).toList ++ Console.pieces rest := by
    intro rest
    cases ho : s.opening with
    | none => rfl
    | some parameters => exact pieces_code (hs parameters ho).2 rest
  simp only [colored, pieces, List.append_assoc]
  rw [pieces_text hahead, hopening, pieces_text hinner, pieces_code hreset, pieces_text hbehind]
  simp

theorem shown_pieces (s : Stretch) : s.pieces.filterMap Piece.char? = s.plain := by
  have htext : ∀ cs : List Char, (cs.map Piece.char).filterMap Piece.char? = cs := fun cs => by
    rw [List.filterMap_map]
    exact List.filterMap_some
  have hopening : (s.opening.map Piece.code).toList.filterMap Piece.char? = [] := by
    cases s.opening <;> rfl
  have hreset : Piece.char? (.code reset) = none := rfl
  simp only [pieces, plain, List.filterMap_append, htext, hopening, List.append_nil,
    List.filterMap_cons_none hreset]

/-- **A row of stretches** is read stretch by stretch. -/
theorem pieces_flatMap {stretches : List Stretch} (hs : ∀ s ∈ stretches, s.IsOpened)
    (h : escape ∉ stretches.flatMap plain) :
    Console.pieces (stretches.flatMap colored) = stretches.flatMap pieces := by
  induction stretches with
  | nil => exact pieces_nil
  | cons s stretches ih =>
      obtain ⟨hs, hrest⟩ := List.forall_mem_cons.mp hs
      rw [List.flatMap_cons, List.mem_append, not_or] at h
      rw [List.flatMap_cons, pieces_colored hs h.1, ih hrest h.2, List.flatMap_cons]

/-- **What is shown of coloured stretches** is their text. -/
theorem shown_flatMap {stretches : List Stretch} (hs : ∀ s ∈ stretches, s.IsOpened)
    (h : escape ∉ stretches.flatMap plain) :
    shown (stretches.flatMap colored) = stretches.flatMap plain := by
  rw [shown, pieces_flatMap hs h, List.filterMap_flatMap]
  exact congrArg (stretches.flatMap ·) (funext shown_pieces)

/-- The last code of a row of stretches is a reset, so that one follows every other code. -/
theorem reset_mem_of_flatMap {stretches : List Stretch} {before after : List Piece}
    {parameters : String} (h : stretches.flatMap pieces = before ++ .code parameters :: after)
    (hne : parameters ≠ reset) : .code reset ∈ after := by
  obtain rfl | ⟨front, last, rfl⟩ := List.eq_nil_or_concat stretches
  · simp at h
  · have hlast : ∀ xs : List Piece, xs ++ .code reset :: last.behind.map .char =
        before ++ .code parameters :: after → .code reset ∈ after := by
      intro xs hsplit
      obtain ⟨more, -, hmore⟩ | ⟨more, -, hmore⟩ := List.append_eq_append_iff.mp hsplit
      · -- the reset stands before the code, but only text stands behind it
        cases more with
        | nil => exact absurd (Piece.code.inj (List.cons.inj hmore).1).symm hne
        | cons piece more =>
            have hmem : Piece.code parameters ∈ last.behind.map .char := by
              rw [(List.cons.inj hmore).2]
              simp
            simp at hmem
      · cases more with
        | nil => exact absurd (Piece.code.inj (List.cons.inj hmore).1) hne
        | cons piece more =>
            rw [(List.cons.inj hmore).2]
            simp
    refine hlast (front.flatMap pieces ++ (last.ahead.map .char ++
      (last.opening.map .code).toList ++ last.inner.map .char)) ?_
    rw [← h]
    simp [pieces]

def spaced (s : Stretch) : Stretch := { s with ahead := ' ' :: s.ahead }

end Stretch

def spacedStretches : List Stretch → List Stretch
  | [] => []
  | s :: rest => s :: rest.map Stretch.spaced

theorem joined_stretches {write : Stretch → List Char}
    (h : ∀ s : Stretch, write s.spaced = ' ' :: write s) (stretches : List Stretch) :
    joined (stretches.map write) = (spacedStretches stretches).flatMap write := by
  cases stretches with
  | nil => rfl
  | cons s rest =>
      rw [List.map_cons, joined_cons, spacedStretches, List.flatMap_cons, List.flatMap_map,
        List.flatMap_map]
      simp only [h]

/-! ### Lines as stretches -/

def levelOpening : String → Option String
  | "debug" => some "34"
  | "info" => some "32"
  | "warning" => some "33"
  | "error" => some "31"
  | "critical" => some "1;31"
  | _ => none

theorem levelCode_eq (level : String) : levelCode level = (levelOpening level).elim [] code := by
  unfold levelCode
  split
  case h_6 => simp_all [levelOpening]
  all_goals rfl

def shownTime (showTimestamp : Bool) (entry : LogEntry) : Except Error (Option (List Char)) :=
  if showTimestamp then some <$> entry.humanTime else .ok none

def entryStretches (entry : LogEntry) (time : Option (List Char)) (pairs : Entries) :
    List Stretch :=
  (time.map fun cs => ⟨[], some "2", cs, []⟩).toList ++
    [⟨[], levelOpening entry.level, '[' :: entry.level.toList ++ [']'], []⟩,
      ⟨[], some "1", entry.event.plain, []⟩] ++
    pairs.map fun pair => ⟨[], some "36", pair.1.plain, '=' :: formatValue pair.2⟩

def lineStretches (showTimestamp : Bool) (entry : LogEntry) : Except Error (List Stretch) := do
  let time ← shownTime showTimestamp entry
  let pairs ← shownPairs entry
  return entryStretches entry time pairs

/-- The stretches come out of the line as a palette writes them. -/
structure Palette.Writes (palette : Palette) (write : Stretch → List Char) : Prop where
  dim : ∀ cs, write ⟨[], some "2", cs, []⟩ = palette.dim ++ cs ++ palette.reset
  bold : ∀ cs, write ⟨[], some "1", cs, []⟩ = palette.bold ++ cs ++ palette.reset
  cyan : ∀ cs rest, write ⟨[], some "36", cs, rest⟩ = palette.cyan ++ cs ++ palette.reset ++ rest
  level : ∀ level cs,
    write ⟨[], levelOpening level, cs, []⟩ = palette.level level ++ cs ++ palette.reset

theorem Palette.writes_colored : Palette.colored.Writes Stretch.colored where
  dim cs := by simp [Stretch.colored, Palette.colored, Console.reset]
  bold cs := by simp [Stretch.colored, Palette.colored, Console.reset]
  cyan cs rest := by simp [Stretch.colored, Palette.colored, Console.reset]
  level level cs := by simp [Stretch.colored, Palette.colored, Console.reset, levelCode_eq]

theorem Palette.writes_plain : Palette.plain.Writes Stretch.plain where
  dim cs := by simp [Stretch.plain, Palette.plain]
  bold cs := by simp [Stretch.plain, Palette.plain]
  cyan cs rest := by simp [Stretch.plain, Palette.plain]
  level level cs := by simp [Stretch.plain, Palette.plain]

theorem timePart_eq (palette : Palette) (showTimestamp : Bool) (entry : LogEntry) :
    timePart palette showTimestamp entry =
      (fun time => (time.map fun cs => palette.dim ++ cs ++ palette.reset).toList) <$>
        shownTime showTimestamp entry := by
  cases showTimestamp with
  | false => rfl
  | true =>
      change (entry.humanTime >>= _) = _ <$> (some <$> entry.humanTime)
      cases entry.humanTime <;> rfl

theorem Palette.Writes.parts {palette : Palette} {write : Stretch → List Char}
    (h : palette.Writes write) (entry : LogEntry) (time : Option (List Char)) (pairs : Entries) :
    (time.map fun cs => palette.dim ++ cs ++ palette.reset).toList ++
        [palette.level entry.level ++ '[' :: entry.level.toList ++ ']' :: palette.reset,
          palette.bold ++ entry.event.plain ++ palette.reset] ++ pairs.map (formatPair palette) =
      (entryStretches entry time pairs).map write := by
  have hpairs : (pairs.map fun pair => write
      ⟨[], some "36", pair.1.plain, '=' :: formatValue pair.2⟩) = pairs.map (formatPair palette) :=
    List.map_congr_left fun pair _ => by simp [h.cyan, formatPair]
  cases time <;> simp [entryStretches, h.dim, h.bold, h.level, Function.comp_def, hpairs]

/-- **A line is a row of stretches**, coloured or not. -/
theorem line_stretches {palette : Palette} {write : Stretch → List Char}
    (h : palette.Writes write) (showTimestamp : Bool) (entry : LogEntry) :
    line palette showTimestamp entry =
      (fun stretches => joined (stretches.map write)) <$> lineStretches showTimestamp entry := by
  rw [line_eq, lineStretches, timePart_eq]
  cases shownTime showTimestamp entry with
  | error error => rfl
  | ok time =>
      cases shownPairs entry with
      | error error => rfl
      | ok pairs => exact congrArg Except.ok (congrArg joined (h.parts entry time pairs))

/-! ### Which stretches have no code in front -/

theorem isOpened_of_opening {ahead inner behind : List Char} {opening : Option String}
    (h : ∀ parameters ∈ opening,
      parameters ≠ reset ∧ parameters.toList.all isParameter = true) :
    Stretch.IsOpened ⟨ahead, opening, inner, behind⟩ := fun parameters hp =>
  (h parameters hp).imp_right List.all_eq_true.mp

theorem isOpened_levelOpening (level : String) (inner : List Char) :
    Stretch.IsOpened ⟨[], levelOpening level, inner, []⟩ := by
  refine isOpened_of_opening ?_
  unfold levelOpening
  split
  case h_6 => simp
  all_goals
    rintro _ ⟨⟩
    decide

theorem isOpened_entryStretches (entry : LogEntry) (time : Option (List Char)) (pairs : Entries) :
    ∀ s ∈ entryStretches entry time pairs, s.IsOpened := by
  have hcode : ∀ {opening : String} {inner behind : List Char}, opening ∈ ["2", "1", "36"] →
      Stretch.IsOpened ⟨[], some opening, inner, behind⟩ := by
    intro opening inner behind hmem
    refine isOpened_of_opening ?_
    rintro _ ⟨⟩
    revert opening
    decide
  intro s hs
  simp only [entryStretches, List.mem_append, Option.mem_toList, Option.map_eq_some_iff,
    List.mem_cons, List.not_mem_nil, or_false, List.mem_map] at hs
  obtain (⟨cs, -, rfl⟩ | rfl | rfl) | ⟨pair, -, rfl⟩ := hs
  · exact hcode (by simp)
  · exact isOpened_levelOpening _ _
  · exact hcode (by simp)
  · exact hcode (by simp)

theorem isOpened_spacedStretches {stretches : List Stretch} (h : ∀ s ∈ stretches, s.IsOpened) :
    ∀ s ∈ spacedStretches stretches, s.IsOpened := by
  cases stretches with
  | nil => exact h
  | cons s rest =>
      obtain ⟨hs, hrest⟩ := List.forall_mem_cons.mp h
      refine List.forall_mem_cons.mpr ⟨hs, List.forall_mem_map.mpr fun s hm => ?_⟩
      exact hrest s hm

/-- The stretches that are reset without a code in front of them. -/
def unopened (stretches : List Stretch) : List (List Char) :=
  (stretches.filter fun s => s.opening.isNone).map Stretch.inner

theorem unopened_spacedStretches (stretches : List Stretch) :
    unopened (spacedStretches stretches) = unopened stretches := by
  cases stretches with
  | nil => rfl
  | cons s rest =>
      have hrest : (rest.map Stretch.spaced).filter (fun s => s.opening.isNone) =
          (rest.filter fun s => s.opening.isNone).map Stretch.spaced := List.filter_map
      rw [spacedStretches, unopened, unopened, List.filter_cons, List.filter_cons, hrest]
      split <;> simp [Stretch.spaced]

theorem levelCode_eq_nil (level : String) : levelCode level = [] ↔ levelOpening level = none := by
  rw [levelCode_eq]
  cases levelOpening level with
  | none => exact iff_of_true rfl rfl
  | some parameters => exact iff_of_false (List.cons_ne_nil _ _) (Option.some_ne_none _)

/-- **Only a level without a colour of its own** is reset without a code in front. -/
theorem unopened_entryStretches (entry : LogEntry) (time : Option (List Char)) (pairs : Entries) :
    unopened (entryStretches entry time pairs) =
      if levelCode entry.level = [] then ['[' :: entry.level.toList ++ [']']] else [] := by
  simp only [levelCode_eq_nil, unopened, entryStretches]
  cases time <;> cases levelOpening entry.level <;> simp [List.filter_map, Function.comp_def]

theorem shownTime_error {showTimestamp : Bool} {entry : LogEntry} {error : Error}
    (h : shownTime showTimestamp entry = .error error) :
    showTimestamp = true ∧ momentOf entry.time.micros = .error error := by
  cases showTimestamp with
  | false => cases h
  | true =>
      rw [shownTime, if_pos rfl, LogEntry.humanTime] at h
      cases hm : momentOf entry.time.micros with
      | error _ =>
          rw [hm] at h
          cases h
          exact ⟨rfl, rfl⟩
      | ok _ =>
          rw [hm] at h
          cases h

theorem lineStretches_cases {entry : LogEntry} (hk : entry.context.HaveTextKeys)
    (showTimestamp : Bool) :
    (∃ error, (showTimestamp = true ∧ momentOf entry.time.micros = .error error ∨
        ¬entry.IsWritable ∧ error = .numberTooLong) ∧
      lineStretches showTimestamp entry = .error error) ∨
    ∃ time pairs, lineStretches showTimestamp entry = .ok (entryStretches entry time pairs) := by
  rw [lineStretches]
  cases ht : shownTime showTimestamp entry with
  | error error => exact .inl ⟨error, .inl (shownTime_error ht), rfl⟩
  | ok time =>
      by_cases hw : entry.IsWritable
      · obtain ⟨pairs, hpairs⟩ := shownPairs_ok hk hw
        rw [hpairs]
        exact .inr ⟨time, pairs, rfl⟩
      · rw [shownPairs_refused hk hw]
        exact .inl ⟨_, .inr ⟨hw, rfl⟩, rfl⟩

end Accrual.Console

namespace Accrual.Renderer

open Console

theorem render_console_of_line {entry : LogEntry} {colors : Value} {showTimestamp : Bool}
    {cs : List Char} (h : line (palette colors) showTimestamp entry = .ok cs) (stream : Stream)
    (s : Store) : (console (.stream stream) colors showTimestamp).render entry s =
      .ok () (s.writes [(stream, String.ofList (cs ++ ['\n']))]) := by
  refine render_of_texts ?_ s
  change line (palette colors) showTimestamp entry >>= lineTo (.stream stream) = _
  rw [h]
  rfl

theorem render_console_of_line_error {entry : LogEntry} {colors : Value} {showTimestamp : Bool}
    {error : Error} (h : line (palette colors) showTimestamp entry = .error error) (output : Value)
    (s : Store) : (console output colors showTimestamp).render entry s = .error error s := by
  refine render_of_texts_error ?_ s
  change line (palette colors) showTimestamp entry >>= lineTo output = _
  rw [h]
  rfl

/-- **Colours keep the content.**  An entry whose context has texts for keys is written with colours
and without, or not at all where its time has no written form or a number is too long to be written
out.  If the line without colours holds no escape character, then it is what is shown of the
coloured line.  The coloured line is a row of stretches, each of them reset, so that a reset follows
every code that opens one; and a stretch that no code opens is that of a level without a colour of
its own. -/
theorem colors_keep_content {entry : LogEntry} (hk : entry.context.HaveTextKeys)
    {on off : Value} (hon : on.isTruthy = true) (hoff : off.isTruthy = false) (stream : Stream)
    (showTimestamp : Bool) (s : Store) :
    (∃ error, (showTimestamp = true ∧ momentOf entry.time.micros = .error error ∨
        ¬entry.IsWritable ∧ error = .numberTooLong) ∧
      (console (.stream stream) on showTimestamp).render entry s = .error error s ∧
      (console (.stream stream) off showTimestamp).render entry s = .error error s) ∨
    ∃ colored plain : List Char,
      (console (.stream stream) on showTimestamp).render entry s =
        .ok () (s.writes [(stream, String.ofList (colored ++ ['\n']))]) ∧
      (console (.stream stream) off showTimestamp).render entry s =
        .ok () (s.writes [(stream, String.ofList (plain ++ ['\n']))]) ∧
      (escape ∉ plain →
        shown colored = plain ∧
        (∃ stretches : List Stretch, pieces colored = stretches.flatMap Stretch.pieces ∧
          (∀ stretch ∈ stretches, stretch.opening ≠ some reset) ∧
          unopened stretches =
            if levelCode entry.level = [] then ['[' :: entry.level.toList ++ [']']] else []) ∧
        ∀ before parameters after, pieces colored = before ++ .code parameters :: after →
          parameters ≠ reset → .code reset ∈ after) := by
  have hpaletteOn : palette on = .colored := by rw [palette, hon]; rfl
  have hpaletteOff : palette off = .plain := by rw [palette, hoff]; rfl
  have hcolored := line_stretches Palette.writes_colored showTimestamp entry
  have hplain := line_stretches Palette.writes_plain showTimestamp entry
  rw [← hpaletteOn] at hcolored
  rw [← hpaletteOff] at hplain
  obtain ⟨error, hwhy, hline⟩ | ⟨time, pairs, hline⟩ := lineStretches_cases hk showTimestamp
  · rw [hline] at hcolored hplain
    exact .inl ⟨error, hwhy, render_console_of_line_error hcolored _ s,
      render_console_of_line_error hplain _ s⟩
  · rw [hline] at hcolored hplain
    refine .inr ⟨joined ((entryStretches entry time pairs).map Stretch.colored),
      joined ((entryStretches entry time pairs).map Stretch.plain),
      render_console_of_line hcolored stream s, render_console_of_line hplain stream s,
      fun hescape => ?_⟩
    have hopened := isOpened_spacedStretches (isOpened_entryStretches entry time pairs)
    rw [joined_stretches fun _ => rfl] at hescape
    have hpieces := Stretch.pieces_flatMap hopened hescape
    rw [joined_stretches fun _ => rfl, joined_stretches fun _ => rfl, hpieces]
    refine ⟨Stretch.shown_flatMap hopened hescape, ⟨_, rfl, fun stretch hm ho => ?_, ?_⟩,
      fun before parameters after h hne => Stretch.reset_mem_of_flatMap h hne⟩
    · exact (hopened stretch hm _ ho).1 rfl
    · rw [unopened_spacedStretches, unopened_entryStretches]

/-- Texts that look like parts of a code, next to codes, and a level without a colour. -/
theorem colors_keep_content_lookalike :
    let entry : LogEntry :=
      ⟨.zero, "notice", .text "31m", [(.text "[0m", .text "m;2")]⟩
    ∃ colored, (console (.stream .stderr) (.bool true) false).render entry {} =
        .ok () (Store.writes [(.stderr, String.ofList (colored ++ ['\n']))] {}) ∧
      shown colored = "[notice] 31m [0m=m;2".toList := by
  intro entry
  have hpairs : sortedPairs entry.context = .ok entry.context := sortedPairs_singleton ..
  have hkeys : entry.context.HaveTextKeys := by simp [Entries.HaveTextKeys, entry]
  have hwritable : entry.IsWritable := ⟨rfl, List.forall_mem_singleton.mpr rfl⟩
  obtain ⟨_, ⟨ht, -⟩ | ⟨hnot, -⟩, -⟩ | ⟨colored, plain, hcolored, hplain, hshown⟩ :=
    @colors_keep_content entry hkeys (.bool true) .absent rfl rfl .stderr false {}
  · cases ht
  · exact absurd hwritable hnot
  · have hwritten := (render_of_sortedPairs hpairs rfl rfl .stderr {}).symm.trans hplain
    have hline : lineOf .plain entry [] entry.context = plain := by
      have htexts := congrArg Store.written (EStateM.Result.ok.inj hwritten).2
      have htext := (Prod.mk.inj (List.cons.inj htexts).1).2
      exact List.append_cancel_right (String.ofList_injective htext)
    have htext : lineOf .plain entry [] entry.context = "[notice] 31m [0m=m;2".toList := by
      decide +kernel
    rw [← hline, htext] at hshown
    exact ⟨colored, hcolored, (hshown (by decide)).1⟩

end Accrual.Renderer
