import Mathlib.Data.List.DropRight
import ValidatorGen.Fixture.Verdict
import ValidatorGen.Text.Lines

/-!
# Normal forms of sources

How the normal form of a source comes about line by line, and which sources are brought into it in
one step. One carriage return is taken away at the end of a line, and one run of blanks before it.
When this uncovers another carriage return, the line ends in it, and a second step takes it away as
part of the line end. The last line with anything on it is an exception, because everything blank is
trimmed off it.

Three steps make up a normal form: line ends lose their carriage return, blanks before line ends are
dropped, and everything blank at the end of the text is trimmed. The steps go over the text
character by character and keep what they have passed in hand, which tells nothing about lines. So
the lines come first here. `dropReturn` and `dropGap` say what becomes of a single line, and
`unixEnds_append` and `dropGaps_append` show that the steps do this to each line of a text.
Everything after that is by induction on the lines (`Text.lines_induction`).

The exception for the last line makes the condition in `KeepsReturn` what it is: a line counts only
if something else than blanks follows it.

Main results:

* `normalChars_append` — the lines of a source are cleaned one by one;
* `cleanLine_cleanLine_iff`, `cleanLine_getLast?_iff` — a line is clean after one step if no
  carriage return is left at its end, and when one is left;
* `normalChars_normalChars_iff` — the sources that one step brings into normal form;
* `normalize_normalize_iff` — the same for fixtures: these are the sources whose normal form can be
  stored in place of the source.
-/

namespace ValidatorGen

namespace Text

/-! ## Trimming -/

/-- What is taken off the end of a text goes on into the part before if nothing is left of the last
part. -/
theorem rdropWhile_append (p : Char → Bool) (xs ys : List Char) :
    (xs ++ ys).rdropWhile p = if ys.all p then xs.rdropWhile p else xs ++ ys.rdropWhile p := by
  induction ys using List.reverseRecOn with
  | nil => rw [List.append_nil, List.all_nil, if_pos rfl]
  | append_singleton ys c ih =>
    rw [← List.append_assoc, List.rdropWhile_concat, List.rdropWhile_concat, ih]
    by_cases hc : p c = true <;> simp [hc]

theorem trimEnd_trimEnd (cs : List Char) : trimEnd (trimEnd cs) = trimEnd cs :=
  List.rdropWhile_idempotent isBlank cs

theorem trimEnd_eq_nil_iff {cs : List Char} : trimEnd cs = [] ↔ ∀ c ∈ cs, isBlank c = true :=
  List.rdropWhile_eq_nil_iff

/-- Blanks that are put after a text are trimmed with it. -/
theorem trimEnd_append_of_blank (xs : List Char) {ys : List Char}
    (h : ∀ c ∈ ys, isBlank c = true) : trimEnd (xs ++ ys) = trimEnd xs :=
  (rdropWhile_append isBlank xs ys).trans (if_pos (List.all_eq_true.2 h))

/-- Nothing is trimmed off a text that something else than blanks is put after. -/
theorem trimEnd_append_of_not_blank (xs : List Char) {ys : List Char}
    (h : ¬ ∀ c ∈ ys, isBlank c = true) : trimEnd (xs ++ ys) = xs ++ trimEnd ys :=
  (rdropWhile_append isBlank xs ys).trans (if_neg (mt List.all_eq_true.1 h))

/-- Trimming a part in advance makes no difference to the whole. -/
theorem trimEnd_append_trimEnd (xs ys : List Char) :
    trimEnd (xs ++ trimEnd ys) = trimEnd (xs ++ ys) := by
  by_cases h : ∀ c ∈ ys, isBlank c = true
  · rw [trimEnd_append_of_blank xs h, trimEnd_eq_nil_iff.2 h, List.append_nil]
  · have hTrimmed : ¬ ∀ c ∈ trimEnd ys, isBlank c = true := by
      rwa [← trimEnd_eq_nil_iff, trimEnd_trimEnd, trimEnd_eq_nil_iff]
    rw [trimEnd_append_of_not_blank xs h, trimEnd_append_of_not_blank xs hTrimmed, trimEnd_trimEnd]

theorem mem_of_mem_trimEnd {c : Char} {cs : List Char} (h : c ∈ trimEnd cs) : c ∈ cs :=
  (List.rdropWhile_prefix isBlank cs).mem h

/-! ## Lines -/

/-- Texts line by line: a text is a line that is not ended, or an ended line and a text. A text that
is empty after its last line end has an empty line there. -/
theorem lines_induction {motive : List Char → Prop}
    (last : ∀ line : List Char, '\n' ∉ line → motive line)
    (ended : ∀ line rest : List Char, '\n' ∉ line → motive rest → motive (line ++ '\n' :: rest))
    (text : List Char) : motive text := by
  by_cases h : '\n' ∈ text
  · obtain ⟨line, rest, hText, hLine⟩ := List.eq_append_cons_of_mem h
    have hShorter : rest.length < text.length := by
      rw [hText, List.length_append, List.length_cons]
      omega
    exact hText ▸ ended line rest hLine (lines_induction last ended rest)
  · exact last text h
termination_by text.length

end Text

namespace Fixture

open Text

variable {line rest cs : List Char}

/-! ## One line -/

theorem isBlank_of_isGap {c : Char} (h : isGap c = true) : isBlank c = true := by
  simp only [isGap, Bool.or_eq_true, decide_eq_true_eq] at h
  rcases h with rfl | rfl <;> rfl

/-- A text that ends in a blank of the sort that is taken away before line ends. -/
def EndsInGap (cs : List Char) : Prop :=
  cs.getLast?.any isGap = true

instance (cs : List Char) : Decidable (EndsInGap cs) :=
  inferInstanceAs (Decidable (cs.getLast?.any isGap = true))

theorem endsInGap_iff : EndsInGap cs ↔ ∃ c, cs.getLast? = some c ∧ isGap c = true :=
  Option.any_eq_true ..

theorem not_endsInGap_nil : ¬ EndsInGap [] := Bool.false_ne_true

theorem endsInGap_append_iff (body : List Char) {c : Char} :
    EndsInGap (body ++ [c]) ↔ isGap c = true := by
  rw [EndsInGap, List.getLast?_concat, Option.any_some]

theorem not_endsInGap_rdropWhile (cs : List Char) : ¬ EndsInGap (cs.rdropWhile isGap) := by
  rw [endsInGap_iff]
  rintro ⟨c, hc, hGap⟩
  obtain ⟨hSome, rfl⟩ := List.mem_getLast?_eq_getLast hc
  exact List.rdropWhile_last_not isGap cs hSome hGap

/-- A line without the run of blanks at its end, or without that run and a carriage return after it.
A carriage return without blanks before it stays: the second step drops it with the blanks or not at
all. -/
def dropGap (line : List Char) : List Char :=
  if EndsInGap (dropReturn line) then (dropReturn line).rdropWhile isGap else line

/-- What is taken away: blanks, with a carriage return only if there are some. -/
theorem exists_dropGap_append (line : List Char) : ∃ gap ends, line = dropGap line ++ gap ++ ends ∧
    (∀ c ∈ gap, isGap c = true) ∧ (ends = [] ∨ ends = ['\r']) ∧
    (gap = [] → ends = [] ∧ ¬ EndsInGap (dropReturn line)) := by
  by_cases h : EndsInGap (dropReturn line)
  · have hSome : (dropReturn line).rtakeWhile isGap ≠ [] := by
      obtain ⟨c, hLast, hGap⟩ := endsInGap_iff.1 h
      obtain ⟨body, hBody⟩ := List.getLast?_eq_some_iff.1 hLast
      rw [hBody, List.rtakeWhile_concat_pos _ _ _ hGap]
      exact List.concat_ne_nil _ _
    have hParts : dropReturn line = dropGap line ++ (dropReturn line).rtakeWhile isGap := by
      rw [dropGap, if_pos h, List.rdropWhile_append_rtakeWhile]
    obtain hReturn | ⟨hSame, -⟩ := dropReturn_cases line
    · exact ⟨_, ['\r'], by rwa [← hParts], fun c hc => List.mem_rtakeWhile_imp hc, .inr rfl,
        fun hNil => absurd hNil hSome⟩
    · exact ⟨_, [], by rw [← hParts, hSame, List.append_nil],
        fun c hc => List.mem_rtakeWhile_imp hc, .inl rfl, fun hNil => absurd hNil hSome⟩
  · refine ⟨[], [], ?_, List.forall_mem_nil _, .inl rfl, fun _ => ⟨rfl, h⟩⟩
    rw [dropGap, if_neg h, List.append_nil, List.append_nil]

theorem dropGap_isPrefix (line : List Char) : dropGap line <+: line := by
  obtain ⟨gap, ends, h, -⟩ := exists_dropGap_append line
  exact ⟨gap ++ ends, by rw [← List.append_assoc, ← h]⟩

/-- What becomes of an ended line: the first step drops a carriage return at its end, the second one
the blanks before it, with one more carriage return if there is one behind them. -/
def cleanLine (line : List Char) : List Char :=
  dropGap (dropReturn line)

theorem rdropWhile_of_not_endsInGap (h : ¬ EndsInGap cs) : cs.rdropWhile isGap = cs :=
  List.rdropWhile_eq_self_iff.2 fun hSome hGap =>
    h (endsInGap_iff.2 ⟨cs.getLast hSome, List.getLast?_eq_some_getLast hSome, hGap⟩)

theorem endsInGap_append_iff_of_ne_nil (xs : List Char) (h : cs ≠ []) :
    EndsInGap (xs ++ cs) ↔ EndsInGap cs := by
  rw [EndsInGap, List.getLast?_append_of_ne_nil xs h, EndsInGap]

/-- Nothing before a character is affected that is neither a blank nor the carriage return at the
end. So a line can be read from the left, with only what stands after the last such character at
stake. -/
theorem dropGap_append_cons (xs : List Char) {c : Char} (hGap : isGap c = false)
    (hReturn : c = '\r' → cs ≠ []) : dropGap (xs ++ c :: cs) = xs ++ c :: dropGap cs := by
  have hStop : ¬ EndsInGap (xs ++ [c]) := by simp [endsInGap_append_iff, hGap]
  -- neither the return nor the blanks that are taken away can reach past `c`
  have hReturns : dropReturn (xs ++ c :: cs) = xs ++ [c] ++ dropReturn cs := by
    rw [List.append_cons]
    by_cases hNil : cs = []
    · have hLast : (xs ++ [c]).getLast? ≠ some '\r' := by
        rw [List.getLast?_concat]
        exact fun hSome => hReturn (Option.some.inj hSome) hNil
      rw [hNil, List.append_nil, dropReturn_of_getLast? hLast]
      exact (List.append_nil _).symm
    · exact dropReturn_append _ hNil
  have hDropped : (xs ++ [c] ++ dropReturn cs).rdropWhile isGap =
      xs ++ [c] ++ (dropReturn cs).rdropWhile isGap := by
    rw [rdropWhile_append]
    split
    next hAll => rw [rdropWhile_of_not_endsInGap hStop,
        List.rdropWhile_eq_nil_iff.2 (List.all_eq_true.1 hAll), List.append_nil]
    next => rfl
  rw [dropGap, hReturns, hDropped, dropGap]
  by_cases hLeft : dropReturn cs = []
  · rw [hLeft, List.append_nil, if_neg hStop, if_neg not_endsInGap_nil]
  · have hEnds : EndsInGap (xs ++ [c] ++ dropReturn cs) ↔ EndsInGap (dropReturn cs) :=
      endsInGap_append_iff_of_ne_nil _ hLeft
    by_cases h : EndsInGap (dropReturn cs)
    · rw [if_pos (hEnds.2 h), if_pos h]
      exact (List.append_cons ..).symm
    · rw [if_neg (mt hEnds.1 h), if_neg h]

theorem not_endsInGap_dropGap (line : List Char) : ¬ EndsInGap (dropGap line) := by
  by_cases h : EndsInGap (dropReturn line)
  · rw [dropGap, if_pos h]
    exact not_endsInGap_rdropWhile _
  · rw [dropGap, if_neg h]
    obtain hReturn | ⟨hSame, -⟩ := dropReturn_cases line
    · rw [hReturn, endsInGap_append_iff]
      exact Bool.false_ne_true
    · rwa [hSame] at h

theorem getLast?_ne_return_of_gap {gap : List Char} (hGap : ∀ c ∈ gap, isGap c = true) :
    gap.getLast? ≠ some '\r' := fun h =>
  absurd (hGap '\r' (List.mem_of_getLast? h)) (by decide)

/-- Of blanks nothing is left, whether or not a carriage return follows them. -/
theorem dropGap_of_gap {gap ends : List Char} (hGap : ∀ c ∈ gap, isGap c = true) (hSome : gap ≠ [])
    (hEnds : ends = [] ∨ ends = ['\r']) : dropGap (gap ++ ends) = [] := by
  have hLast : EndsInGap gap := endsInGap_iff.2
    ⟨gap.getLast hSome, List.getLast?_eq_some_getLast hSome, hGap _ (List.getLast_mem hSome)⟩
  have hReturns : dropReturn (gap ++ ends) = gap := by
    rcases hEnds with rfl | rfl
    · rw [List.append_nil]
      exact dropReturn_of_getLast? (getLast?_ne_return_of_gap hGap)
    · exact dropReturn_append_return gap
  rw [dropGap, hReturns, if_pos hLast, List.rdropWhile_eq_nil_iff.2 hGap]

/-! ## The lines of a source -/

theorem unixEnds_cons {c : Char} (h : c = '\r' → rest.head? ≠ some '\n') :
    unixEnds (c :: rest) = c :: unixEnds rest := by
  rw [unixEnds]
  rintro after rfl rfl
  exact h rfl rfl

/-- The first step drops one carriage return at the end of each line. -/
theorem unixEnds_append (hLine : '\n' ∉ line) :
    unixEnds (line ++ '\n' :: rest) = dropReturn line ++ '\n' :: unixEnds rest := by
  induction line with
  | nil => rfl
  | cons c line ih =>
    obtain ⟨hFirst, hRest⟩ := List.ne_and_not_mem_of_not_mem_cons hLine
    by_cases hNil : line = []
    · subst hNil
      by_cases hReturn : c = '\r'
      · subst hReturn
        rfl
      · rw [dropReturn_of_getLast? (by simpa using hReturn)]
        exact unixEnds_cons fun h => absurd h hReturn
    · -- the line goes on, so that no line end can begin here
      have hNext : (line ++ '\n' :: rest).head? ≠ some '\n' := fun hHead => by
        rw [List.head?_append_of_ne_nil _ hNil] at hHead
        exact hRest (List.mem_of_head? hHead)
      have hReturns : dropReturn (c :: line) = c :: dropReturn line := dropReturn_append [c] hNil
      rw [List.cons_append, unixEnds_cons fun _ => hNext, ih hRest, hReturns, List.cons_append]

theorem unixEnds_of_not_mem (h : '\n' ∉ cs) : unixEnds cs = cs := by
  induction cs with
  | nil => rfl
  | cons c cs ih =>
    obtain ⟨-, hRest⟩ := List.ne_and_not_mem_of_not_mem_cons h
    rw [unixEnds_cons fun _ hHead => hRest (List.mem_of_head? hHead), ih hRest]

section

variable {gap : List Char} {c : Char}

theorem dropGaps_cons_of_isGap (h : isGap c = true) :
    dropGaps gap (c :: rest) = dropGaps (c :: gap) rest := by
  have hFirst : ∀ after, c = '\r' → rest = '\n' :: after → False := by
    rintro _ rfl -
    exact absurd h (by decide)
  rw [dropGaps.eq_3 gap c rest hFirst, if_pos h]

theorem dropGaps_end (gap rest : List Char) :
    dropGaps gap ('\n' :: rest) = '\n' :: dropGaps [] rest := by
  rw [dropGaps.eq_3 gap '\n' rest fun _ h => absurd h (by decide), if_neg (by decide)]
  by_cases h : gap = []
  · rw [if_neg fun hBoth => hBoth.1 h, h]
    rfl
  · rw [if_pos ⟨h, rfl⟩]

theorem dropGaps_return (gap rest : List Char) :
    dropGaps gap ('\r' :: '\n' :: rest) =
      (if gap = [] then ['\r'] else []) ++ '\n' :: dropGaps [] rest := by
  rw [dropGaps.eq_2, if_neg (by decide), if_neg fun h => absurd h.2 (by decide), dropGaps_end]
  split <;> rfl

theorem dropGaps_cons (hGap : isGap c = false) (hEnd : c ≠ '\n')
    (hReturn : c = '\r' → rest.head? ≠ some '\n') :
    dropGaps gap (c :: rest) = gap.reverse ++ c :: dropGaps [] rest := by
  have hFirst : ∀ after, c = '\r' → rest = '\n' :: after → False := by
    rintro _ hFirst rfl
    exact hReturn hFirst rfl
  rw [dropGaps.eq_3 gap c rest hFirst, if_neg (Bool.eq_false_iff.1 hGap), if_neg fun h => hEnd h.2]

end

/-- The blanks that have been passed belong to the line that is read on. By induction on the line,
for any blanks in hand: a blank is added to them, and any other character gives them back and starts
anew. -/
theorem dropGaps_append {gap : List Char} (hGap : ∀ c ∈ gap, isGap c = true)
    (hLine : '\n' ∉ line) :
    dropGaps gap (line ++ '\n' :: rest) =
      dropGap (gap.reverse ++ line) ++ '\n' :: dropGaps [] rest := by
  have hPassed : ∀ c ∈ gap.reverse, isGap c = true := fun c hc => hGap c (List.mem_reverse.1 hc)
  induction line generalizing gap with
  | nil =>
    have hNothing : dropGap (gap.reverse ++ []) = [] := by
      by_cases h : gap = []
      · rw [h]
        rfl
      · exact dropGap_of_gap hPassed (mt List.reverse_eq_nil_iff.1 h) (.inl rfl)
    rw [hNothing]
    exact dropGaps_end gap rest
  | cons c line ih =>
    obtain ⟨hFirst, hRest⟩ := List.ne_and_not_mem_of_not_mem_cons hLine
    by_cases hc : isGap c = true
    · have hMore : ∀ d ∈ c :: gap, isGap d = true := List.forall_mem_cons.2 ⟨hc, hGap⟩
      rw [List.cons_append, dropGaps_cons_of_isGap hc, ih hMore hRest fun d hd =>
        hMore d (List.mem_reverse.1 hd), List.reverse_cons, ← List.append_cons]
    · -- a return right before the line end is part of the end if blanks stand before it
      by_cases hReturn : c = '\r' ∧ line = []
      · obtain ⟨rfl, rfl⟩ := hReturn
        show dropGaps gap ('\r' :: '\n' :: rest) = _
        rw [dropGaps_return]
        by_cases h : gap = []
        · rw [if_pos h, h]
          rfl
        · rw [if_neg h, dropGap_of_gap hPassed (mt List.reverse_eq_nil_iff.1 h) (.inr rfl)]
      · have hNext : c = '\r' → (line ++ '\n' :: rest).head? ≠ some '\n' := fun hc hHead => by
          rw [List.head?_append_of_ne_nil _ fun hNil => hReturn ⟨hc, hNil⟩] at hHead
          exact hRest (List.mem_of_head? hHead)
        rw [List.cons_append, dropGaps_cons (Bool.eq_false_iff.2 hc) hFirst.symm hNext,
          ih (List.forall_mem_nil _) hRest (List.forall_mem_nil _),
          dropGap_append_cons _ (Bool.eq_false_iff.2 hc) fun hc hNil => hReturn ⟨hc, hNil⟩,
          List.append_assoc]
        rfl

/-- On a line that is not ended, only what is trimmed off it afterwards is changed. -/
theorem trimEnd_dropGaps {gap : List Char} (hGap : ∀ c ∈ gap, isGap c = true)
    (hLine : '\n' ∉ line) :
    trimEnd (dropGaps gap line) = trimEnd (gap.reverse ++ line) := by
  induction line generalizing gap with
  | nil =>
    -- The gap is kept reversed until it is known whether a line ends behind it.
    have hNothing : trimEnd (gap.reverse ++ []) = [] := by
      rw [List.append_nil, trimEnd_eq_nil_iff]
      exact fun c hc => isBlank_of_isGap (hGap c (List.mem_reverse.1 hc))
    rw [hNothing, dropGaps.eq_1]
    split <;> rfl
  | cons c line ih =>
    obtain ⟨hFirst, hRest⟩ := List.ne_and_not_mem_of_not_mem_cons hLine
    by_cases hc : isGap c = true
    · rw [dropGaps_cons_of_isGap hc, ih (List.forall_mem_cons.2 ⟨hc, hGap⟩) hRest,
        List.reverse_cons, ← List.append_cons]
    -- A character that is no gap writes out the gap before it, since no line ends here.
    · have hNext : c = '\r' → line.head? ≠ some '\n' := fun _ hHead =>
        hRest (List.mem_of_head? hHead)
      rw [dropGaps_cons (Bool.eq_false_iff.2 hc) hFirst.symm hNext, List.append_cons,
        ← trimEnd_append_trimEnd, ih (List.forall_mem_nil _) hRest, trimEnd_append_trimEnd,
        List.reverse_nil, List.nil_append, ← List.append_cons]

/-- The characters of a normal form. -/
def normalChars (cs : List Char) : List Char :=
  trimEnd (dropGaps [] (unixEnds cs))

theorem normalChars_of_not_mem (h : '\n' ∉ cs) : normalChars cs = trimEnd cs := by
  rw [normalChars, unixEnds_of_not_mem h, trimEnd_dropGaps (List.forall_mem_nil _) h]
  rfl

theorem cleanLine_isPrefix (line : List Char) : cleanLine line <+: line :=
  (dropGap_isPrefix (dropReturn line)).trans (dropReturn_isPrefix line)

/-- The lines of a source are cleaned one by one. -/
theorem normalChars_append (hLine : '\n' ∉ line) (rest : List Char) :
    normalChars (line ++ '\n' :: rest) = trimEnd (cleanLine line ++ '\n' :: normalChars rest) := by
  have hReturn : '\n' ∉ dropReturn line := fun h => hLine ((dropReturn_isPrefix line).mem h)
  rw [normalChars, unixEnds_append hLine, dropGaps_append (List.forall_mem_nil _) hReturn,
    List.append_cons, ← trimEnd_append_trimEnd, ← List.append_cons]
  rfl

/-! ## Carriage returns that are left -/

/-- A line is clean after one step if and only if no carriage return is left at its end. -/
theorem cleanLine_cleanLine_iff (line : List Char) :
    cleanLine (cleanLine line) = cleanLine line ↔ (cleanLine line).getLast? ≠ some '\r' := by
  have hGap : ¬ EndsInGap (cleanLine line) := not_endsInGap_dropGap (dropReturn line)
  generalize cleanLine line = cleaned at hGap ⊢
  obtain hReturn | ⟨hSame, hLast⟩ := dropReturn_cases cleaned
  · -- another step takes the return away
    have hShorter : (cleanLine cleaned).length < cleaned.length := by
      have hDropped := (dropGap_isPrefix (dropReturn cleaned)).length_le
      have hLength := congrArg List.length hReturn
      rw [List.length_append, List.length_singleton] at hLength
      rw [cleanLine]
      omega
    refine iff_of_false (fun h => ?_) fun h => h ?_
    · rw [h] at hShorter
      exact lt_irrefl _ hShorter
    · rw [hReturn, List.getLast?_concat]
  · refine iff_of_true ?_ hLast
    rw [cleanLine, hSame, dropGap, hSame, if_neg hGap]

/-- What stands at the end of a line, after `before`, when the carriage return that is taken away
there uncovers another one. Either two stand next to each other with no blank before them, or blanks
stand after one, with up to two more of them behind the blanks. -/
inductive LeavesReturn (before : List Char) : List Char → Prop
  | returns (h : ¬ EndsInGap before) : LeavesReturn before ['\r', '\r']
  | gap {gap ends : List Char} (hSome : gap ≠ []) (hGap : ∀ c ∈ gap, isGap c = true)
      (hEnds : ends = [] ∨ ends = ['\r'] ∨ ends = ['\r', '\r']) :
      LeavesReturn before ('\r' :: gap ++ ends)

theorem getLast?_cleanLine_of_leavesReturn {before remnant : List Char}
    (h : LeavesReturn before remnant) : (cleanLine (before ++ remnant)).getLast? = some '\r' := by
  cases h with
  | returns h =>
    have hFirst : dropReturn (before ++ ['\r', '\r']) = before ++ ['\r'] := by
      rw [List.append_cons, dropReturn_append_return]
    rw [cleanLine, hFirst, dropGap, dropReturn_append_return, if_neg h, List.getLast?_concat]
  | @gap gap ends hSome hGap hEnds =>
    -- the return at the very end is dropped first, the blanks with the one before it after that
    obtain ⟨left, hLeft, hFirst⟩ : ∃ left, (left = [] ∨ left = ['\r']) ∧
        dropReturn (before ++ ('\r' :: gap ++ ends)) = before ++ '\r' :: (gap ++ left) := by
      rcases hEnds with rfl | rfl | rfl
      · refine ⟨[], .inl rfl, dropReturn_of_getLast? ?_⟩
        rw [List.append_nil, List.append_cons, List.getLast?_append_of_ne_nil _ hSome]
        exact getLast?_ne_return_of_gap hGap
      · exact ⟨[], .inl rfl, by
          rw [← List.append_assoc, dropReturn_append_return, List.append_nil]⟩
      · exact ⟨['\r'], .inr rfl, by
          rw [← List.append_assoc, List.append_cons, dropReturn_append_return, List.append_assoc]
          rfl⟩
    rw [cleanLine, hFirst, dropGap_append_cons before (by decide) fun _ h =>
      hSome (List.append_eq_nil_iff.1 h).1, dropGap_of_gap hGap hSome hLeft, List.getLast?_concat]

theorem exists_leavesReturn_of_getLast? (h : (cleanLine line).getLast? = some '\r') :
    ∃ before remnant, line = before ++ remnant ∧ LeavesReturn before remnant := by
  obtain ⟨before, hBefore⟩ := List.getLast?_eq_some_iff.1 h
  obtain ⟨gap, ends, hParts, hGap, hEnds, hNone⟩ := exists_dropGap_append (dropReturn line)
  change dropReturn line = cleanLine line ++ gap ++ ends at hParts
  rw [hBefore] at hParts
  by_cases hNil : gap = []
  · obtain ⟨rfl, hStop⟩ := hNone hNil
    rw [hNil, List.append_nil, List.append_nil] at hParts
    rw [hParts, dropReturn_append_return] at hStop
    obtain hReturn | ⟨hSame, hLast⟩ := dropReturn_cases line
    · refine ⟨before, _, ?_, .returns hStop⟩
      rw [hReturn, hParts, List.append_assoc]
      rfl
    · rw [← hSame, hParts] at hLast
      exact absurd List.getLast?_concat hLast
  · -- the remnant is what follows `before` in the line
    obtain ⟨last, hLast, hLine⟩ : ∃ last, (ends ++ last = [] ∨ ends ++ last = ['\r'] ∨
        ends ++ last = ['\r', '\r']) ∧ line = dropReturn line ++ last := by
      obtain hReturn | ⟨hSame, -⟩ := dropReturn_cases line
      · refine ⟨['\r'], ?_, hReturn⟩
        rcases hEnds with rfl | rfl
        · exact .inr (.inl rfl)
        · exact .inr (.inr rfl)
      · refine ⟨[], ?_, by rw [hSame, List.append_nil]⟩
        rw [List.append_nil]
        exact hEnds.imp_right .inl
    refine ⟨before, _, ?_, .gap hNil hGap hLast⟩
    rw [hLine, hParts]
    simp only [List.append_assoc, List.cons_append, List.nil_append]

/-- The source has a line that leaves a carriage return when it is cleaned, and something else than
blanks stands after it. It is stated of the characters of the source alone, so that it can be told
without making a normal form. -/
def KeepsReturn (cs : List Char) : Prop :=
  ∃ before remnant after, cs = before ++ remnant ++ '\n' :: after ∧ LeavesReturn before remnant ∧
    ¬ ∀ c ∈ after, isBlank c = true

theorem not_keepsReturn_of_not_mem (h : '\n' ∉ cs) : ¬ KeepsReturn cs := by
  rintro ⟨before, remnant, after, rfl, -, -⟩
  exact h (List.mem_append_right _ List.mem_cons_self)

/-- The first line of a text lies before any other line end. So a place in a text is either at its
first line end or after it. -/
theorem append_eq_append_cases {before after : List Char} (hLine : '\n' ∉ line)
    (h : before ++ '\n' :: after = line ++ '\n' :: rest) :
    (before = line ∧ after = rest) ∨
      ∃ more, before = line ++ '\n' :: more ∧ rest = more ++ '\n' :: after := by
  obtain ⟨more, hBefore, hRest⟩ | ⟨more, hBefore, hRest⟩ := List.append_eq_append_iff.1 h
  · match more with
    | [] => exact .inl ⟨by simpa using hBefore.symm, (List.cons.inj hRest).2⟩
    | c :: more =>
      obtain ⟨rfl, -⟩ := List.cons.inj hRest
      exact absurd (hBefore ▸ List.mem_append_right _ List.mem_cons_self) hLine
  · match more with
    | [] => exact .inl ⟨by simpa using hBefore, (List.cons.inj hRest).2.symm⟩
    | c :: more =>
      obtain ⟨rfl, hLater⟩ := List.cons.inj hRest
      exact .inr ⟨more, hBefore, hLater⟩

theorem LeavesReturn.not_mem {before remnant : List Char} (h : LeavesReturn before remnant) :
    '\n' ∉ remnant := by
  cases h with
  | returns => decide
  | @gap gap ends _ hGap hEnds =>
    intro hMem
    rcases List.mem_append.1 hMem with hMem | hMem
    · rcases List.mem_cons.1 hMem with hMem | hMem
      · exact absurd hMem (by decide)
      · exact absurd (hGap _ hMem) (by decide)
    · rcases hEnds with rfl | rfl | rfl <;> exact absurd hMem (by decide)

/-- Only the line that a remnant stands on counts. -/
theorem leavesReturn_append_iff (line before remnant : List Char) :
    LeavesReturn (line ++ '\n' :: before) remnant ↔ LeavesReturn before remnant := by
  have hEnds : EndsInGap (line ++ '\n' :: before) ↔ EndsInGap before := by
    by_cases hNil : before = []
    · subst hNil
      rw [endsInGap_append_iff]
      exact iff_of_false (by decide) not_endsInGap_nil
    · rw [List.append_cons, endsInGap_append_iff_of_ne_nil _ hNil]
  constructor
  · rintro (h | ⟨hSome, hGap, hLast⟩)
    · exact .returns (mt hEnds.2 h)
    · exact .gap hSome hGap hLast
  · rintro (h | ⟨hSome, hGap, hLast⟩)
    · exact .returns (mt hEnds.1 h)
    · exact .gap hSome hGap hLast

/-- Whether a text keeps a carriage return, line by line: its first line leaves one and more than
blanks follow, or what follows keeps one. -/
theorem keepsReturn_append_iff (hLine : '\n' ∉ line) :
    KeepsReturn (line ++ '\n' :: rest) ↔
      ((cleanLine line).getLast? = some '\r' ∧ ¬ ∀ c ∈ rest, isBlank c = true) ∨
        KeepsReturn rest := by
  constructor
  · rintro ⟨before, remnant, after, hParts, hLeaves, hAfter⟩
    obtain ⟨hBefore, rfl⟩ | ⟨more, hBefore, hRest⟩ := append_eq_append_cases hLine hParts.symm
    · exact .inl ⟨hBefore ▸ getLast?_cleanLine_of_leavesReturn hLeaves, hAfter⟩
    · -- the remnant has no line end, so the first line end lies before it
      obtain ⟨others, -, hRemnant⟩ | ⟨others, hOthers, hMore⟩ :=
        List.append_eq_append_iff.1 hBefore
      · exact absurd (hRemnant ▸ List.mem_append_right _ List.mem_cons_self) hLeaves.not_mem
      · match others with
        | [] =>
          have hMem : '\n' ∈ [] ++ remnant := hMore ▸ List.mem_cons_self
          exact absurd hMem hLeaves.not_mem
        | c :: others =>
          obtain ⟨rfl, hLater⟩ := List.cons.inj hMore
          rw [hOthers, leavesReturn_append_iff] at hLeaves
          rw [hLater] at hRest
          exact .inr ⟨others, remnant, after, hRest, hLeaves, hAfter⟩
  · rintro (⟨hLast, hRest⟩ | ⟨before, remnant, after, rfl, hLeaves, hAfter⟩)
    · obtain ⟨before, remnant, rfl, hLeaves⟩ := exists_leavesReturn_of_getLast? hLast
      exact ⟨before, remnant, rest, rfl, hLeaves, hRest⟩
    · exact ⟨line ++ '\n' :: before, remnant, after, by simp,
        (leavesReturn_append_iff line before remnant).2 hLeaves, hAfter⟩

/-! ## Normal forms -/

theorem trimEnd_normalChars (cs : List Char) : trimEnd (normalChars cs) = normalChars cs :=
  trimEnd_trimEnd _

/-- Only blanks are taken away at the end of a line. -/
theorem isBlank_cleanLine_iff (line : List Char) :
    (∀ c ∈ cleanLine line, isBlank c = true) ↔ ∀ c ∈ line, isBlank c = true := by
  refine ⟨fun h c hc => ?_, fun h c hc => h c ((cleanLine_isPrefix line).mem hc)⟩
  obtain ⟨gap, ends, hParts, hGap, hEnds, -⟩ := exists_dropGap_append (dropReturn line)
  have hReturn : ∀ d ∈ dropReturn line, isBlank d = true := by
    intro d hd
    rw [hParts] at hd
    rcases List.mem_append.1 hd with hd | hd
    · exact (List.mem_append.1 hd).elim (h d) fun hd => isBlank_of_isGap (hGap d hd)
    · rcases hEnds with rfl | rfl
      · exact absurd hd List.not_mem_nil
      · exact List.mem_singleton.1 hd ▸ rfl
  obtain hLine | ⟨hSame, -⟩ := dropReturn_cases line
  · rw [hLine] at hc
    exact (List.mem_append.1 hc).elim (hReturn c) fun hc => List.mem_singleton.1 hc ▸ rfl
  · exact hReturn c (hSame.symm ▸ hc)

theorem normalChars_eq_nil_iff (cs : List Char) :
    normalChars cs = [] ↔ ∀ c ∈ cs, isBlank c = true := by
  induction cs using lines_induction with
  | last line hLine => rw [normalChars_of_not_mem hLine, trimEnd_eq_nil_iff]
  | ended line rest hLine ih =>
    have hRest : (∀ c ∈ normalChars rest, isBlank c = true) ↔ ∀ c ∈ rest, isBlank c = true := by
      rw [← trimEnd_eq_nil_iff, trimEnd_normalChars, ih]
    simp only [normalChars_append hLine, trimEnd_eq_nil_iff, List.forall_mem_append,
      List.forall_mem_cons, hRest, isBlank_cleanLine_iff]

/-- A second step changes nothing if and only if the first one leaves no carriage return at the end
of a line. By induction on the lines, where the cases differ by whether anything but blanks follows
the first line: if nothing does, the line is trimmed like the last one, and otherwise it is cleaned,
and cleaned again. -/
theorem normalChars_normalChars_iff (cs : List Char) :
    normalChars (normalChars cs) = normalChars cs ↔ ¬ KeepsReturn cs := by
  induction cs using lines_induction with
  | last line hLine =>
    have hTrimmed : '\n' ∉ trimEnd line := fun h => hLine (mem_of_mem_trimEnd h)
    rw [normalChars_of_not_mem hLine, normalChars_of_not_mem hTrimmed]
    exact iff_of_true (trimEnd_trimEnd line) (not_keepsReturn_of_not_mem hLine)
  | ended line rest hLine ih =>
    have hClean : '\n' ∉ cleanLine line := fun h => hLine ((cleanLine_isPrefix line).mem h)
    rw [normalChars_append hLine, keepsReturn_append_iff hLine]
    by_cases hRest : ∀ c ∈ rest, isBlank c = true
    · -- the line is the last one with anything on it, and is trimmed as a whole
      have hTrimmed : '\n' ∉ trimEnd (cleanLine line) := fun h => hClean (mem_of_mem_trimEnd h)
      rw [(normalChars_eq_nil_iff rest).2 hRest,
        trimEnd_append_of_blank _ (List.forall_mem_singleton.2 rfl),
        normalChars_of_not_mem hTrimmed]
      refine iff_of_true (trimEnd_trimEnd _) ?_
      rintro (⟨-, h⟩ | ⟨before, remnant, after, rfl, -, h⟩)
      · exact h hRest
      · exact h fun c hc => hRest c (List.mem_append_right _ (List.mem_cons_of_mem _ hc))
    · have hSome : ¬ ∀ c ∈ normalChars rest, isBlank c = true := by
        rwa [← trimEnd_eq_nil_iff, trimEnd_normalChars, normalChars_eq_nil_iff]
      have hKept : ∀ xs ys : List Char, (¬ ∀ c ∈ ys, isBlank c = true) →
          trimEnd (xs ++ '\n' :: ys) = xs ++ '\n' :: trimEnd ys := fun xs ys h => by
        rw [List.append_cons, trimEnd_append_of_not_blank _ h, ← List.append_cons]
      have hAgain : ¬ ∀ c ∈ normalChars (normalChars rest), isBlank c = true := by
        rwa [← trimEnd_eq_nil_iff, trimEnd_normalChars, normalChars_eq_nil_iff]
      have hLines : cleanLine (cleanLine line) ++ '\n' :: normalChars (normalChars rest) =
          cleanLine line ++ '\n' :: normalChars rest ↔
          cleanLine (cleanLine line) = cleanLine line ∧
            normalChars (normalChars rest) = normalChars rest := by
        refine ⟨fun h => ?_, fun ⟨hLine, hRest⟩ => by rw [hLine, hRest]⟩
        obtain hBoth | ⟨more, hMore, -⟩ := append_eq_append_cases hClean h
        · exact hBoth
        · have hMem : '\n' ∈ cleanLine (cleanLine line) :=
            hMore ▸ List.mem_append_right _ List.mem_cons_self
          exact absurd ((cleanLine_isPrefix _).mem hMem) hClean
      rw [hKept _ _ hSome, trimEnd_normalChars, normalChars_append hClean, hKept _ _ hAgain,
        trimEnd_normalChars, hLines, cleanLine_cleanLine_iff, ih]
      tauto

/-- A source has the normal form of another one if and only if their characters do. -/
theorem normalize_eq_normalize_iff {source other : String} :
    normalize source = normalize other ↔ normalChars source.toList = normalChars other.toList :=
  String.ofList_inj

theorem toList_normalize (source : String) :
    (normalize source).toList = normalChars source.toList :=
  String.toList_ofList

theorem normalize_normalize_eq_iff (source : String) :
    normalize (normalize source) = normalize source ↔ ¬ KeepsReturn source.toList := by
  rw [normalize_eq_normalize_iff, toList_normalize, normalChars_normalChars_iff]

/-- A source is brought into normal form in one step if and only if no line that more than blanks
follow leaves a carriage return when it is cleaned. An expected file that holds the normal form of
an artifact is equal to the artifact for just these sources. -/
theorem normalize_normalize_iff {artifacts : List Artifact} {a : Artifact} (path : String)
    (hFind : artifacts.find? (·.hintName = a.hintName) = some a) :
    (normalize (normalize a.source) = normalize a.source ↔ ¬ KeepsReturn a.source.toList) ∧
      (fileProblem? artifacts ⟨path, a.hintName, .ok (normalize a.source)⟩ = none ↔
        ¬ KeepsReturn a.source.toList) := by
  have hFile : fileProblem? artifacts ⟨path, a.hintName, .ok (normalize a.source)⟩ = none ↔
      normalize (normalize a.source) = normalize a.source := by
    simp only [fileProblem?, hFind]
    split
    next hSame => exact iff_of_true rfl hSame
    next hOther => exact iff_of_false (Option.some_ne_none _) hOther
  exact ⟨normalize_normalize_eq_iff a.source, hFile.trans (normalize_normalize_eq_iff a.source)⟩

/-- Of two carriage returns at a line end the first step takes one away and the second step the
other one. -/
theorem normalize_normalize_ne_of_two_returns :
    let a : Artifact := ⟨"Car.g.cs", "Car", "a\r\r\nb"⟩
    [a].find? (·.hintName = a.hintName) = some a ∧
      normalize (normalize a.source) ≠ normalize a.source ∧
      fileProblem? [a] ⟨"expected/Car.g.cs", a.hintName, .ok (normalize a.source)⟩ ≠ none := by
  intro a
  have hFind : [a].find? (·.hintName = a.hintName) = some a := rfl
  have hKeeps : KeepsReturn a.source.toList :=
    ⟨['a'], ['\r', '\r'], ['b'], by decide, .returns Bool.false_ne_true,
      fun h => Bool.false_ne_true (h 'b' (List.mem_singleton_self 'b'))⟩
  obtain ⟨hSource, hFile⟩ := normalize_normalize_iff "expected/Car.g.cs" hFind
  exact ⟨hFind, fun h => hSource.1 h hKeeps, fun h => hFile.1 h hKeeps⟩

end Fixture

end ValidatorGen
