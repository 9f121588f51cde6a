import Mathlib.Data.List.Basic
import Mathlib.Data.List.TakeDrop
import Mathlib.Data.List.TakeWhile
import ValidatorGen.Json.Written

/-!
# What a reader looks at

A reader of JSON looks at the characters that it takes and at the one after them, and at nothing
else. What is left after these can be exchanged for any other text that begins with the same
character, and the reader still takes the same characters and gives the same.

The property is `Local`. It speaks of success alone: a reader that fails says where, and that place
depends on all that is left. It is closed under the three ways in which the readers of JSON are put
together, one after another, after a reader that cannot fail, and by a choice on whether a character
is next, so that each reader is local because its parts are. Two readers do not fit: a code unit of
four digits, which counts bytes and looks at places that may be cut off, and the characters of a
string, which are bounded by the length of what is left. For these the characters that are taken are
named.

Some readers make one long step of what this argument needs in pieces. For these the pieces are
defined here, such as `readPower` or `readPlaces`, and the reader is shown to be made of them.

Main results:

* `Local.seq`, `Local.accept` — what is put together of such readers is one;
* `local_readWord`, `local_readString`, `local_readNumber` — scalars.
-/

namespace ValidatorGen.Json

/-! ## Readers -/

/-- The same place, with something else left. The texts that a local reader is run on differ in what
is left only. -/
def Cursor.withRest (c : Cursor) (rest : List Char) : Cursor :=
  ⟨rest, c.position⟩

@[simp]
theorem Cursor.rest_withRest (c : Cursor) (rest : List Char) : (c.withRest rest).rest = rest := rfl

@[simp]
theorem Cursor.position_withRest (c : Cursor) (rest : List Char) :
    (c.withRest rest).position = c.position := rfl

theorem head?_append_congr {α : Type} {xs ys : List α} (h : xs.head? = ys.head?) (taken : List α) :
    (taken ++ xs).head? = (taken ++ ys).head? := by
  rw [List.head?_append, List.head?_append, h]

/-- A reader, of which `done` says how it gives something and a place, looks no further than at the
character after what it takes. There is a text that it takes, and before anything that begins with
the same character, or with none where nothing was left, it takes that text again and gives the
same. -/
def Local {α β : Type} (done : α → Cursor → β) (read : Cursor → β) : Prop :=
  ∀ ⦃c a after⦄, read c = done a after → ∃ taken, c.rest = taken ++ after.rest ∧
    ∀ rest, rest.head? = after.rest.head? →
      read (c.withRest (taken ++ rest)) = done a (after.withRest rest)

/-- How a reader that may fail gives something and a place. -/
def gives {α : Type} (a : α) (c : Cursor) : Except Breach (α × Cursor) :=
  .ok (a, c)

section Combinators

variable {α β γ : Type}

/-- A reader that takes nothing and does not look ahead: where it succeeds it stays at its place,
and it gives the same at any other place. -/
theorem local_of_stays {done : α → Cursor → β} {read : Cursor → β}
    (h : ∀ c a after, read c = done a after → after = c ∧ ∀ c', read c' = done a c') :
    Local done read := by
  intro c a after hRead
  obtain ⟨rfl, hAny⟩ := h c a after hRead
  exact ⟨[], rfl, fun rest _ => hAny _⟩

theorem local_error {b : Cursor → Breach} : Local (gives (α := α)) fun c => .error (b c) := by
  intro c a after h
  cases h

theorem local_ok (a : α) : Local gives fun c => .ok (a, c) := by
  refine local_of_stays fun c b after h => ?_
  cases h
  exact ⟨rfl, fun _ => rfl⟩

/-- One reader after another. The whole may differ from the two in how it fails, so what is asked is
only that it succeeds where both do (`hJoin`), and that its successes are theirs (`hSplit`). -/
theorem Local.seq {δ : Type} {done : α → Cursor → β} {done' : δ → Cursor → γ} {f : Cursor → β}
    {g : α → Cursor → γ} {read : Cursor → γ} (hFirst : Local done f)
    (hNext : ∀ a, Local done' (g a))
    (hSplit : ∀ c d after, read c = done' d after →
      ∃ a between, f c = done a between ∧ g a between = done' d after)
    (hJoin : ∀ c a between d after, f c = done a between → g a between = done' d after →
      read c = done' d after) : Local done' read := by
  intro c d after h
  obtain ⟨a, between, hA, hD⟩ := hSplit c d after h
  obtain ⟨taken, hTaken, hFirsts⟩ := hFirst hA
  obtain ⟨more, hMore, hNexts⟩ := hNext a hD
  refine ⟨taken ++ more, by rw [hTaken, hMore, List.append_assoc], ?_⟩
  intro rest hHead
  -- what the second reader takes stays, so the first one meets the same character after its own
  have hBetween : (more ++ rest).head? = between.rest.head? := by
    rw [hMore]
    exact head?_append_congr hHead more
  rw [List.append_assoc]
  exact hJoin _ a _ d _ (hFirsts _ hBetween) (hNexts rest hHead)

theorem Local.bind {read : Cursor → Except Breach (α × Cursor)}
    {g : α → Cursor → Except Breach (β × Cursor)} (hRead : Local gives read)
    (hNext : ∀ a, Local gives (g a)) : Local gives fun c => read c >>= fun r => g r.1 r.2 := by
  refine hRead.seq hNext ?_ ?_
  · intro c b after h
    cases hFirst : read c with
    | error breach =>
      simp only [hFirst] at h
      cases h
    | ok r =>
      simp only [hFirst] at h
      exact ⟨r.1, r.2, rfl, h⟩
  · intro c a between b after hFirst h
    show (read c >>= fun r => g r.1 r.2) = gives b after
    rw [hFirst]
    exact h

/-- What comes after a reader that cannot fail. -/
theorem Local.after {done : β → Cursor → γ} {f : Cursor → α × Cursor} {g : α → Cursor → γ}
    {read : Cursor → γ} (hFirst : Local Prod.mk f) (hNext : ∀ a, Local done (g a))
    (hRead : ∀ c b after, read c = done b after ↔ g (f c).1 (f c).2 = done b after) :
    Local done read := by
  refine hFirst.seq hNext ?_ ?_
  · intro c b after h
    exact ⟨(f c).1, (f c).2, rfl, (hRead c b after).1 h⟩
  · intro c a between b after hA h
    rw [hRead, hA]
    exact h

/-- What a reader takes where it does the same as a local one, as far as it depends on the next
character. -/
theorem Local.exists_taken {done : α → Cursor → β} {f read : Cursor → β} (hLocal : Local done f)
    {c after : Cursor} {a : α}
    (hSame : ∀ c' : Cursor, c'.rest.head? = c.rest.head? → read c' = f c')
    (hRead : read c = done a after) : ∃ taken, c.rest = taken ++ after.rest ∧
      ∀ rest, rest.head? = after.rest.head? →
        read (c.withRest (taken ++ rest)) = done a (after.withRest rest) := by
  rw [hSame c rfl] at hRead
  obtain ⟨taken, hTaken, hReads⟩ := hLocal hRead
  refine ⟨taken, hTaken, fun rest hRest => ?_⟩
  have hHead : (c.withRest (taken ++ rest)).rest.head? = c.rest.head? := by
    rw [Cursor.rest_withRest, head?_append_congr hRest, ← hTaken]
  rw [hSame _ hHead]
  exact hReads rest hRest

/-- A reader that does the same as a local one for each next character. Which local reader that is
may depend on the character, since a text that begins alike leads to the same choice. -/
theorem Local.of_head {done : α → Cursor → β} {read : Cursor → β}
    (h : ∀ c : Cursor, ∃ f, Local done f ∧
      ∀ c' : Cursor, c'.rest.head? = c.rest.head? → read c' = f c') : Local done read := by
  intro c a after hRead
  obtain ⟨f, hLocal, hSame⟩ := h c
  exact hLocal.exists_taken hSame hRead

end Combinators

/-! ## Characters -/

/-- A character is accepted exactly when it is next, and it is gone then. -/
theorem Cursor.accept?_eq_some_iff {expected : Char} {c after : Cursor} :
    c.accept? expected = some after ↔
      c.rest = expected :: after.rest ∧ after.position = c.position.overChar expected := by
  obtain ⟨rest, position⟩ := c
  obtain ⟨left, place⟩ := after
  cases rest with
  | nil => simp [accept?]
  | cons x rest =>
    by_cases hSame : x = expected
    · simp [accept?, hSame, eq_comm]
    · simp [accept?, hSame]

theorem Cursor.accept?_eq_none_iff {expected : Char} {c : Cursor} :
    c.accept? expected = none ↔ c.rest.head? ≠ some expected := by
  obtain ⟨rest, position⟩ := c
  cases rest <;> simp [accept?]

theorem Cursor.accept?_eq_none_of_ne {c after : Cursor} {expected other : Char}
    (h : c.accept? expected = some after) (hOther : expected ≠ other) :
    c.accept? other = none := by
  rw [accept?_eq_none_iff, (accept?_eq_some_iff.1 h).1, List.head?_cons]
  exact fun hSame => hOther (Option.some.inj hSame)

theorem Cursor.accept?_eq_none_congr {c c' : Cursor} (h : c'.rest.head? = c.rest.head?)
    {expected : Char} : c'.accept? expected = none ↔ c.accept? expected = none := by
  rw [accept?_eq_none_iff, accept?_eq_none_iff, h]

theorem Cursor.accept?_withRest {expected : Char} {c after : Cursor}
    (h : c.accept? expected = some after) (rest : List Char) :
    (c.withRest (expected :: rest)).accept? expected = some (after.withRest rest) :=
  accept?_eq_some_iff.2 ⟨rfl, (accept?_eq_some_iff.1 h).2⟩

/-- Taking characters as long as they have a property ends at the first one without it, which is the
one character that is looked at and not taken. -/
theorem local_takeWhile (p : Char → Bool) : Local Prod.mk (Cursor.takeWhile p) := by
  intro c taken after h
  have hSpan : c.rest.span p = (c.rest.takeWhile p, c.rest.dropWhile p) :=
    List.span_eq_takeWhile_dropWhile ..
  simp only [Cursor.takeWhile, hSpan, Cursor.past, Prod.mk.injEq] at h
  obtain ⟨rfl, rfl⟩ := h
  refine ⟨c.rest.takeWhile p, List.takeWhile_append_dropWhile.symm, fun rest hHead => ?_⟩
  have hAll : ∀ x ∈ c.rest.takeWhile p, p x = true := fun x hx => List.mem_takeWhile_imp hx
  have hStop := List.head?_dropWhile_not p c.rest
  dsimp only at hHead
  rw [← hHead] at hStop
  -- the character after what is taken is the same one, so the reader stops there
  have hNone : rest.takeWhile p = [] ∧ rest.dropWhile p = rest := by
    cases rest with
    | nil => exact ⟨rfl, rfl⟩
    | cons x rest =>
      simp only [List.head?_cons] at hStop
      simp [hStop]
  simp only [Cursor.takeWhile, Cursor.rest_withRest, List.span_eq_takeWhile_dropWhile, Cursor.past,
    List.takeWhile_append_of_pos hAll, List.dropWhile_append_of_pos hAll, hNone.1, hNone.2,
    List.append_nil]
  rfl

theorem Cursor.exists_skipSpace_withRest (c : Cursor) : ∃ taken,
    c.rest = taken ++ c.skipSpace.rest ∧
      ∀ rest, rest.head? = c.skipSpace.rest.head? →
        (c.withRest (taken ++ rest)).skipSpace = c.skipSpace.withRest rest := by
  obtain ⟨taken, hTaken, hReads⟩ :=
    local_takeWhile isSpace (rfl : c.takeWhile isSpace = (_, c.skipSpace))
  refine ⟨taken, hTaken, fun rest hHead => ?_⟩
  unfold skipSpace
  rw [hReads rest hHead]
  rfl

/-- After white space comes no more of it. -/
theorem Cursor.isSpace_head?_skipSpace (c : Cursor) :
    ∀ x, c.skipSpace.rest.head? = some x → isSpace x = false := by
  intro x hHead
  have hStop := List.head?_dropWhile_not isSpace c.rest
  have hRest : c.skipSpace.rest = c.rest.dropWhile isSpace :=
    congrArg Prod.snd (List.span_eq_takeWhile_dropWhile ..)
  rw [← hRest, hHead] at hStop
  exact hStop

theorem Cursor.skipSpace_of_head {x : Char} {rest : List Char} {place : Position}
    (h : isSpace x = false) : skipSpace ⟨x :: rest, place⟩ = ⟨x :: rest, place⟩ := by
  simp [skipSpace, takeWhile, past, List.span_eq_takeWhile_dropWhile, h]

theorem Cursor.skipSpace_skipSpace (c : Cursor) : c.skipSpace.skipSpace = c.skipSpace := by
  have hHead := c.isSpace_head?_skipSpace
  generalize c.skipSpace = d at hHead ⊢
  obtain ⟨rest, place⟩ := d
  cases rest with
  | nil => rfl
  | cons x rest => exact skipSpace_of_head (hHead x rfl)

/-- White space is skipped in the same way before anything that begins with what is taken after
it. -/
theorem Cursor.exists_skipSpace_taken {c : Cursor} {taken left : List Char} (hTakes : taken ≠ [])
    (hTaken : c.skipSpace.rest = taken ++ left) : ∃ space,
      c.rest = space ++ taken ++ left ∧
        ∀ rest, (c.withRest (space ++ taken ++ rest)).skipSpace =
            c.skipSpace.withRest (taken ++ rest) ∧
          (taken ++ rest).head? = c.skipSpace.rest.head? := by
  obtain ⟨space, hSpace, hSkips⟩ := c.exists_skipSpace_withRest
  refine ⟨space, by rw [hSpace, hTaken, List.append_assoc], fun rest => ?_⟩
  have hHead : (taken ++ rest).head? = c.skipSpace.rest.head? := by
    rw [hTaken, List.head?_append_of_ne_nil _ hTakes, List.head?_append_of_ne_nil _ hTakes]
  rw [List.append_assoc]
  exact ⟨hSkips _ hHead, hHead⟩

/-- A choice between readers by whether a character is next, which is then taken. -/
theorem Local.accept {α β : Type} {done : α → Cursor → β} (expected : Char) {f g read : Cursor → β}
    (hYes : Local done f) (hNo : Local done g)
    (hRead : ∀ c, read c = (c.accept? expected).elim (g c) f) : Local done read := by
  intro c a after h
  cases hNext : c.accept? expected with
  | some between =>
    rw [hRead, hNext] at h
    obtain ⟨more, hMore, hReads⟩ := hYes h
    refine ⟨expected :: more, ?_, fun rest hHead => ?_⟩
    · rw [(Cursor.accept?_eq_some_iff.1 hNext).1, hMore, List.cons_append]
    · rw [hRead, List.cons_append, Cursor.accept?_withRest hNext]
      exact hReads rest hHead
  | none =>
    refine hNo.exists_taken (fun c' hHead => ?_) h
    rw [hRead, (Cursor.accept?_eq_none_congr hHead).2 hNext]
    rfl

/-! ## Words -/

theorem local_readWord (letters : List Char) :
    Local (fun (_ : Unit) c => Except.ok c) (readWord letters) := by
  induction letters with
  | nil =>
    refine local_of_stays fun c _ after h => ?_
    cases h
    exact ⟨rfl, fun _ => rfl⟩
  | cons letter letters ih =>
    refine Local.accept letter (g := fun c => .error (c.breach .endInValue .expectedWord)) ih ?_ ?_
    · intro c _ after h
      cases h
    · intro c
      rw [readWord]
      cases c.accept? letter <;> rfl

/-! ## Numbers -/

theorem local_takeDigits : Local Prod.mk takeDigits :=
  Local.after (g := fun digits c => (digits.map fun d => d.toNat - '0'.toNat, c))
    (local_takeWhile Char.isDigit)
    (fun digits => local_of_stays fun c a after h => by
      obtain ⟨rfl, rfl⟩ := Prod.mk.inj h
      exact ⟨rfl, fun _ => rfl⟩)
    fun _ _ _ => Iff.rfl

theorem local_scaledNumber (negative : Bool) (significand : Nat) (exponent : Int) :
    Local gives (scaledNumber negative significand exponent) := by
  refine local_of_stays fun c n after h => ?_
  unfold scaledNumber at h ⊢
  split at h
  next number hNumber =>
    cases h
    exact ⟨rfl, fun _ => rfl⟩
  · cases h

theorem local_wholeNumber (negative : Bool) (significand : Nat) :
    Local gives (wholeNumber negative significand) := by
  intro c n after h
  unfold wholeNumber at h ⊢
  split at h
  next hNatural =>
    simp only [dif_pos hNatural]
    exact local_ok _ h
  next hNatural =>
    simp only [dif_neg hNatural]
    split at h
    next hNegative =>
      simp only [dif_pos hNegative]
      exact local_ok _ h
    next hNegative =>
      simp only [dif_neg hNegative]
      exact local_scaledNumber negative significand 0 h

/-- The digits of an exponent and the number that they make. Where they are more than fits, only a
significand of zero is read without an error. -/
def readPower (negative : Bool) (significand : Nat) (start : Int) (down : Bool) (c : Cursor) :
    Except Breach (Number × Cursor) :=
  let (digits, after) := takeDigits c
  if digits.isEmpty then .error (c.breach .endInValue .invalidNumber)
  else match exponentOverflow? 0 digits with
    | some read =>
      if significand ≠ 0 ∧ !down then
        .error ⟨.numberOutOfRange, ⟨c.position.line, c.position.column + read.length⟩⟩
      else .ok (zeroNumber negative, after)
    | none =>
      let value : Nat := digits.foldl (10 * · + ·) 0
      scaledNumber negative significand (if down then start - value else start + value) after

theorem local_readPower (negative : Bool) (significand : Nat) (start : Int) (down : Bool) :
    Local gives (readPower negative significand start down) := by
  intro c n after h
  unfold readPower at h
  rcases hDigits : takeDigits c with ⟨digits, next⟩
  obtain ⟨taken, hTaken, hReads⟩ := local_takeDigits hDigits
  rw [hDigits] at h
  dsimp only at h
  split at h
  · cases h
  next hSome =>
    split at h
    next read hOverflow =>
      split at h
      · cases h
      next hZero =>
        -- the number is zero, and no more than the digits is looked at
        cases h
        refine ⟨taken, hTaken, ?_⟩
        intro rest hHead
        simp only [readPower, hReads rest hHead, if_neg hSome, hOverflow, if_neg hZero]
        rfl
    next hFits =>
      obtain ⟨more, hMore, hScales⟩ := local_scaledNumber _ _ _ h
      refine ⟨taken ++ more, by rw [hTaken, hMore, List.append_assoc], ?_⟩
      intro rest hHead
      have hNext := hReads (more ++ rest) (by rw [hMore]; exact head?_append_congr hHead more)
      simp only [readPower, List.append_assoc, hNext, if_neg hSome, hFits]
      exact hScales rest hHead

theorem local_readExponent (negative : Bool) (significand : Nat) (start : Int) :
    Local gives (readExponent negative significand start) := by
  have hPower := local_readPower negative significand start
  have hMinus : Local gives fun c => (c.accept? '-').elim
      (readPower negative significand start false c) (readPower negative significand start true) :=
    Local.accept '-' (hPower true) (hPower false) fun _ => rfl
  refine Local.accept '+' (hPower false) hMinus fun c => ?_
  unfold readExponent
  cases c.accept? '+' with
  | some after => rfl
  | none => cases c.accept? '-' <;> rfl

theorem local_readScale (negative : Bool) (significand : Nat) (exponent : Int) :
    Local gives (readScale negative significand exponent) := by
  have hExponent := local_readExponent negative significand exponent
  have hCapital : Local gives fun c => (c.accept? 'E').elim
      (scaledNumber negative significand exponent c) (readExponent negative significand exponent) :=
    Local.accept 'E' hExponent (local_scaledNumber negative significand exponent) fun _ => rfl
  refine Local.accept 'e' hExponent hCapital fun c => ?_
  unfold readScale
  cases c.accept? 'e' with
  | some after => rfl
  | none => cases c.accept? 'E' <;> rfl

/-- What follows a decimal point. Of the whole digits, `dropped` are not in the significand. -/
def readPlaces (negative : Bool) (significand : Nat) (dropped : List Nat) (point : Cursor) :
    Except Breach (Number × Cursor) :=
  let (places, afterPlaces) := takeDigits point
  if places.isEmpty then .error (point.breach .endInValue .invalidNumber)
  else
    let (significand, unused) := accumulate significand places
    readScale negative significand
      ((dropped.length : Int) - ((places.length - unused.length : Nat) : Int)) afterPlaces

theorem local_readPlaces (negative : Bool) (significand : Nat) (dropped : List Nat) :
    Local gives (readPlaces negative significand dropped) := by
  refine Local.after (g := fun places c =>
    if places.isEmpty then .error ⟨.invalidNumber, c.position⟩
    else readScale negative (accumulate significand places).1 ((dropped.length : Int) -
      ((places.length - (accumulate significand places).2.length : Nat) : Int)) c)
    local_takeDigits ?_ ?_
  · intro places
    split
    · exact local_error
    · exact local_readScale ..
  · intro c n after
    unfold readPlaces
    dsimp only
    split <;> simp [gives]

/-- What follows whole digits where there is no decimal point. -/
def readWithoutPlaces (negative : Bool) (significand : Nat) (dropped : List Nat) (c : Cursor) :
    Except Breach (Number × Cursor) :=
  match c.accept? 'e', c.accept? 'E', dropped with
  | none, none, [] => wholeNumber negative significand c
  | _, _, _ => readScale negative significand dropped.length c

/-- Whether a number without a decimal point is whole is told by the next character, for a given
list of dropped digits. -/
theorem local_readWithoutPlaces (negative : Bool) (significand : Nat) (dropped : List Nat) :
    Local gives (readWithoutPlaces negative significand dropped) := by
  refine Local.of_head fun c => ?_
  -- whether the number is whole is told by the next character
  by_cases hPlain : c.accept? 'e' = none ∧ c.accept? 'E' = none ∧ dropped = []
  · refine ⟨_, local_wholeNumber negative significand, ?_⟩
    intro c' hHead
    rw [← Cursor.accept?_eq_none_congr hHead, ← Cursor.accept?_eq_none_congr hHead] at hPlain
    obtain ⟨hSmall, hCapital, rfl⟩ := hPlain
    simp only [readWithoutPlaces, hSmall, hCapital]
  · refine ⟨_, local_readScale negative significand dropped.length, ?_⟩
    intro c' hHead
    rw [← Cursor.accept?_eq_none_congr hHead, ← Cursor.accept?_eq_none_congr hHead] at hPlain
    unfold readWithoutPlaces
    split
    next _ hSmall hCapital => exact absurd ⟨hSmall, hCapital, rfl⟩ hPlain
    · rfl

/-- What follows the digits of a whole number. -/
def readAfterDigits (negative : Bool) (digits : List Nat) (c : Cursor) :
    Except Breach (Number × Cursor) :=
  let (significand, dropped) := accumulate 0 digits
  match c.accept? '.' with
  | some point => readPlaces negative significand dropped point
  | none => readWithoutPlaces negative significand dropped c

theorem local_readAfterDigits (negative : Bool) (digits : List Nat) :
    Local gives (readAfterDigits negative digits) := by
  have hPlaces := local_readPlaces negative (accumulate 0 digits).1 (accumulate 0 digits).2
  have hWithout := local_readWithoutPlaces negative (accumulate 0 digits).1 (accumulate 0 digits).2
  refine Local.accept '.' hPlaces hWithout fun c => ?_
  unfold readAfterDigits
  cases c.accept? '.' <;> rfl

/-- The digits of a whole number are looked at: there are some, and only zero starts with a zero. -/
def readFromDigits (negative : Bool) (digits : List Nat) (c : Cursor) :
    Except Breach (Number × Cursor) :=
  match digits with
  | [] | 0 :: _ :: _ => .error ⟨.invalidNumber, c.position⟩
  | digits => readAfterDigits negative digits c

theorem local_readUnsigned (negative : Bool) : Local gives (readUnsigned negative) := by
  refine Local.after (g := readFromDigits negative) local_takeDigits ?_ ?_
  · intro digits
    unfold readFromDigits
    split
    · exact local_error
    · exact local_error
    · exact local_readAfterDigits ..
  · intro c n after
    unfold readUnsigned
    generalize takeDigits c = r
    obtain ⟨digits, next⟩ := r
    match digits with
    | [] | 0 :: _ :: _ => simp [readFromDigits, gives]
    | [0] | [_ + 1] | (_ + 1) :: _ :: _ => rfl

theorem local_readNumber : Local gives readNumber := by
  refine Local.accept '-' (local_readUnsigned true) (local_readUnsigned false) fun c => ?_
  unfold readNumber
  cases c.accept? '-' <;> rfl

/-! ## Strings -/

/-- As many bytes are left as there are characters. -/
theorem Position.isSome_overBytes? {p : Position} {n : Nat} {chars : List Char}
    (h : n ≤ chars.length) : (p.overBytes? n chars).isSome := by
  fun_induction Position.overBytes? p n chars with
  | case1 => rfl
  | case2 => simp at h
  | case3 p n x rest hFits ih =>
    have hPos := x.utf8Size_pos
    rw [List.length_cons] at h
    exact ih (by omega)
  | case4 => rfl

/-- Where characters take one byte each there are as many of them as bytes. An escape of four digits
steps over four bytes, and digits take one byte each, so four characters were there. -/
theorem Position.le_length_of_overBytes? {p : Position} {n : Nat} {chars : List Char}
    (h : (p.overBytes? n chars).isSome) (hSingle : ∀ x ∈ chars.take n, x.utf8Size = 1) :
    n ≤ chars.length := by
  fun_induction Position.overBytes? p n chars with
  | case1 => exact Nat.zero_le _
  | case2 => cases h
  | case3 p n x rest hFits ih =>
    rw [List.take_succ_cons, List.forall_mem_cons] at hSingle
    rw [hSingle.1, Nat.add_sub_cancel] at ih h
    exact Nat.succ_le_succ (ih h hSingle.2)
  | case4 p n x rest hFits =>
    have hOne := hSingle x (by simp)
    omega

theorem utf8Size_of_hexDigit? {x : Char} {n : Nat} (h : hexDigit? x = some n) :
    x.utf8Size = 1 := by
  rw [Char.utf8Size_eq_one_iff]
  unfold hexDigit? at h
  split at h
  next hDigit =>
    have hLast := (Bool.and_eq_true_iff.1 hDigit).2
    simp only [decide_eq_true_eq, UInt32.le_iff_toNat_le] at hLast ⊢
    exact hLast.trans (by decide)
  · split at h
    next hSmall => exact UInt32.le_trans hSmall.2 (by decide)
    · split at h
      next hCapital => exact UInt32.le_trans hCapital.2 (by decide)
      · cases h

theorem exists_hexDigit?_of_hexValue? {digits : List Char} {start value : Nat}
    (h : digits.foldlM (fun n c => (hexDigit? c).map (16 * n + ·)) start = some value) :
    ∀ x ∈ digits, ∃ n, hexDigit? x = some n := by
  induction digits generalizing start with
  | nil => simp
  | cons x digits ih =>
    rw [List.foldlM_cons] at h
    cases hDigit : hexDigit? x with
    | none => simp [hDigit] at h
    | some n =>
      rw [hDigit] at h
      rw [List.forall_mem_cons]
      exact ⟨⟨n, hDigit⟩, ih h⟩

/-- A code unit is four characters. It is read by bytes, and what succeeds shows that all four are
digits, so any other text with these four characters is long enough too. -/
theorem local_readCodeUnit : Local gives readCodeUnit := by
  intro c unit after h
  unfold readCodeUnit at h
  split at h
  · cases h
  next place hPlace =>
    dsimp only at h
    split at h
    next value hValue =>
      cases h
      -- all four characters are hexadecimal digits, which take one byte each
      have hSingle : ∀ x ∈ c.rest.take 4, x.utf8Size = 1 := fun x hx =>
        (exists_hexDigit?_of_hexValue? hValue x hx).elim fun _ => utf8Size_of_hexDigit?
      have hLength := Position.le_length_of_overBytes? (by rw [hPlace]; rfl) hSingle
      have hFour : (c.rest.take 4).length = 4 := List.length_take_of_le hLength
      refine ⟨c.rest.take 4, (List.take_append_drop 4 c.rest).symm, fun rest _ => ?_⟩
      have hMore : 4 ≤ (c.rest.take 4 ++ rest).length := by
        rw [List.length_append, hFour]
        exact Nat.le_add_right 4 _
      obtain ⟨place', hPlace'⟩ := Option.isSome_iff_exists.1
        (Position.isSome_overBytes? (p := c.position) hMore)
      simp only [readCodeUnit, Cursor.rest_withRest, Cursor.position_withRest, hPlace',
        List.take_left' hFour, List.drop_left' hFour, hValue]
      rfl
    · cases h

theorem local_readLowUnit : Local gives readLowUnit := by
  have hUnit : Local gives fun c => (c.accept? 'u').elim
      (.error (c.breach .endInString .truncatedEscape)) readCodeUnit :=
    Local.accept 'u' local_readCodeUnit local_error fun _ => rfl
  refine Local.accept '\\' hUnit
    (local_error (b := fun c => c.breach .endInString .truncatedEscape)) fun c => ?_
  unfold readLowUnit
  cases c.accept? '\\' with
  | none => rfl
  | some after =>
    dsimp only [Option.elim]
    cases after.accept? 'u' <;> rfl

theorem local_readCodePoint : Local gives readCodePoint := by
  -- A high surrogate needs the unit after it, so the reader is one bind inside another, and each of
  -- its branches is an error or a plain result.
  refine Local.bind local_readCodeUnit (g := fun unit c =>
    if isLowUnit unit then .error ⟨.loneSurrogate, c.position⟩
    else if isHighUnit unit then
      readLowUnit c >>= fun r =>
        if isLowUnit r.1 then
          .ok (Char.ofNat ((unit - 0xD800) * 0x400 + (r.1 - 0xDC00) + 0x10000), r.2)
        else .error ⟨.loneSurrogate, r.2.position⟩
    else .ok (Char.ofNat unit, c)) fun unit => ?_
  split
  · exact local_error
  · split
    · refine Local.bind local_readLowUnit (g := fun low c =>
        if isLowUnit low then
          .ok (Char.ofNat ((unit - 0xD800) * 0x400 + (low - 0xDC00) + 0x10000), c)
        else .error ⟨.loneSurrogate, c.position⟩) fun low => ?_
      split
      · exact local_ok _
      · exact local_error
    · exact local_ok _

/-- An escape that is one character, after its backslash. -/
def readShortEscape (c : Cursor) : Except Breach (Char × Cursor) :=
  match c.rest with
  | [] => .error ⟨.endInString, c.position⟩
  | x :: rest =>
    match shortEscape? x with
    | some meant => .ok (meant, ⟨rest, c.position.overChar x⟩)
    | none => .error ⟨.invalidEscape, c.ahead⟩

theorem local_readShortEscape : Local gives readShortEscape := by
  intro c meant after h
  unfold readShortEscape at h
  split at h
  · cases h
  next x rest hRest =>
    split at h
    next hMeant =>
      cases h
      refine ⟨[x], hRest, fun rest _ => ?_⟩
      simp only [readShortEscape, Cursor.rest_withRest, List.singleton_append, hMeant]
      rfl
    · cases h

theorem local_readEscape : Local gives readEscape := by
  refine Local.accept 'u' local_readCodePoint local_readShortEscape fun c => ?_
  obtain ⟨rest, position⟩ := c
  cases rest with
  | nil => rfl
  | cons x rest =>
    by_cases hUnit : x = 'u'
    · simp [readEscape, Cursor.accept?, hUnit]
    · simp only [readEscape, Cursor.accept?, if_neg hUnit]
      rfl

/-- One character of a string as it is meant, or the closing quote. -/
def readCharacter (c : Cursor) : Except Breach (Option Char × Cursor) :=
  match c.rest with
  | [] => .error ⟨.endInString, c.position⟩
  | x :: rest =>
    let next : Cursor := ⟨rest, c.position.overChar x⟩
    if x = '"' then .ok (none, next)
    else if x = '\\' then readEscape next >>= fun r => .ok (some r.1, r.2)
    else if x.toNat < 0x20 then .error ⟨.controlCharacter, c.ahead⟩
    else .ok (some x, next)

theorem readCharacters_cons {b : Char} {bound done : List Char} {c : Cursor} :
    readCharacters (b :: bound) done c = readCharacter c >>= fun r =>
      match r.1 with
      | none => .ok (String.ofList done.reverse, r.2)
      | some meant => readCharacters bound (meant :: done) r.2 := by
  obtain ⟨rest, position⟩ := c
  cases rest with
  | nil => rfl
  | cons x rest =>
    simp only [readCharacters, readCharacter]
    split
    · rfl
    · split
      · cases readEscape ⟨rest, position.overChar x⟩ <;> rfl
      · split <;> rfl

/-- A character that stands for itself. -/
def readPlainCharacter (c : Cursor) : Except Breach (Option Char × Cursor) :=
  match c.rest with
  | [] => .error ⟨.endInString, c.position⟩
  | x :: rest =>
    if x.toNat < 0x20 then .error ⟨.controlCharacter, c.ahead⟩
    else .ok (some x, ⟨rest, c.position.overChar x⟩)

theorem local_readPlainCharacter : Local gives readPlainCharacter := by
  intro c meant after h
  unfold readPlainCharacter at h
  split at h
  · cases h
  next x rest hRest =>
    split at h
    · cases h
    next hControl =>
      cases h
      refine ⟨[x], hRest, fun rest _ => ?_⟩
      simp only [readPlainCharacter, Cursor.rest_withRest, List.singleton_append,
        if_neg hControl]
      rfl

theorem local_readCharacter : Local gives readCharacter := by
  have hEscape : Local gives fun c => readEscape c >>= fun r => .ok (some r.1, r.2) :=
    Local.bind local_readEscape (g := fun meant c => .ok (some meant, c)) fun meant =>
      local_ok (some meant)
  have hOther : Local gives fun c => (c.accept? '\\').elim (readPlainCharacter c)
      fun c => readEscape c >>= fun r => .ok (some r.1, r.2) :=
    Local.accept '\\' hEscape local_readPlainCharacter fun _ => rfl
  refine Local.accept '"' (local_ok none) hOther fun c => ?_
  obtain ⟨rest, position⟩ := c
  cases rest with
  | nil => rfl
  | cons x rest =>
    by_cases hQuote : x = '"'
    · simp [readCharacter, Cursor.accept?, hQuote]
    · by_cases hSlash : x = '\\'
      · simp [readCharacter, Cursor.accept?, hSlash]
      · simp [readCharacter, readPlainCharacter, Cursor.accept?, hQuote, hSlash]

/-- Each character of a string takes something, the closing quote included. So the bound on the
rounds, the length of what is left, is never what ends a string. -/
theorem length_rest_lt_of_readCharacter {c after : Cursor} {meant : Option Char}
    (h : readCharacter c = .ok (meant, after)) : after.rest.length < c.rest.length := by
  -- The first character is always taken; an escape may take more, the other two kinds do not.
  unfold readCharacter at h
  split at h
  · cases h
  next x rest hRest =>
    rw [hRest, List.length_cons, Nat.lt_succ_iff]
    dsimp only at h
    split at h
    · cases h
      exact le_rfl
    · split at h
      · rcases hMeant : readEscape ⟨rest, c.position.overChar x⟩ with breach | r
        · rw [hMeant] at h
          cases h
        · rw [hMeant] at h
          cases h
          obtain ⟨taken, hTaken, -⟩ := local_readEscape hMeant
          simp [show rest = taken ++ _ from hTaken]
      · split at h
        · cases h
        · cases h
          exact le_rfl

/-- A string takes as many rounds as there are characters in it at most. By induction on the bound:
the round that is done takes one character or more, so the rounds that are left suffice for the
rest, and any other bound of the length of what is taken does as well. -/
theorem exists_taken_readCharacters {bound done : List Char} {c after : Cursor} {text : String}
    (h : readCharacters bound done c = .ok (text, after)) : ∃ taken,
      c.rest = taken ++ after.rest ∧
        ∀ rest, rest.head? = after.rest.head? → ∀ bound', taken.length ≤ bound'.length →
          readCharacters bound' done (c.withRest (taken ++ rest)) =
            .ok (text, after.withRest rest) := by
  induction bound generalizing done c with
  | nil =>
    unfold readCharacters at h
    cases h
  | cons _ bound ih =>
    rw [readCharacters_cons] at h
    rcases hMeant : readCharacter c with breach | ⟨meant, next⟩
    · rw [hMeant] at h
      cases h
    · rw [hMeant] at h
      obtain ⟨taken, hTaken, hReads⟩ := local_readCharacter hMeant
      -- Something is taken in each round, so the other bound has a round left for it as well.
      have hPositive : 0 < taken.length := by
        have hShorter := length_rest_lt_of_readCharacter hMeant
        rw [hTaken, List.length_append] at hShorter
        omega
      cases meant with
      | none =>
        cases h
        refine ⟨taken, hTaken, fun rest hHead bound' hBound => ?_⟩
        obtain ⟨_, bound', rfl⟩ := List.exists_cons_of_length_pos (hPositive.trans_le hBound)
        rw [readCharacters_cons, hReads rest hHead]
        rfl
      | some meant =>
        obtain ⟨more, hMore, hRounds⟩ := ih h
        refine ⟨taken ++ more, by rw [hTaken, hMore, List.append_assoc],
          fun rest hHead bound' hBound => ?_⟩
        rw [List.length_append] at hBound
        obtain ⟨_, bound', rfl⟩ := List.exists_cons_of_length_pos (l := bound') (by omega)
        rw [List.length_cons] at hBound
        have hNext := hReads (more ++ rest) (by rw [hMore]; exact head?_append_congr hHead more)
        rw [readCharacters_cons, List.append_assoc, hNext]
        exact hRounds rest hHead bound' (by omega)

theorem local_readString : Local gives readString := by
  intro c text after h
  obtain ⟨taken, hTaken, hReads⟩ := exists_taken_readCharacters h
  refine ⟨taken, hTaken, fun rest hHead => hReads rest hHead _ ?_⟩
  rw [Cursor.rest_withRest, List.length_append]
  exact Nat.le_add_right ..

end ValidatorGen.Json
