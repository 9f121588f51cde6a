import ValidatorGen.Proofs.Locality
import ValidatorGen.Proofs.TextAndValue

/-!
# Documents with something after them

The readers of snapshots and of configurations stop after the first value of a text. They do not ask
what follows it, so a text is accepted exactly if it begins with a whole document that is accepted
for itself, and then it is read as that document; a second document after it, or anything else that
is no JSON at all, goes unnoticed.

What a reader does may depend on the character after what it has taken, since a number ends where
the next character is no part of it. So the property that is carried through the readers is local:
if the text is changed after the part that was taken, and the first character after it stays, the
reading stays as well (`Written.Settled`). For lists and objects, which end with a bracket of their
own, the next character does not matter either.

The loops for items and for members differ in what one round reads and in what they keep of it.
Their common form is `Rounds`, so that the induction on the rounds is done once.

Main results:

* `Written.settled_readAt` — a value is read in the same way whatever follows it;
* `ofText_eq_ok_iff_prefix` — the accepted texts are those that begin with an accepted document.
-/

namespace ValidatorGen

namespace Json

open Written

section Delimiters

variable {α β : Type} {done : α → Cursor → β} {read : Cursor → β}
variable {c next following after : Cursor} {a : α} {expected : Char}

/-- Up to a character that is taken after some white space, nothing depends on what follows. -/
theorem Local.upTo (hLocal : Local done read) (hRead : read c = done a next)
    (hNext : next.skipSpace.accept? expected = some after) : ∃ taken,
      taken ≠ [] ∧ c.rest = taken ++ after.rest ∧ ∀ rest, ∃ between : Cursor,
        between.position = next.position ∧
        read (c.withRest (taken ++ rest)) = done a between ∧
        between.skipSpace.position = next.skipSpace.position ∧
        between.skipSpace.accept? expected = some (after.withRest rest) := by
  obtain ⟨taken, hTaken, hReads⟩ := hLocal hRead
  -- the white space and the character belong to what is taken
  have hExpected := (Cursor.accept?_eq_some_iff.1 hNext).1
  obtain ⟨space, hSpace, hSkips⟩ :=
    Cursor.exists_skipSpace_taken (List.cons_ne_nil expected []) hExpected
  refine ⟨taken ++ (space ++ [expected]), by simp, ?_, fun rest => ?_⟩
  · rw [hTaken, hSpace]
    simp
  · have hTakes : space ++ [expected] ≠ [] := by simp
    have hBetween : (space ++ [expected] ++ rest).head? = next.rest.head? := by
      rw [hSpace, List.head?_append_of_ne_nil _ hTakes, List.head?_append_of_ne_nil _ hTakes]
    have hSkip := (hSkips rest).1
    refine ⟨next.withRest (space ++ [expected] ++ rest), rfl, ?_, ?_, ?_⟩
    · rw [List.append_assoc]
      exact hReads _ hBetween
    · rw [hSkip, Cursor.position_withRest]
    · rw [hSkip]
      exact Cursor.accept?_withRest hNext rest

/-- The same where more is taken after the character and some white space. -/
theorem Local.upToMore (hLocal : Local done read) (hRead : read c = done a next)
    (hNext : next.skipSpace.accept? expected = some following) {more : List Char}
    (hNonempty : more ≠ []) (hMore : following.skipSpace.rest = more ++ after.rest) : ∃ taken,
      taken ≠ [] ∧ c.rest = taken ++ (more ++ after.rest) ∧ ∀ rest, ∃ between further : Cursor,
        between.position = next.position ∧
        read (c.withRest (taken ++ (more ++ rest))) = done a between ∧
        between.skipSpace.position = next.skipSpace.position ∧
        between.skipSpace.accept? expected = some further ∧
        further.skipSpace = following.skipSpace.withRest (more ++ rest) ∧
        further.skipSpace.rest.head? = following.skipSpace.rest.head? := by
  obtain ⟨taken, hTakes, hTaken, hReads⟩ := hLocal.upTo hRead hNext
  -- what comes after the white space is taken as well, so its first character stays
  obtain ⟨space, hSpace, hSkips⟩ := Cursor.exists_skipSpace_taken hNonempty hMore
  refine ⟨taken ++ space, by simp [hTakes], ?_, fun rest => ?_⟩
  · rw [hTaken, hSpace]
    simp
  · obtain ⟨between, hPosition, hBetween, hSkipped, hFurther⟩ := hReads (space ++ more ++ rest)
    obtain ⟨hSkip, hHead⟩ := hSkips rest
    refine ⟨between, following.withRest (space ++ more ++ rest), hPosition, ?_, hSkipped,
      hFurther, hSkip, ?_⟩
    · rw [List.append_assoc, ← List.append_assoc space]
      exact hBetween
    · rw [hSkip]
      exact hHead

end Delimiters

/-! ## Loops

Items and members are read in the same way: in each round one part, and after it either the closing
bracket or a comma, after which the loop goes on. -/

namespace Written

/-- How a reading ends well. -/
def reads {α : Type} (a : α) (c : Cursor) : Reading α :=
  (a, .ok c)

/-- Whether a value has no parts. Only such a value can go on in what follows it. -/
def isScalar : Written → Bool
  | .scalar .. => true
  | _ => false

/-- A reader of values gives the same whatever follows what it takes. Only what follows a scalar has
to begin with the same character. This is what the induction on the depth carries. -/
def Settled (read : Cursor → Reading Written) : Prop :=
  ∀ ⦃c w after⦄, read c = (w, .ok after) → ∃ taken, c.rest = taken ++ after.rest ∧
    ∀ rest, (w.isScalar = true → rest.head? = after.rest.head?) →
      read (c.withRest (taken ++ rest)) = (w, .ok (after.withRest rest))

/-- A loop that reads one part in each round. The list of characters bounds the rounds. The fields
are what the proof about the loop needs to know of it, and each loop of the reader is shown to have
them. -/
structure Rounds {π δ : Type} (part : Cursor → Option (π × Cursor)) (close : Char)
    (loop : List Char → Cursor → Reading δ) where
  /-- What is read in the last round, of which the bracket is the end. -/
  last : π → Position → δ
  /-- What is read where more rounds come after the comma. -/
  push : π → Position → δ → δ
  /-- Whether the loop goes on after a comma is told by the next character. -/
  GoesOn : Option Char → Prop
  nil_ne {c after : Cursor} {l : δ} : loop [] c ≠ (l, .ok after)
  closed {b : Char} {bound : List Char} {c next after : Cursor} {p : π} :
    part c = some (p, next) → next.skipSpace.accept? close = some after →
      loop (b :: bound) c = (last p next.skipSpace.position, .ok after)
  comma {b : Char} {bound : List Char} {c next following : Cursor} {p : π} :
    part c = some (p, next) → next.skipSpace.accept? ',' = some following →
      GoesOn following.skipSpace.rest.head? →
        loop (b :: bound) c = (push p next.skipSpace.position (loop bound following.skipSpace).1,
          (loop bound following.skipSpace).2)
  /-- What the first round does where the loop comes to its end. -/
  cases {b : Char} {bound : List Char} {c after : Cursor} {l : δ} :
    loop (b :: bound) c = (l, .ok after) → ∃ p next, part c = some (p, next) ∧
      (next.skipSpace.accept? close = some after ∨
        ∃ following, next.skipSpace.accept? ',' = some following ∧
          GoesOn following.skipSpace.rest.head? ∧
          (loop bound following.skipSpace).2 = .ok after)

section Rounds

variable {π δ : Type} {part : Cursor → Option (π × Cursor)} {close : Char}
variable {loop : List Char → Cursor → Reading δ}

/-- A loop that comes to its end has as many rounds as characters are taken at most, and nothing
depends on what follows them. -/
theorem Rounds.exists_taken (rounds : Rounds part close loop)
    (hPart : Local (fun p c => some (p, c)) part) {bound : List Char} {c after : Cursor} {l : δ}
    (h : loop bound c = (l, .ok after)) : ∃ taken,
      taken ≠ [] ∧ c.rest = taken ++ after.rest ∧
        ∀ rest, ∀ bound', taken.length ≤ bound'.length →
          loop bound' (c.withRest (taken ++ rest)) = (l, .ok (after.withRest rest)) := by
  induction bound generalizing c l with
  | nil => exact absurd h rounds.nil_ne
  | cons _ bound ih =>
    obtain ⟨p, next, hRead, hClosed | ⟨following, hComma, hMore, hRounds⟩⟩ := rounds.cases h
    · -- the last round
      rw [rounds.closed hRead hClosed] at h
      cases h
      obtain ⟨taken, hTakes, hTaken, hReads⟩ := hPart.upTo hRead hClosed
      refine ⟨taken, hTakes, hTaken, ?_⟩
      intro rest bound' hBound
      obtain ⟨_, bound', rfl⟩ := List.exists_cons_of_length_pos
        ((List.length_pos_of_ne_nil hTakes).trans_le hBound)
      obtain ⟨between, -, hRead', hPlace, hClosed'⟩ := hReads rest
      rw [rounds.closed hRead' hClosed', hPlace]
    · -- a round before others, which take at least one character
      rw [rounds.comma hRead hComma hMore] at h
      obtain ⟨rfl, -⟩ := Prod.mk.inj h
      obtain ⟨more, hMoreTakes, hMoreTaken, hFurther⟩ := ih (Prod.ext rfl hRounds)
      obtain ⟨taken, hTakes, hTaken, hReads⟩ := hPart.upToMore hRead hComma hMoreTakes hMoreTaken
      refine ⟨taken ++ more, by simp [hTakes], by rw [hTaken, List.append_assoc], ?_⟩
      intro rest bound' hBound
      have hLength := List.length_pos_of_ne_nil hTakes
      rw [List.length_append] at hBound
      obtain ⟨_, bound', rfl⟩ := List.exists_cons_of_length_pos (l := bound') (by omega)
      rw [List.length_cons] at hBound
      obtain ⟨between, further, -, hRead', hPlace, hComma', hSkip, hHead⟩ := hReads rest
      rw [← hHead] at hMore
      rw [List.append_assoc, rounds.comma hRead' hComma' hMore, hPlace, hSkip,
        hFurther rest bound' (by omega)]

/-- Nothing depends on what follows a value that is read by such a loop, or that has no part. -/
theorem Rounds.settled (rounds : Rounds part close loop)
    (hPart : Local (fun p c => some (p, c)) part) {read : Cursor → Reading Written}
    (empty : Position → Written) (wrap : δ → Written)
    (hEmpty : ∀ c after, c.skipSpace.accept? close = some after →
      read c = (empty c.skipSpace.position, .ok after))
    (hParts : ∀ c, c.skipSpace.accept? close = none → c.skipSpace.rest ≠ [] →
      read c = (wrap (loop c.skipSpace.rest c.skipSpace).1, (loop c.skipSpace.rest c.skipSpace).2))
    (hEnd : ∀ c w after, c.skipSpace.rest = [] → read c ≠ (w, .ok after)) : Settled read := by
  intro c w after h
  -- What is taken is the space in front and then either the closing character or what the loop
  -- takes. The closing character ends a list or an object, so there is no condition on what
  -- follows.
  cases hClosed : c.skipSpace.accept? close with
  | some place =>
    rw [hEmpty c place hClosed] at h
    cases h
    obtain ⟨space, hSpace, hSkips⟩ := Cursor.exists_skipSpace_taken (List.cons_ne_nil close [])
      (Cursor.accept?_eq_some_iff.1 hClosed).1
    refine ⟨space ++ [close], hSpace, ?_⟩
    intro rest _
    have hClosed' := Cursor.accept?_withRest hClosed rest
    rw [hEmpty _ (after.withRest rest) (by rw [(hSkips rest).1]; exact hClosed'), (hSkips rest).1,
      Cursor.position_withRest]
  | none =>
    have hMore : c.skipSpace.rest ≠ [] := fun hNone => hEnd c w after hNone h
    rw [hParts c hClosed hMore] at h
    obtain ⟨rfl, hRounds⟩ := Prod.mk.inj h
    -- The bound of the loop is the rest of the text. A different rest gives it a different bound,
    -- which is why `exists_taken` is about every bound that is long enough.
    obtain ⟨taken, hTakes, hTaken, hReads⟩ := rounds.exists_taken hPart (Prod.ext rfl hRounds)
    obtain ⟨space, hSpace, hSkips⟩ := Cursor.exists_skipSpace_taken hTakes hTaken
    refine ⟨space ++ taken, hSpace, ?_⟩
    intro rest _
    obtain ⟨hSkip, hHead⟩ := hSkips rest
    have hRead := hReads rest (taken ++ rest) (by simp)
    rw [hParts, hSkip, Cursor.rest_withRest, hRead]
    · rw [hSkip, Cursor.accept?_eq_none_congr hHead]
      exact hClosed
    · rw [hSkip]
      simp [hTakes]

end Rounds

/-! ### Lists -/

/-- An item that is read to its end. -/
def readItem? (readItem : Cursor → Reading Written) (c : Cursor) : Option (Written × Cursor) :=
  match readItem c with
  | (item, .ok next) => some (item, next)
  | (_, .error _) => none

theorem readItem?_eq_some_iff {readItem : Cursor → Reading Written} {c next : Cursor}
    {item : Written} :
    readItem? readItem c = some (item, next) ↔ readItem c = (item, .ok next) := by
  unfold readItem?
  rcases readItem c with ⟨w, breach | place⟩ <;> simp

theorem local_readItem? {readItem : Cursor → Reading Written} (hLocal : Local reads readItem) :
    Local (fun item c => some (item, c)) (readItem? readItem) := by
  intro c item next h
  obtain ⟨taken, hTaken, hReads⟩ := hLocal (readItem?_eq_some_iff.1 h)
  exact ⟨taken, hTaken, fun rest hHead => readItem?_eq_some_iff.2 (hReads rest hHead)⟩

/-- A list goes on after a comma unless the text ends or the bracket follows. -/
def roundsOfItems (readItem : Cursor → Reading Written) :
    Rounds (readItem? readItem) ']' (readItems readItem) where
  last item bracket := ([item], .closed bracket)
  push item _ list := (item :: list.1, list.2)
  GoesOn head := head ≠ none ∧ head ≠ some ']'
  nil_ne h := by cases h
  closed hPart hClosed := by
    simp only [readItems, readItem?_eq_some_iff.1 hPart, hClosed]
  comma {b bound c next following item} hPart hComma hMore := by
    -- After a comma the reader of lists also stops where the text ends.
    have hGoesOn : ¬ (following.skipSpace.rest.isEmpty = true ∨
        (following.skipSpace.accept? ']').isSome = true) := by
      rw [← Cursor.accept?_eq_none_iff] at hMore
      simpa using hMore
    have hOpen : next.skipSpace.accept? ']' = none :=
      Cursor.accept?_eq_none_of_ne hComma (by decide)
    simp only [readItems, readItem?_eq_some_iff.1 hPart, hComma, hOpen, if_neg hGoesOn]
  -- Only two ends of a round are successes: the closing bracket, and a comma with more behind it.
  cases {b bound c after list} h := by
    unfold readItems at h
    split at h
    · cases h
    next item next hItem =>
      refine ⟨item, next, readItem?_eq_some_iff.2 hItem, ?_⟩
      dsimp only at h
      split at h
      next place hClosed =>
        cases h
        exact Or.inl hClosed
      · cases h
      next following hOpen hComma =>
        split at h
        · cases h
        next hMore =>
          refine Or.inr ⟨following, hComma, ?_, congrArg Prod.snd h⟩
          rw [← Cursor.accept?_eq_none_iff]
          simpa using hMore

/-- Nothing depends on what follows a list. -/
theorem settled_readList {readItem : Cursor → Reading Written} (hLocal : Local reads readItem)
    (start : Position) : Settled (readList readItem start) := by
  refine (roundsOfItems readItem).settled (local_readItem? hLocal)
    (fun bracket => .list start [] (.closed bracket)) (fun list => .list start list.1 list.2)
    ?_ ?_ ?_
  · intro c after hClosed
    simp only [readList, hClosed]
  · intro c hOpen hMore
    have hGoesOn : ¬ c.skipSpace.rest.isEmpty = true := by simp [hMore]
    simp only [readList, hOpen, if_neg hGoesOn]
  · intro c w after hNone h
    simp [readList, Cursor.accept?, hNone] at h

/-! ### Objects -/

/-- A name, a colon and a value: the member but for what comes after it. -/
def readMember? (readValue : Cursor → Reading Written) (c : Cursor) :
    Option ((Position → Member Written) × Cursor) :=
  match c.accept? '"' with
  | none => none
  | some text =>
    match readString text with
    | .error _ => none
    | .ok (name, named) =>
      match named.skipSpace.accept? ':' with
      | none => none
      | some afterColon =>
        match readValue afterColon with
        | (_, .error _) => none
        | (value, .ok next) =>
          some (fun place => ⟨name, named.position, named.skipSpace.position, value, place⟩, next)

section Members

variable {readValue : Cursor → Reading Written} {c next : Cursor} {m : Position → Member Written}

theorem readMember?_eq_some_iff :
    readMember? readValue c = some (m, next) ↔
      ∃ text name named afterColon value, c.accept? '"' = some text ∧
        readString text = .ok (name, named) ∧ named.skipSpace.accept? ':' = some afterColon ∧
        readValue afterColon = (value, .ok next) ∧
        m = fun place => ⟨name, named.position, named.skipSpace.position, value, place⟩ := by
  constructor
  -- Each step that can fail splits the reading once; only the last branch gives a member.
  · intro h
    unfold readMember? at h
    split at h
    · cases h
    next text hQuote =>
      split at h
      · cases h
      next name named hName =>
        split at h
        · cases h
        next afterColon hColon =>
          split at h
          · cases h
          next value place hValue =>
            cases h
            exact ⟨text, name, named, afterColon, value, hQuote, hName, hColon, hValue, rfl⟩
  · rintro ⟨text, name, named, afterColon, value, hQuote, hName, hColon, hValue, rfl⟩
    simp only [readMember?, hQuote, hName, hColon, hValue]

theorem local_readMember? (hLocal : Local reads readValue) :
    Local (fun m c => some (m, c)) (readMember? readValue) := by
  intro c m next h
  obtain ⟨text, name, named, afterColon, value, hQuote, hName, hColon, hValue, rfl⟩ :=
    readMember?_eq_some_iff.1 h
  obtain ⟨taken, -, hTaken, hNames⟩ := local_readString.upTo hName hColon
  obtain ⟨more, hMore, hValues⟩ := hLocal hValue
  refine ⟨'"' :: (taken ++ more), ?_, fun rest hHead => readMember?_eq_some_iff.2 ?_⟩
  · rw [(Cursor.accept?_eq_some_iff.1 hQuote).1, hTaken, hMore]
    simp
  · obtain ⟨between, hNameEnd, hName', hPlace, hColon'⟩ := hNames (more ++ rest)
    have hQuote' := Cursor.accept?_withRest hQuote (taken ++ (more ++ rest))
    rw [List.cons_append, List.append_assoc]
    exact ⟨_, name, between, _, value, hQuote', hName', hColon', hValues rest hHead, by
      rw [hNameEnd, hPlace]⟩

end Members

/-- An object goes on after a comma unless the brace follows. -/
def roundsOfMembers (readValue : Cursor → Reading Written) :
    Rounds (readMember? readValue) '\x7d' (readMembers readValue) where
  last m brace := ([m brace], .closed brace)
  push m place object := (m place :: object.1, object.2)
  GoesOn head := head ≠ some '\x7d'
  nil_ne h := by cases h
  closed hPart hClosed := by
    obtain ⟨text, name, named, afterColon, value, hQuote, hName, hColon, hValue, rfl⟩ :=
      readMember?_eq_some_iff.1 hPart
    simp only [readMembers, hQuote, hName, hColon, hValue, hClosed]
  comma {b bound c next following m} hPart hComma hMore := by
    obtain ⟨text, name, named, afterColon, value, hQuote, hName, hColon, hValue, rfl⟩ :=
      readMember?_eq_some_iff.1 hPart
    -- Unlike that of lists, the reader of objects leaves the end of the text to the next round.
    have hGoesOn : ¬ (following.skipSpace.accept? '\x7d').isSome = true := by
      rw [← Cursor.accept?_eq_none_iff] at hMore
      simp [hMore]
    have hOpen : next.skipSpace.accept? '\x7d' = none :=
      Cursor.accept?_eq_none_of_ne hComma (by decide)
    simp only [readMembers, hQuote, hName, hColon, hValue, hComma, hOpen, if_neg hGoesOn]
  -- As with lists, all ends but the brace and a comma are faults; a round of an object has more of
  -- them, one for each part of a member.
  cases {b bound c after object} h := by
    unfold readMembers at h
    split at h
    · cases h
    next text hQuote =>
      split at h
      · cases h
      next name named hName =>
        dsimp only at h
        split at h
        · cases h
        next afterColon hColon =>
          split at h
          · cases h
          next value next hValue =>
            refine ⟨_, next, readMember?_eq_some_iff.2
              ⟨text, name, named, afterColon, value, hQuote, hName, hColon, hValue, rfl⟩, ?_⟩
            split at h
            next place hClosed =>
              cases h
              exact Or.inl hClosed
            · cases h
            next following hOpen hComma =>
              split at h
              · cases h
              next hMore =>
                refine Or.inr ⟨following, hComma, ?_, congrArg Prod.snd h⟩
                rw [← Cursor.accept?_eq_none_iff]
                simpa using hMore

/-- Nothing depends on what follows an object. -/
theorem settled_readObject {readValue : Cursor → Reading Written} (hLocal : Local reads readValue)
    (start : Position) : Settled (readObject readValue start) := by
  refine (roundsOfMembers readValue).settled (local_readMember? hLocal)
    (fun brace => .object start [] (.closed brace)) (fun object => .object start object.1 object.2)
    ?_ ?_ ?_
  · intro c after hClosed
    simp only [readObject, hClosed]
  · intro c hOpen hMore
    have hGoesOn : ¬ c.skipSpace.rest.isEmpty = true := by simp [hMore]
    simp only [readObject, hOpen, if_neg hGoesOn]
  · intro c w after hNone h
    simp [readObject, Cursor.accept?, hNone] at h

/-! ## Values -/

theorem Settled.isLocal {read : Cursor → Reading Written} (h : Settled read) :
    Local reads read := by
  intro c w after hRead
  obtain ⟨taken, hTaken, hReads⟩ := h hRead
  exact ⟨taken, hTaken, fun rest hHead => hReads rest fun _ => hHead⟩

theorem settled_ofScalar {α : Type} {read : Cursor → Except Breach (α × Cursor)}
    (hLocal : Local gives read) (start : Position) (fragment : Fragment) (wrap : α → Scalar) :
    Settled fun c => ofScalar start fragment wrap (read c) := by
  intro c w after h
  dsimp only at h ⊢
  rcases hRead : read c with breach | ⟨a, next⟩
  · rw [hRead] at h
    cases h
  · rw [hRead] at h
    cases h
    obtain ⟨taken, hTaken, hReads⟩ := hLocal hRead
    refine ⟨taken, hTaken, fun rest hHead => ?_⟩
    rw [hReads rest (hHead rfl)]
    rfl

theorem settled_ofWord (start : Position) (letters : String) (value : Scalar) :
    Settled (ofWord start letters value) := by
  have hWord : Local gives fun c => (readWord letters.toList c).map (value, ·) := by
    intro c scalar after h
    obtain ⟨next, hNext, hResult⟩ := except_map_eq_ok_iff.1 h
    cases hResult
    obtain ⟨taken, hTaken, hReads⟩ := local_readWord letters.toList (a := ()) hNext
    refine ⟨taken, hTaken, fun rest hHead => ?_⟩
    dsimp only
    rw [hReads rest hHead]
    rfl
  exact settled_ofScalar hWord start .word id

theorem readAt_skipSpace (depth : Nat) (c : Cursor) :
    readAt depth c.skipSpace = readAt depth c := by
  unfold readAt
  rw [c.skipSpace_skipSpace]

/-- A value that starts with a character, after which it is read by another reader. -/
theorem exists_taken_cons {read f : Cursor → Reading Written} (hSettled : Settled f) {x : Char}
    {left : List Char} {place : Position} {w : Written} {after : Cursor}
    (hSame : ∀ rest, read ⟨x :: rest, place⟩ = f ⟨rest, place.overChar x⟩)
    (h : read ⟨x :: left, place⟩ = (w, .ok after)) : ∃ taken, x :: left = taken ++ after.rest ∧
      ∀ rest, (w.isScalar = true → rest.head? = after.rest.head?) →
        (taken ++ rest).head? = some x ∧
        read ⟨taken ++ rest, place⟩ = (w, .ok (after.withRest rest)) := by
  rw [hSame] at h
  obtain ⟨taken, hTaken, hReads⟩ := hSettled h
  refine ⟨x :: taken, congrArg (x :: ·) hTaken, fun rest hHead => ⟨rfl, ?_⟩⟩
  rw [List.cons_append, hSame]
  exact hReads rest hHead

/-- A number starts with the character that tells that it is one. -/
theorem readAt_number {depth : Nat} {x : Char} {rest : List Char} {place : Position}
    (hNumber : x = '-' ∨ x.isDigit = true) : readAt depth ⟨x :: rest, place⟩ =
      ofScalar place .number .number (readNumber ⟨x :: rest, place⟩) := by
  have hSpace : isSpace x = false := by
    by_contra hSpace
    rw [Bool.not_eq_false] at hSpace
    simp only [isSpace, Bool.or_eq_true, decide_eq_true_eq] at hSpace
    obtain ((rfl | rfl) | rfl) | rfl := hSpace <;> revert hNumber <;> decide
  unfold readAt
  rw [Cursor.skipSpace_of_head hSpace]
  dsimp only
  split
  case h_7 => rw [if_pos hNumber]
  all_goals exact absurd hNumber (by decide)

theorem exists_taken_number {depth : Nat} {x : Char} {left : List Char} {place : Position}
    {w : Written} {after : Cursor} (hNumber : x = '-' ∨ x.isDigit = true)
    (h : readAt depth ⟨x :: left, place⟩ = (w, .ok after)) : ∃ taken,
      x :: left = taken ++ after.rest ∧
        ∀ rest, (w.isScalar = true → rest.head? = after.rest.head?) →
          (taken ++ rest).head? = some x ∧
          readAt depth ⟨taken ++ rest, place⟩ = (w, .ok (after.withRest rest)) := by
  rw [readAt_number hNumber] at h
  obtain ⟨taken, hTaken, hReads⟩ := settled_ofScalar local_readNumber place .number .number h
  -- A number is the one value that what follows may prolong, so the next character has to be the
  -- same.
  have hScalar : w.isScalar = true := by
    rcases hRead : readNumber ⟨x :: left, place⟩ with breach | r
    · rw [hRead] at h
      cases h
    · rw [hRead] at h
      cases h
      rfl
  refine ⟨taken, hTaken, fun rest hRest => ?_⟩
  have hHead : (taken ++ rest).head? = some x := by
    rw [head?_append_congr (hRest hScalar), ← hTaken]
    rfl
  obtain ⟨more, hMore⟩ := List.head?_eq_some_iff.1 hHead
  have hRead := hReads rest hRest
  rw [Cursor.withRest, hMore] at hRead
  rw [hMore, readAt_number hNumber]
  exact ⟨rfl, hRead⟩

/-- What is taken where no white space stands before the value. -/
theorem exists_taken_readAt {depth : Nat} (hDeeper : ∀ d, depth = d + 1 → Settled (readAt d))
    {x : Char} {left : List Char} {place : Position} {w : Written} {after : Cursor}
    (hSpace : isSpace x = false) (h : readAt depth ⟨x :: left, place⟩ = (w, .ok after)) : ∃ taken,
      x :: left = taken ++ after.rest ∧
        ∀ rest, (w.isScalar = true → rest.head? = after.rest.head?) →
          (taken ++ rest).head? = some x ∧
          readAt depth ⟨taken ++ rest, place⟩ = (w, .ok (after.withRest rest)) := by
  have hStay : ∀ rest, Cursor.skipSpace ⟨x :: rest, place⟩ = ⟨x :: rest, place⟩ :=
    fun _ => Cursor.skipSpace_of_head hSpace
  have hHere := h
  simp only [readAt, hStay] at hHere
  -- one case for each character with which a value starts
  split at hHere
  · exact exists_taken_cons (settled_ofWord place "ull" .null)
      (fun _ => by simp only [readAt, hStay]) h
  · exact exists_taken_cons (settled_ofWord place "rue" (.bool true))
      (fun _ => by simp only [readAt, hStay]) h
  · exact exists_taken_cons (settled_ofWord place "alse" (.bool false))
      (fun _ => by simp only [readAt, hStay]) h
  · exact exists_taken_cons (settled_ofScalar local_readString place .string .string)
      (fun _ => by simp only [readAt, hStay]) h
  · cases depth with
    | zero => cases hHere
    | succ d =>
      have hItems := (hDeeper d rfl).isLocal
      exact exists_taken_cons (settled_readList hItems place)
        (fun _ => by simp only [readAt, hStay]) h
  · cases depth with
    | zero => cases hHere
    | succ d =>
      have hValues := (hDeeper d rfl).isLocal
      exact exists_taken_cons (settled_readObject hValues place)
        (fun _ => by simp only [readAt, hStay]) h
  · split at hHere
    next hNumber => exact exists_taken_number hNumber h
    · cases hHere

/-- White space before a value changes nothing. -/
theorem settled_readAt_of_deeper {depth : Nat}
    (hDeeper : ∀ d, depth = d + 1 → Settled (readAt d)) : Settled (readAt depth) := by
  intro c w after h
  rw [← readAt_skipSpace] at h
  obtain ⟨space, hTaken, hSkips⟩ := c.exists_skipSpace_withRest
  have hHead := c.isSpace_head?_skipSpace
  rcases hSkip : c.skipSpace with ⟨left, place⟩
  rw [hSkip] at h hTaken hSkips hHead
  cases left with
  | nil =>
    unfold readAt at h
    cases h
  | cons x left =>
    obtain ⟨taken, hLeft, hReads⟩ := exists_taken_readAt hDeeper (hHead x rfl) h
    dsimp only at hTaken hSkips
    refine ⟨space ++ taken, by rw [hTaken, hLeft, List.append_assoc], fun rest hRest => ?_⟩
    obtain ⟨hSame, hRead⟩ := hReads rest hRest
    rw [← readAt_skipSpace, List.append_assoc, hSkips _ hSame]
    exact hRead

/-- A value is read in the same way whatever follows it, at any depth. -/
theorem settled_readAt (depth : Nat) : Settled (readAt depth) := by
  induction depth with
  | zero =>
    refine settled_readAt_of_deeper fun d hDepth => ?_
    cases hDepth
  | succ depth ih =>
    refine settled_readAt_of_deeper fun d hDepth => ?_
    cases hDepth
    exact ih

/-! ## Texts -/

/-- A list or an object at the start of a text is read in the same way if the text goes on. -/
theorem read_append {document : String} {w : Written} {after : Cursor}
    (h : read document = (w, .ok after)) (hParts : w.isScalar = false) (rest : String) :
    read (document ++ rest) = (w, .ok (after.withRest (after.rest ++ rest.toList))) := by
  obtain ⟨taken, hTaken, hReads⟩ := settled_readAt maxDepth h
  have hText : (document ++ rest).toList = taken ++ (after.rest ++ rest.toList) := by
    rw [String.toList_append, ← List.append_assoc, ← hTaken]
    rfl
  have hRead := hReads (after.rest ++ rest.toList) (by simp [hParts])
  rw [← hText] at hRead
  exact hRead

/-- A list or an object at the start of a text is a text of its own. -/
theorem exists_document {text : String} {w : Written} {after : Cursor}
    (h : read text = (w, .ok after)) (hParts : w.isScalar = false) :
    ∃ document rest, text = document ++ rest ∧ read document = (w, .ok (after.withRest [])) := by
  obtain ⟨taken, hTaken, hReads⟩ := settled_readAt maxDepth h
  refine ⟨String.ofList taken, String.ofList after.rest, ?_, ?_⟩
  · rw [← String.toList_inj, String.toList_append, String.toList_ofList, String.toList_ofList]
    exact hTaken
  · have hRead := hReads [] (by simp [hParts])
    rw [List.append_nil] at hRead
    have hDocument : Cursor.start (String.ofList taken) = (Cursor.start text).withRest taken := by
      rw [Cursor.start, String.toList_ofList]
      rfl
    rw [read, hDocument]
    exact hRead

end Written

end Json

namespace Schema

open Json (Cursor Written)

variable {ρ : Type} {schema : Schema ρ} {type : ρ} {x : Json}

theorem isScalar_of_conformWritten_record {w : Written}
    (h : conformWritten schema (.record type) w = .ok x) : w.isScalar = false := by
  cases w with
  | scalar start value finish =>
    have hScalar := conformWritten_scalar_eq_ok_iff.1 h
    simp [Shape.ofScalar] at hScalar
  | _ => rfl

/-- A text is read against a shape of lists or objects exactly as the document is with which it
begins. -/
theorem read_eq_ok_iff_of_isScalar {shape : Shape ρ} {text : String}
    (hShape : ∀ {w}, conformWritten schema shape w = .ok x → w.isScalar = false) :
    read schema shape text = .ok x ↔
      ∃ document rest, text = document ++ rest ∧ (∃ v, Json.parse document = .ok v) ∧
        read schema shape document = .ok x := by
  constructor
  · intro h
    obtain ⟨v, hValue, -⟩ := toJson_of_conformWritten h
    -- a value that is accepted against the shape has been read to its end, which is where the
    -- document is cut off
    obtain ⟨after, hAfter⟩ := Written.completed_readAt ⟨v, hValue⟩
    obtain ⟨document, rest, hText, hRead⟩ :=
      Written.exists_document (Prod.ext rfl hAfter) (hShape h)
    refine ⟨document, rest, hText, ⟨v, Json.parse_eq_ok_iff.2 ?_⟩, ?_⟩
    · rw [hRead]
      exact ⟨hValue, after.withRest [], rfl, rfl⟩
    · unfold read
      rw [hRead]
      exact h
  · rintro ⟨document, rest, rfl, ⟨v, hParse⟩, h⟩
    obtain ⟨-, after, hAfter, -⟩ := Json.parse_eq_ok_iff.1 hParse
    have hRead := Written.read_append (Prod.ext rfl hAfter) (hShape h) rest
    unfold read
    rw [hRead]
    exact h

/-- A text is read against a record exactly as the document is with which it begins. -/
theorem read_record_eq_ok_iff {text : String} :
    read schema (.record type) text = .ok x ↔
      ∃ document rest, text = document ++ rest ∧ (∃ v, Json.parse document = .ok v) ∧
        read schema (.record type) document = .ok x :=
  read_eq_ok_iff_of_isScalar isScalar_of_conformWritten_record

end Schema

/-- A text is accepted if and only if it begins with a whole document that is accepted, and it is
read as that document, whatever follows. -/
theorem ofText_eq_ok_iff_prefix (text : String) :
    (∀ c, Compilation.ofText text = .ok c ↔
        ∃ document rest, text = document ++ rest ∧ (∃ v, Json.parse document = .ok v) ∧
          Compilation.ofText document = .ok c) ∧
      ∀ c, Config.ofText text = .ok c ↔
        ∃ document rest, text = document ++ rest ∧ (∃ v, Json.parse document = .ok v) ∧
          Config.ofText document = .ok c := by
  refine ⟨fun c => ?_, fun c => ?_⟩
  · simp only [Compilation.ofText, except_map_eq_ok_iff]
    rw [exists_congr fun x => and_congr_left' Schema.read_record_eq_ok_iff]
    grind
  · simp only [Config.ofText, except_map_eq_ok_iff]
    rw [exists_congr fun x => and_congr_left' Schema.read_record_eq_ok_iff]
    grind

/-- A word after the document is ignored, and would not be if the text were read as a value. -/
example : (Config.ofText "\x7b\x7d x").toOption = some .standard ∧
    (Json.parse "\x7b\x7d x").toOption.isNone = true := by
  constructor <;> decide +kernel

end ValidatorGen
