import ValidatorGen.Proofs.ExactNumber
import Mathlib.Data.Prod.Lex
import Mathlib.Order.WithBot

/-!
# The order of constraints

Constraints are sorted by keys, and keys are compared component by component with comparison
functions of their own. Here every key is given a *place* in a linear order such that comparing keys
is comparing places. That the comparison is reflexive, total and transitive is then no more than
that places are linearly ordered, and two keys are tied exactly when their places are equal.

What one needs to know about sorting follows from two facts: a sorted list is determined by what it
has at each place, and sorting does not change what a list has at a place.

Places are built with the orders of Mathlib: lexicographic products, a top for what is not a number,
and a bottom for a second operand that is absent. Values are placed by the rational number they
stand for, so the two zeros have one place, and so have decimals that differ in their trailing
zeros. These are the ties that the rest of the theory is about.

Main results:

* `ConstraintKey.compare_eq_cmp_place` — comparing keys is comparing places;
* `filter_mergeSort_of_place` — sorting keeps the elements of each place in their order;
* `map_eq_of_filter_place` — two sorted lists that agree at each place agree;
* `Placed.sort_stable` — constraints are sorted stably by a total preorder of their keys.
-/

namespace ValidatorGen

open Number (Binary Decimal Format tenTo)

/-- Pairs are compared by their second components where the first ones are equal. -/
theorem cmp_toLex {α β : Type} [LinearOrder α] [LinearOrder β] (a c : α) (b d : β) :
    cmp (toLex (a, b)) (toLex (c, d)) = (cmp a c).then (cmp b d) := by
  rcases lt_trichotomy a c with hLt | rfl | hGt
  · have hPairs : toLex (a, b) < toLex (c, d) := Prod.Lex.toLex_lt_toLex.2 (Or.inl hLt)
    rw [hLt.cmp_eq_lt, hPairs.cmp_eq_lt]
    rfl
  · rw [cmp_self_eq_eq, Ordering.eq_then]
    -- the first components are equal, so the second ones decide
    rcases lt_trichotomy b d with hLt | rfl | hGt
    · have hPairs : toLex (a, b) < toLex (a, d) := Prod.Lex.toLex_lt_toLex.2 (Or.inr ⟨rfl, hLt⟩)
      rw [hLt.cmp_eq_lt, hPairs.cmp_eq_lt]
    · rw [cmp_self_eq_eq, cmp_self_eq_eq]
    · have hPairs : toLex (a, d) < toLex (a, b) := Prod.Lex.toLex_lt_toLex.2 (Or.inr ⟨rfl, hGt⟩)
      rw [hGt.cmp_eq_gt, hPairs.cmp_eq_gt]
  · have hPairs : toLex (c, d) < toLex (a, b) := Prod.Lex.toLex_lt_toLex.2 (Or.inl hGt)
    rw [hGt.cmp_eq_gt, hPairs.cmp_eq_gt]
    rfl

/-! ## Places of operands -/

theorem OperandKind.index_injective : Function.Injective OperandKind.index := by
  -- the table has every kind in it, and no index twice
  have hAll : ∀ a ∈ OperandKind.table, ∀ b ∈ OperandKind.table,
      a.1.index = b.1.index → a.1 = b.1 := by decide
  have hMem : ∀ k : OperandKind, ∃ entry ∈ OperandKind.table, entry.1 = k := by
    intro k
    cases k with
    | integer kind => cases kind <;> simp [OperandKind.table]
    | single => simp [OperandKind.table]
    | double => simp [OperandKind.table]
    | decimal => simp [OperandKind.table]
  intro a b hIndex
  obtain ⟨x, hx, rfl⟩ := hMem a
  obtain ⟨y, hy, rfl⟩ := hMem b
  exact hAll x hx y hy hIndex

/-- The place of a binary number among those of its format; not-a-number comes last. -/
def Number.Binary.place {f : Format} (b : Binary f) : WithTop ℚ :=
  match b.units? with
  | some n => ((n : ℚ) : WithTop ℚ)
  | none => ⊤

theorem Number.Binary.totalCompare_eq_cmp_place {f : Format} (a b : Binary f) :
    a.totalCompare b = cmp a.place b.place := by
  unfold totalCompare place
  cases a.units? with
  | none =>
    cases b.units? with
    | none => exact (cmp_self_eq_eq _).symm
    | some y => exact (WithTop.coe_lt_top _).cmp_eq_gt.symm
  | some x =>
    cases b.units? with
    | none => exact (WithTop.coe_lt_top _).cmp_eq_lt.symm
    | some y =>
      -- units are whole numbers, and their order is that of the rational numbers
      have hMono : StrictMono fun n : ℤ => ((n : ℚ) : WithTop ℚ) :=
        WithTop.coe_strictMono.comp Int.cast_strictMono
      show compare x y = _
      rw [← cmp_eq_compare, ← hMono.cmp_map_eq]

namespace Operand

/-- The place of an operand among those of its kind. -/
def placeInKind : Operand → WithTop ℚ
  | .integer _ value _ => ((value : ℚ) : WithTop ℚ)
  | .single b => b.place
  | .double b => b.place
  | .decimal d => ((d.signedMantissa / 10 ^ d.scale : ℚ) : WithTop ℚ)

/-- The place of an operand among all operands: by kind, then by value. -/
def place (o : Operand) : ℕ ×ₗ WithTop ℚ :=
  toLex (o.kind.index, o.placeInKind)

theorem compareValue_eq_cmp_placeInKind {a b : Operand} (h : a.kind = b.kind) :
    a.compareValue b = cmp a.placeInKind b.placeInKind := by
  have hCoe : StrictMono fun x : ℚ => (x : WithTop ℚ) := WithTop.coe_strictMono
  -- operands of one kind: the other combinations contradict the hypothesis
  cases a with
  | integer _ x _ =>
    cases b with
    | integer _ y _ =>
      have hMono : StrictMono fun n : ℤ => ((n : ℚ) : WithTop ℚ) := hCoe.comp Int.cast_strictMono
      rw [compareValue, ← cmp_eq_compare, ← hMono.cmp_map_eq]
      rfl
    | _ => simp [kind] at h
  | single x =>
    cases b with
    | single y => exact x.totalCompare_eq_cmp_place y
    | _ => simp [kind] at h
  | double x =>
    cases b with
    | double y => exact x.totalCompare_eq_cmp_place y
    | _ => simp [kind] at h
  | decimal x =>
    cases b with
    | decimal y =>
      have hScaled := compareScaled_eq_compare (x.signedMantissa, x.scale)
        (y.signedMantissa, y.scale)
      rw [← cmp_eq_compare, ← hCoe.cmp_map_eq] at hScaled
      exact hScaled
    | _ => simp [kind] at h

theorem totalCompare_eq_cmp_place (a b : Operand) : a.totalCompare b = cmp a.place b.place := by
  rw [totalCompare, place, place, cmp_toLex, cmp_eq_compare a.kind.index]
  by_cases hKind : a.kind = b.kind
  · rw [compareValue_eq_cmp_placeInKind hKind]
  · -- operands of two kinds are in the order of the kinds, whatever their values are
    have hIndex : a.kind.index ≠ b.kind.index :=
      fun h => hKind (OperandKind.index_injective h)
    rcases lt_or_gt_of_ne hIndex with hLt | hGt
    · rw [compare_lt_iff_lt.2 hLt]
      rfl
    · rw [compare_gt_iff_gt.2 hGt]
      rfl

end Operand

/-! ## Places of keys -/

namespace ConstraintKey

/-- The place of a pair of operands; an absent second operand comes first. -/
def operandsPlace (operands : Operand × Option Operand) :
    (ℕ ×ₗ WithTop ℚ) ×ₗ WithBot (ℕ ×ₗ WithTop ℚ) :=
  toLex (operands.1.place,
    match operands.2 with
    | some second => (second.place : WithBot (ℕ ×ₗ WithTop ℚ))
    | none => ⊥)

/-- The place of a key. -/
def place (k : ConstraintKey) :
    ℕ ×ₗ ℕ ×ₗ ℕ ×ₗ (ℕ ×ₗ WithTop ℚ) ×ₗ WithBot (ℕ ×ₗ WithTop ℚ) :=
  toLex (k.priority, toLex (k.memberIndex, toLex (k.shape, operandsPlace k.operands)))

theorem compareSecond_eq_cmp (a b : Option Operand) :
    compareSecond a b =
      cmp (match a with
          | some second => (second.place : WithBot (ℕ ×ₗ WithTop ℚ))
          | none => ⊥)
        (match b with
          | some second => (second.place : WithBot (ℕ ×ₗ WithTop ℚ))
          | none => ⊥) := by
  cases a with
  | none =>
    cases b with
    | none => exact (cmp_self_eq_eq _).symm
    | some y => exact (WithBot.bot_lt_coe _).cmp_eq_lt.symm
  | some x =>
    cases b with
    | none => exact (WithBot.bot_lt_coe _).cmp_eq_gt.symm
    | some y =>
      rw [compareSecond, Operand.totalCompare_eq_cmp_place]
      exact (WithBot.coe_strictMono.cmp_map_eq _ _).symm

/-- **Comparing keys is comparing places.** -/
theorem compare_eq_cmp_place (a b : ConstraintKey) : a.compare b = cmp a.place b.place := by
  rw [compare, place, place, cmp_toLex, cmp_toLex, cmp_toLex, operandsPlace, operandsPlace,
    cmp_toLex, compareSecond_eq_cmp, Operand.totalCompare_eq_cmp_place, ← cmp_eq_compare,
    ← cmp_eq_compare, ← cmp_eq_compare]

theorem le_iff_place_le {a b : ConstraintKey} : a.le b = true ↔ a.place ≤ b.place := by
  rw [le, compare_eq_cmp_place]
  rcases lt_trichotomy a.place b.place with hLt | hEq | hGt
  · rw [hLt.cmp_eq_lt]
    exact iff_of_true rfl hLt.le
  · rw [hEq.cmp_eq_eq]
    exact iff_of_true rfl hEq.le
  · rw [hGt.cmp_eq_gt]
    exact iff_of_false Bool.false_ne_true (not_le_of_gt hGt)

end ConstraintKey

/-! ## Sorting by places -/

section Sorting

variable {α β γ : Type} [LinearOrder β] {le : α → α → Bool} {place : α → β}

theorem le_trans_of_place (hLe : ∀ a b, le a b = true ↔ place a ≤ place b) (a b c : α)
    (hab : le a b = true) (hbc : le b c = true) : le a c = true :=
  (hLe a c).2 (((hLe a b).1 hab).trans ((hLe b c).1 hbc))

theorem le_total_of_place (hLe : ∀ a b, le a b = true ↔ place a ≤ place b) (a b : α) :
    (le a b || le b a) = true := by
  rw [Bool.or_eq_true, hLe, hLe]
  exact le_total _ _

theorem pairwise_mergeSort_of_place (hLe : ∀ a b, le a b = true ↔ place a ≤ place b)
    (l : List α) : (l.mergeSort le).Pairwise fun a b => place a ≤ place b := by
  have hSorted := List.pairwise_mergeSort (le_trans_of_place hLe) (le_total_of_place hLe) l
  exact hSorted.imp fun h => (hLe _ _).1 h

/-- **Sorting keeps the elements of each place in their order.** -/
theorem filter_mergeSort_of_place (hLe : ∀ a b, le a b = true ↔ place a ≤ place b)
    (l : List α) (k : β) :
    (l.mergeSort le).filter (fun a => place a = k) = l.filter fun a => place a = k := by
  -- the elements of one place are sorted already, hence stay a sublist
  have hTied : (l.filter fun a => place a = k).Pairwise fun a b => le a b = true := by
    rw [List.pairwise_filter]
    refine List.pairwise_of_forall fun a b ha hb => ?_
    rw [hLe, of_decide_eq_true ha, of_decide_eq_true hb]
  have hKept := List.sublist_mergeSort (le_trans_of_place hLe) (le_total_of_place hLe) hTied
    List.filter_sublist
  have hSublist := hKept.filter fun a => decide (place a = k)
  rw [List.filter_filter] at hSublist
  simp only [Bool.and_self] at hSublist
  -- a sublist that is as long as the whole list is the whole list
  have hLength := ((List.mergeSort_perm l le).filter fun a => decide (place a = k)).length_eq
  exact (hSublist.eq_of_length hLength.symm).symm

/-- A sorted list starts no later than another one with which it agrees at the place where that one
starts. -/
theorem place_le_of_filter_place {f : α → γ} {a b : α} {l m : List α}
    (hm : (b :: m).Pairwise fun x y => place x ≤ place y)
    (hAgree : ((a :: l).filter fun x => place x = place a).map f =
      ((b :: m).filter fun x => place x = place a).map f) : place b ≤ place a := by
  rw [List.filter_cons_of_pos (by simp), List.map_cons] at hAgree
  -- something of the second list is at the place where the first list starts, and nothing of it is
  -- below its own start
  have hNonempty : ((b :: m).filter fun x => place x = place a) ≠ [] := by
    intro hNil
    rw [hNil] at hAgree
    cases hAgree
  obtain ⟨x, hx⟩ := List.exists_mem_of_ne_nil _ hNonempty
  obtain ⟨hMem, hPlace⟩ := List.mem_filter.1 hx
  rw [← of_decide_eq_true hPlace]
  rcases List.mem_cons.1 hMem with rfl | hMem
  · exact le_refl _
  · exact (List.pairwise_cons.1 hm).1 x hMem

/-- **Two sorted lists that agree at each place agree.** -/
theorem map_eq_of_filter_place (f : α → γ) :
    ∀ {l m : List α}, l.Pairwise (fun a b => place a ≤ place b) →
      m.Pairwise (fun a b => place a ≤ place b) →
      (∀ k, (l.filter fun a => place a = k).map f = (m.filter fun a => place a = k).map f) →
      l.map f = m.map f := by
  intro l
  -- along the first list, with the second one arbitrary
  induction l with
  | nil =>
    intro m _ _ hAgree
    cases m with
    | nil => rfl
    | cons b m =>
      have := hAgree (place b)
      simp at this
  | cons a l ih =>
    intro m hl hm hAgree
    cases m with
    | nil =>
      have := hAgree (place a)
      simp at this
    | cons b m =>
      -- each list has something at the place where the other one starts, so both start there
      have hPlace : place a = place b :=
        le_antisymm (place_le_of_filter_place hl (hAgree (place b)).symm)
          (place_le_of_filter_place hm (hAgree (place a)))
      have hHead := hAgree (place a)
      rw [List.filter_cons_of_pos (by simp), List.filter_cons_of_pos (by simp [hPlace]),
        List.map_cons, List.map_cons, List.cons.injEq] at hHead
      -- without their heads the lists still agree at each place
      have hTail : l.map f = m.map f := by
        refine ih (List.pairwise_cons.1 hl).2 (List.pairwise_cons.1 hm).2 fun k => ?_
        by_cases hk : place a = k
        · rw [← hk]
          exact hHead.2
        · have h := hAgree k
          rwa [List.filter_cons_of_neg (by simpa using hk),
            List.filter_cons_of_neg (by simpa [← hPlace] using hk)] at h
      rw [List.map_cons, List.map_cons, hHead.1, hTail]

end Sorting

namespace Placed

/-- The place of a placed constraint. -/
def place (p : Placed) : ℕ ×ₗ ℕ ×ₗ ℕ ×ₗ (ℕ ×ₗ WithTop ℚ) ×ₗ WithBot (ℕ ×ₗ WithTop ℚ) :=
  p.key.place

/-- The order in which placed constraints are sorted is that of their places. -/
theorem le_key_iff (a b : Placed) : a.key.le b.key = true ↔ a.place ≤ b.place :=
  ConstraintKey.le_iff_place_le

/-- Keys are equal in the order exactly if their places are. -/
theorem filter_compare_eq (placed : List Placed) (k : ConstraintKey) :
    (placed.filter fun p => p.key.compare k = .eq) = placed.filter fun p => p.place = k.place := by
  refine List.filter_congr fun p _ => ?_
  rw [decide_eq_decide, ConstraintKey.compare_eq_cmp_place, cmp_eq_eq_iff]
  rfl

/--
**Constraints are sorted stably by a total preorder of their keys.**

1. Keys are compared as their places are: by priority, place of the member, form and operands, an
   absent second operand coming first; operands by kind and then by value, where what is not a
   number comes last, the two zeros have one place, and decimals have that of their number.
2. So the order of keys is reflexive, the reverse of itself when read the other way round, total and
   transitive.
3. The constraints come out rearranged so that their keys do not decrease, and those with equal keys
   are in the order in which they were given.
-/
theorem sort_stable :
    (∀ a b : ConstraintKey, a.compare b = cmp a.place b.place) ∧
    ((∀ a : ConstraintKey, a.compare a = .eq) ∧
      (∀ a b : ConstraintKey, b.compare a = (a.compare b).swap) ∧
      (∀ a b : ConstraintKey, a.le b = true ∨ b.le a = true) ∧
      ∀ a b c : ConstraintKey, a.le b = true → b.le c = true → a.le c = true) ∧
    ∀ placed : List Placed, ∃ sorted : List Placed,
      sort placed = sorted.map constraint ∧ sorted.Perm placed ∧
      (sorted.Pairwise fun a b => a.key.le b.key = true) ∧
      ∀ k : ConstraintKey, (sorted.filter fun p => p.key.compare k = .eq) =
        placed.filter fun p => p.key.compare k = .eq := by
  refine ⟨ConstraintKey.compare_eq_cmp_place, ⟨?_, ?_, ?_, ?_⟩, ?_⟩
  · intro a
    rw [ConstraintKey.compare_eq_cmp_place, cmp_self_eq_eq]
  · intro a b
    rw [ConstraintKey.compare_eq_cmp_place, ConstraintKey.compare_eq_cmp_place, cmp_swap]
  · intro a b
    rw [ConstraintKey.le_iff_place_le, ConstraintKey.le_iff_place_le]
    exact le_total _ _
  · intro a b c hab hbc
    rw [ConstraintKey.le_iff_place_le] at hab hbc ⊢
    exact hab.trans hbc
  · intro placed
    refine ⟨placed.mergeSort fun a b => a.key.le b.key, rfl, List.mergeSort_perm _ _, ?_, ?_⟩
    · exact (pairwise_mergeSort_of_place le_key_iff placed).imp fun {a b} h => (le_key_iff a b).2 h
    · intro k
      -- what has one key has one place, and sorting keeps the order within a place
      rw [filter_compare_eq, filter_compare_eq, filter_mergeSort_of_place le_key_iff]

/-- The order at three keys that differ in the operand only: zero with a sign, zero without one, and
what is not a number. -/
theorem sort_stable_zeros :
    let key (value : Binary .double) : ConstraintKey := ⟨0, 0, 0, .double value, none⟩
    let zero (negative : Bool) : Binary .double := .finite negative ⟨0, Format.double_ranks_pos⟩
    (key (zero false)).le (key (zero true)) = true ∧ (key (zero true)).le (key .nan) = true ∧
      (key (zero false)).le (key .nan) = true := by
  intro key zero
  have hZeros : (key (zero false)).le (key (zero true)) = true := by decide
  have hLast : (key (zero true)).le (key .nan) = true := by decide
  exact ⟨hZeros, hLast, sort_stable.2.1.2.2.2 _ _ _ hZeros hLast⟩

end Placed

end ValidatorGen
