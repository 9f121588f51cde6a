import ValidatorGen.Proofs.Conservation
import ValidatorGen.Proofs.LiteralText

/-!
# Constraints with equal keys

Constraints on one member whose keys are equal keep the order in which they were found. So what is
written for two lists of constraints is the same exactly if the lists agree, for each member and
each key, in the fragments of the constraints with this key, one after the other.

A stable sort by key does two things: it puts the groups of equal keys in order, and within each
group it keeps the order that was there. The first is the same for any list with the same keys, so
only the second can show how a list was ordered. `tiedAt` is one such group.

That the text shows it needs the converse for texts, that equal conjunctions have equal fragments
one by one. A fragment is not marked off by anything but its own grammar, and it is told apart from
what follows because a literal ends at the first character that no literal has
(`literal_append_inj`).

Main results:

* `Constraint.map_arrange_eq` — lists that agree key by key are arranged alike;
* `Constraint.agree_of_map_arrange_eq` — and only these;
* `Constraint.map_fragment_eq_of_conjunctionChars_eq` — the fragments can be told from the text of
  the return expression, if members and keys are known.
-/

namespace ValidatorGen

/-! ## Lists -/

section Lists

variable {α β γ κ : Type}

/-- A list and a rearrangement of it are the same for a function that is constant on them. -/
theorem map_eq_map_of_perm {f : α → γ} {as bs : List α} (hPerm : as.Perm bs)
    (hConst : ∀ a ∈ as, ∀ b ∈ as, f a = f b) : as.map f = bs.map f := by
  cases as with
  | nil => rw [hPerm.nil_eq]
  | cons a as =>
    have hAll : (a :: as).map f = List.replicate (a :: as).length (f a) := by
      rw [List.map_eq_replicate_iff]
      exact fun b hb => hConst b hb a List.mem_cons_self
    have hMapped := (hPerm.map f).symm
    rw [hAll] at hMapped ⊢
    exact (List.perm_replicate.1 hMapped).symm

/-- Lists joined from parts of equal lengths are equal only if the parts are. Lengths tell where one
part ends and the next one begins. -/
theorem eq_of_flatMap_eq_flatMap {f g : α → List β} :
    ∀ {l : List α}, (∀ a ∈ l, (f a).length = (g a).length) → l.flatMap f = l.flatMap g →
      ∀ a ∈ l, f a = g a
  | [], _, _ => fun _ ha => absurd ha List.not_mem_nil
  | a :: l, hLength, hJoined => by
    rw [List.flatMap_cons, List.flatMap_cons] at hJoined
    obtain ⟨hFirst, hRest⟩ := List.append_inj hJoined (hLength a List.mem_cons_self)
    have hOthers := eq_of_flatMap_eq_flatMap
      (fun b hb => hLength b (List.mem_cons_of_mem a hb)) hRest
    intro b hb
    rcases List.mem_cons.1 hb with rfl | hb
    · exact hFirst
    · exact hOthers b hb

/-- Lists with the same keys and the same values have the same values at each key. -/
theorem map_filter_key_eq [DecidableEq κ] {key : α → κ} {f : α → γ} (k : κ) :
    ∀ {as bs : List α}, as.map key = bs.map key → as.map f = bs.map f →
      (as.filter fun a => key a = k).map f = (bs.filter fun b => key b = k).map f
  | [], [], _, _ => rfl
  | [], b :: bs, hKey, _ => by simp at hKey
  | a :: as, [], hKey, _ => by simp at hKey
  | a :: as, b :: bs, hKey, hValue => by
    rw [List.map_cons, List.map_cons, List.cons.injEq] at hKey hValue
    have hRest := map_filter_key_eq k hKey.2 hValue.2
    -- the heads have the same key, so both are kept or both are dropped
    by_cases hk : key a = k
    · rw [List.filter_cons_of_pos (by simpa using hk),
        List.filter_cons_of_pos (by simpa [← hKey.1] using hk), List.map_cons, List.map_cons,
        hValue.1, hRest]
    · rw [List.filter_cons_of_neg (by simpa using hk),
        List.filter_cons_of_neg (by simpa [← hKey.1] using hk), hRest]

end Lists

namespace Constraint

/-! ## Tied constraints -/

/-- Whether two constraints have the same form and operands that the order does not tell apart.
Literals may still differ: decimals of one value can have different scales. -/
def Tied (a b : Constraint) : Prop :=
  a.shape = b.shape ∧ a.operands.1.totalCompare b.operands.1 = .eq ∧
    ConstraintKey.compareSecond a.operands.2 b.operands.2 = .eq

/-- This is to have one place in the order of forms. -/
theorem tied_iff {a b : Constraint} : a.Tied b ↔ a.formPlace = b.formPlace := by
  rw [Tied, formPlace, formPlace, Operand.totalCompare_eq_cmp_place,
    ConstraintKey.compareSecond_eq_cmp, cmp_eq_eq_iff, cmp_eq_eq_iff, ConstraintKey.operandsPlace,
    ConstraintKey.operandsPlace]
  simp only [EmbeddingLike.apply_eq_iff_eq, Prod.mk.injEq]

/-! ## Lists that agree key by key -/

/-- The constraints on a member with one key, in order. The key is the place of a constraint in the
order of forms and operands. -/
def tiedAt (cs : List Constraint) (member : String)
    (k : ℕ ×ₗ (ℕ ×ₗ WithTop ℚ) ×ₗ WithBot (ℕ ×ₗ WithTop ℚ)) : List Constraint :=
  (cs.filter (·.member = member)).filter (·.formPlace = k)

/-- Constraints with one key keep their order. This is stability. -/
theorem filter_sorted (cs : List Constraint) (member : String)
    (k : ℕ ×ₗ (ℕ ×ₗ WithTop ℚ) ×ₗ WithBot (ℕ ×ₗ WithTop ℚ)) :
    (sorted cs member).filter (·.formPlace = k) = tiedAt cs member k :=
  filter_mergeSort_of_place formLe_iff _ k

variable {γ : Type} {f : Constraint → γ} {cs ds : List Constraint}

theorem map_sorted_eq {name : String}
    (hAgree : ∀ k, (tiedAt cs name k).map f = (tiedAt ds name k).map f) :
    (sorted cs name).map f = (sorted ds name).map f :=
  map_eq_of_filter_place f (pairwise_sorted cs name) (pairwise_sorted ds name) fun k => by
    rw [filter_sorted, filter_sorted, hAgree]

/-- **Lists that agree key by key are arranged alike.** -/
theorem map_arrange_eq (hMembers : cs.map member = ds.map member)
    (hAgree : ∀ name k, (tiedAt cs name k).map f = (tiedAt ds name k).map f) :
    (arrange cs).map f = (arrange ds).map f := by
  rw [arrange_eq, arrange_eq, List.map_flatMap, List.map_flatMap, hMembers]
  exact List.flatMap_congr fun name _ => map_sorted_eq (hAgree name)

/-- Two lists whose constraints have the same members in order, and as many constraints with each
key. Lists in which the annotations of a member have changed places are of this kind. -/
structure SameKeys (cs ds : List Constraint) : Prop where
  members : cs.map member = ds.map member
  keys : ∀ name k, (tiedAt cs name k).length = (tiedAt ds name k).length

theorem SameKeys.eq_nil_iff (h : SameKeys cs ds) : cs = [] ↔ ds = [] := by
  rw [← List.map_eq_nil_iff (f := member), h.members, List.map_eq_nil_iff]

theorem map_formPlace_tiedAt (cs : List Constraint) (name : String)
    (k : ℕ ×ₗ (ℕ ×ₗ WithTop ℚ) ×ₗ WithBot (ℕ ×ₗ WithTop ℚ)) :
    (tiedAt cs name k).map formPlace = List.replicate (tiedAt cs name k).length k := by
  rw [List.map_eq_replicate_iff]
  exact fun c hc => of_decide_eq_true (List.mem_filter.1 hc).2

theorem map_member_tiedAt (cs : List Constraint) (name : String)
    (k : ℕ ×ₗ (ℕ ×ₗ WithTop ℚ) ×ₗ WithBot (ℕ ×ₗ WithTop ℚ)) :
    (tiedAt cs name k).map member = List.replicate (tiedAt cs name k).length name := by
  rw [List.map_eq_replicate_iff]
  exact fun c hc => of_decide_eq_true (List.mem_filter.1 (List.mem_filter.1 hc).1).2

theorem SameKeys.map_member_arrange_eq (h : SameKeys cs ds) :
    (arrange cs).map member = (arrange ds).map member :=
  map_arrange_eq h.members fun name k => by
    rw [map_member_tiedAt, map_member_tiedAt, h.keys]

theorem SameKeys.map_formPlace_arrange_eq (h : SameKeys cs ds) :
    (arrange cs).map formPlace = (arrange ds).map formPlace :=
  map_arrange_eq h.members fun name k => by
    rw [map_formPlace_tiedAt, map_formPlace_tiedAt, h.keys]

/-- A member without constraints has none of any key. -/
theorem tiedAt_eq_nil {name : String} (h : name ∉ cs.map member)
    (k : ℕ ×ₗ (ℕ ×ₗ WithTop ℚ) ×ₗ WithBot (ℕ ×ₗ WithTop ℚ)) : tiedAt cs name k = [] := by
  have hNone : cs.filter (·.member = name) = [] := by
    rw [List.filter_eq_nil_iff]
    intro c hc hName
    exact h (List.mem_map.2 ⟨c, hc, of_decide_eq_true hName⟩)
  rw [tiedAt, hNone]
  rfl

/-- **Lists that are arranged alike agree key by key.** The text of a member is cut out of the whole
by the lengths of the groups, and then that of a key by the places of the others. -/
theorem agree_of_map_arrange_eq (h : SameKeys cs ds)
    (hArranged : (arrange cs).map f = (arrange ds).map f) (name : String)
    (k : ℕ ×ₗ (ℕ ×ₗ WithTop ℚ) ×ₗ WithBot (ℕ ×ₗ WithTop ℚ)) :
    (tiedAt cs name k).map f = (tiedAt ds name k).map f := by
  by_cases hName : name ∈ cs.map member
  · have hPlaces : ∀ n, (sorted cs n).map formPlace = (sorted ds n).map formPlace :=
      fun n => map_sorted_eq fun k => by
        rw [map_formPlace_tiedAt, map_formPlace_tiedAt, h.keys]
    -- the groups of both lists have the same lengths, so they end at the same places
    rw [arrange_eq, arrange_eq, ← h.members, List.map_flatMap, List.map_flatMap] at hArranged
    have hGroup := eq_of_flatMap_eq_flatMap (fun n _ => by
      have hLengths := congrArg List.length (hPlaces n)
      simpa only [List.length_map] using hLengths) hArranged name (List.mem_eraseDups.2 hName)
    rw [← filter_sorted, ← filter_sorted]
    exact map_filter_key_eq k (hPlaces name) hGroup
  · rw [tiedAt_eq_nil hName, tiedAt_eq_nil (h.members ▸ hName)]

/-! ## Fragments told from their text -/

/-- A literal ends before the first character that does not occur in literals. -/
theorem literal_append_inj {x y : Operand} {c : Char} (hc : isLiteralChar c = false)
    {rest rest' : List Char}
    (h : x.literal.toList ++ c :: rest = y.literal.toList ++ c :: rest') : rest = rest' :=
  (append_stop_inj x.isLiteralChar_of_mem_literal y.isLiteralChar_of_mem_literal hc h).2

theorem toList_fragment_bound (b : Bound) (rest : List Char) :
    (Constraint.bound b).fragment.toList ++ rest =
      ("(" ++ b.member ++ " " ++ b.operator ++ " ").toList ++
        (b.threshold.literal.toList ++ ')' :: rest) := by
  simp [fragment, Bound.fragment]

theorem toList_fragment_range (r : Range) (rest : List Char) :
    (Constraint.range r).fragment.toList ++ rest =
      ("(" ++ r.member ++ " > ").toList ++ (r.low.literal.toList ++ ' ' ::
        (("&& " ++ r.member ++ " < ").toList ++ (r.high.literal.toList ++ ')' :: rest))) := by
  simp [fragment, Range.fragment]

/-- Bounds of one shape have one operator. -/
theorem operator_eq_of_shape_eq {x y : Bound} (h : (bound x).shape = (bound y).shape) :
    x.operator = y.operator := by
  obtain ⟨_, _, direction, inclusive⟩ := x
  obtain ⟨_, _, direction', inclusive'⟩ := y
  cases direction <;> cases inclusive <;> cases direction' <;> cases inclusive' <;>
    first
    | rfl
    | simp [shape] at h

theorem shape_bound_lt (b : Bound) : (bound b).shape < 4 := by
  obtain ⟨_, _, direction, inclusive⟩ := b
  cases direction <;> cases inclusive <;> simp [shape]

/-- The operands of a fragment are told apart from what follows: a fragment with text after it
determines itself and the text, if its member and its key are known. -/
theorem fragment_append_inj {a b : Constraint} (hMember : a.member = b.member)
    (hKey : a.formPlace = b.formPlace) {rest rest' : List Char}
    (h : a.fragment.toList ++ rest = b.fragment.toList ++ rest') :
    a.fragment = b.fragment ∧ rest = rest' := by
  have hShape : a.shape = b.shape := (tied_iff.2 hKey).1
  -- it is enough to see that the same text follows
  have hRest : rest = rest' → a.fragment = b.fragment ∧ rest = rest' := by
    rintro rfl
    exact ⟨String.toList_injective (List.append_cancel_right h), rfl⟩
  apply hRest
  cases a with
  | bound x =>
    cases b with
    | bound y =>
      have hName : x.member = y.member := hMember
      rw [toList_fragment_bound, toList_fragment_bound, hName, operator_eq_of_shape_eq hShape] at h
      exact literal_append_inj (by decide) (List.append_cancel_left h)
    | range y => exact absurd hShape (shape_bound_lt x).ne
  | range x =>
    cases b with
    | bound y => exact absurd hShape.symm (shape_bound_lt y).ne
    | range y =>
      have hName : x.member = y.member := hMember
      rw [toList_fragment_range, toList_fragment_range, hName] at h
      -- the literal of the lower operand first, then that of the upper one
      have hHigh := literal_append_inj (by decide) (List.append_cancel_left h)
      exact literal_append_inj (by decide) (List.append_cancel_left hHigh)

/-- The lines after the first one of a conjunction. Each of them starts with the same characters, so
that one fragment after the other can be read off. -/
theorem map_fragment_eq_of_flatMap_eq (spaces : Nat) : ∀ {as bs : List Constraint},
    as.map member = bs.map member → as.map formPlace = bs.map formPlace →
    ((as.map fragment).flatMap fun f =>
        '\n' :: (List.replicate spaces ' ' ++ '&' :: '&' :: ' ' :: f.toList)) =
      ((bs.map fragment).flatMap fun f =>
        '\n' :: (List.replicate spaces ' ' ++ '&' :: '&' :: ' ' :: f.toList)) →
    as.map fragment = bs.map fragment
  | [], [], _, _, _ => rfl
  | [], b :: bs, hMember, _, _ => by simp at hMember
  | a :: as, [], hMember, _, _ => by simp at hMember
  | a :: as, b :: bs, hMember, hKey, hText => by
    rw [List.map_cons, List.map_cons, List.cons.injEq] at hMember hKey
    rw [List.map_cons, List.map_cons, List.flatMap_cons, List.flatMap_cons, List.cons_append,
      List.cons_append, List.append_assoc, List.append_assoc] at hText
    have hFirst := List.append_cancel_left (List.cons.inj hText).2
    simp only [List.cons_append, List.cons.injEq, true_and] at hFirst
    obtain ⟨hFragment, hRest⟩ := fragment_append_inj hMember.1 hKey.1 hFirst
    rw [List.map_cons, List.map_cons, hFragment,
      map_fragment_eq_of_flatMap_eq spaces hMember.2 hKey.2 hRest]

/-- **The fragments can be told from the text of the return expression**, if members and keys are
known. -/
theorem map_fragment_eq_of_conjunctionChars_eq {spaces : Nat} {as bs : List Constraint}
    (hMember : as.map member = bs.map member) (hKey : as.map formPlace = bs.map formPlace)
    (hText : Plan.conjunctionChars spaces (as.map fragment) =
      Plan.conjunctionChars spaces (bs.map fragment)) :
    as.map fragment = bs.map fragment := by
  cases as with
  | nil =>
    cases bs with
    | nil => rfl
    | cons b bs => simp at hMember
  | cons a as =>
    cases bs with
    | nil => simp at hMember
    | cons b bs =>
      rw [List.map_cons, List.map_cons, List.cons.injEq] at hMember hKey
      obtain ⟨hFragment, hRest⟩ := fragment_append_inj hMember.1 hKey.1 hText
      rw [List.map_cons, List.map_cons, hFragment,
        map_fragment_eq_of_flatMap_eq spaces hMember.2 hKey.2 hRest]

end Constraint

end ValidatorGen
