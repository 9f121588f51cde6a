import ValidatorGen.Proofs.SameForm

/-!
# What the shape of a program decides

Whether a type can be given a validator, what is said about it otherwise, and all of the validator
but its constraints depend on little of the declarations. The *shape* of a program keeps that much:
it forgets all attributes, all bases, and all members but those that compete with the generated
method. A type has the form of its shape, so two types of one shape have one form: they can differ
in whether they ask for a validator and in their annotations only.

Two types are compared by going from each to its shape, not by a relation between their pieces. A
relation would have to be shown to keep every single question about types; with the shape this is
done once, here.

Main results:

* `Member.map_bare_rivals_eq` — the members that compete are the same, their attributes apart, when
  all members are the same but for their attributes;
* `Symbol.mode_shape` — how the method is to be added is decided by the shape;
* `Symbol.sameForm_shape` — a type has the form of its shape.
-/

namespace ValidatorGen

/-! ## Shapes -/

namespace Member

/-- A member without its attributes. -/
def bare (m : Member) : Member :=
  { m with attributes := [] }

/-- Whether the member competes with the generated method. It does if it has its name and is no
overload, so the shape has to keep it. -/
def isRival (m : Member) : Bool :=
  m.name = validateName && !m.isOverload

theorem isRival_bare (m : Member) : m.bare.isRival = m.isRival := rfl

/-- Whether a member competes does not depend on its attributes. -/
theorem map_bare_rivals_eq {ms ns : List Member}
    (h : List.Forall₂ (fun m n => m.bare = n.bare) ms ns) :
    (ms.filter isRival).map bare = (ns.filter isRival).map bare := by
  refine map_eq_map_of_forall₂ (forall₂_filter h fun m n hmn => ?_) fun m n hmn => hmn
  rw [← m.isRival_bare, hmn, n.isRival_bare]

end Member

/-- What counts of a piece apart from the annotations. The members that are left are those that
compete, so a shape still answers whether a method can be added. -/
def TypeHead.shape (t : TypeHead) : TypeHead :=
  { t with
    attributes := []
    baseList := []
    members := (t.members.filter Member.isRival).map Member.bare }

def Piece.shape (p : Piece) : Piece :=
  { p with
    head := p.head.shape
    nested := p.nested.map TypeHead.shape }

def Symbol.shape (s : Symbol) : Symbol :=
  ⟨s.first.shape, s.rest.map Piece.shape⟩

/-! ## The form of a type -/

namespace Symbol

@[simp]
theorem pieces_shape (s : Symbol) : s.shape.pieces = s.pieces.map Piece.shape := rfl

theorem rivals_shape (s : Symbol) :
    s.shape.rivals = s.rivals.map fun pm => (pm.1, pm.2.bare) := by
  -- a shape has only members that compete, so those that compete are all of them
  have hPiece : ∀ p : Piece,
      (p.shape.head.members.map (p.path, ·)).filter (fun pm => pm.2.isRival) =
        ((p.head.members.map (p.path, ·)).filter fun pm => pm.2.isRival).map
          fun pm => (pm.1, pm.2.bare) := by
    intro p
    have hMembers : p.shape.head.members = (p.head.members.filter Member.isRival).map Member.bare :=
      rfl
    rw [hMembers, List.map_map, List.filter_map, List.filter_map, List.filter_filter, List.map_map]
    congr 1
    exact List.filter_congr fun m _ => by simp [Member.isRival_bare]
  have hRivals : ∀ s : Symbol, s.rivals =
      s.pieces.flatMap fun p => (p.head.members.map (p.path, ·)).filter fun pm => pm.2.isRival := by
    intro s
    rw [rivals, members, List.filter_flatMap]
    rfl
  rw [hRivals, hRivals, pieces_shape, List.flatMap_map, List.map_flatMap]
  exact congrArg (List.flatMap · s.pieces) (funext hPiece)

theorem nestedRival?_shape (s : Symbol) : s.shape.nestedRival? = s.nestedRival? := by
  rw [nestedRival?, nestedRival?, pieces_shape, List.findSome?_map]
  refine congrArg (List.findSome? · s.pieces) (funext fun p => ?_)
  have hNested : p.shape.nested = p.nested.map TypeHead.shape := rfl
  rw [Function.comp, hNested, List.find?_map, Option.map_map]
  rfl

theorem mode_shape (s : Symbol) : s.shape.mode = s.mode := by
  rw [mode, mode, nestedRival?_shape, rivals_shape]
  cases s.nestedRival? with
  | some location => rfl
  | none =>
    cases s.rivals with
    | nil => rfl
    | cons first others => cases others <;> rfl

/-- A type has the form of its shape. All fields but the mode are read off parts that the shape
keeps. -/
theorem sameForm_shape (s : Symbol) : s.SameForm s.shape where
  level := rfl
  inNamespace := rfl
  location := rfl
  access := by
    rw [statedAccessibility?, statedAccessibility?, pieces_shape, List.findSome?_map]
    rfl
  unresolved := by
    rw [unresolved?, unresolved?, pieces_shape, List.find?_map, Option.map_map]
    rfl
  static := by
    rw [staticPlace?, staticPlace?, pieces_shape, List.find?_map, Option.map_map]
    rfl
  nonPartial := by
    rw [nonPartialPlace?, nonPartialPlace?, nonPartialPiece?, nonPartialPiece?, pieces_shape,
      List.find?_map, Option.map_map]
    rfl
  mode := s.mode_shape.symm

end Symbol

end ValidatorGen
