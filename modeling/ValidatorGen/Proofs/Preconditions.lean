import ValidatorGen.Eligibility
import ValidatorGen.Proofs.Traversal
import Mathlib.Tactic.ByContra

/-!
# The conditions for a validator

A type is given a validator if it meets eight conditions. They are stated here one by one, in terms
of what is written on the pieces of the type and of the types around it, and so is the complaint
that goes with each of them. The check is then proved to decide them: it accepts exactly the types
that meet all of them, and about any other type it makes the complaint of the first one that fails.

The check is written as searches over the pieces of a type, over the types around it and over its
members, each of which ends with what it finds first. A condition says that there is nothing to be
found. So a complaint has two sides, and both are stated: that it is made if and only if its
condition fails (`complaint?_eq_none_iff`), and what it says then (`complaint?_eq_some_iff`). What
it says is stated without the function that reports it, as the identifier, the file, the line, the
column and the words of the message (`Diagnostic.Says`), with names and namespaces written out from
the declarations.

Main results:

* `SymbolTable.isPublic_iff` — which types are effectively public;
* `Symbol.mode_eq_ok_iff`, `Symbol.conflictsAt_of_mode` — when there is room for the method, and
  what it conflicts with if there is none;
* `SymbolTable.complaint?_eq_none_iff`, `SymbolTable.complaint?_eq_some_iff` — each part of the
  check decides its condition and blames what fails it;
* `SymbolTable.eligible_decides_conditions` — the check as a whole, with the place and the words of
  what it refuses a type with (`SymbolTable.Blames`).
-/

namespace ValidatorGen

/-! ## The first item with a property -/

/-- Whether `x` is the first item of a list that has a property. What stands before it is named, so
that the statement does not depend on how the item is searched for. -/
def IsFirst {α : Type} (P : α → Prop) (x : α) (xs : List α) : Prop :=
  ∃ before after, xs = before ++ x :: after ∧ P x ∧ ∀ y ∈ before, ¬ P y

section First

variable {α β : Type} {P : α → Prop} {x : α} {xs : List α}

theorem IsFirst.mem (h : IsFirst P x xs) : x ∈ xs := by
  obtain ⟨before, after, rfl, -⟩ := h
  simp

theorem IsFirst.holds (h : IsFirst P x xs) : P x := by
  obtain ⟨_, _, -, hx, -⟩ := h
  exact hx

/-- What a function finds in a list is what it gives for the first item it is defined on. -/
theorem findSome?_eq_some_iff_isFirst {f : α → Option β} (h : ∀ x, f x = none ↔ ¬ P x) {y : β} :
    xs.findSome? f = some y ↔ ∃ x, IsFirst P x xs ∧ f x = some y := by
  rw [List.findSome?_eq_some_iff]
  constructor
  · rintro ⟨before, x, after, hSplit, hx, hBefore⟩
    have hP : P x := by
      by_contra hNot
      rw [(h x).2 hNot] at hx
      cases hx
    exact ⟨x, ⟨before, after, hSplit, hP, fun y hy => (h y).1 (hBefore y hy)⟩, hx⟩
  · rintro ⟨x, ⟨before, after, hSplit, -, hBefore⟩, hx⟩
    exact ⟨before, x, after, hSplit, hx, fun y hy => (h y).2 (hBefore y hy)⟩

theorem find?_eq_some_iff_isFirst {p : α → Bool} (h : ∀ x, p x = true ↔ P x) :
    xs.find? p = some x ↔ IsFirst P x xs := by
  have hNot : ∀ x, (!p x) = true ↔ ¬ P x := by
    intro x
    rw [← h x, Bool.not_eq_true', Bool.not_eq_true]
  rw [List.find?_eq_some_iff_append]
  constructor
  · rintro ⟨hx, before, after, hSplit, hBefore⟩
    exact ⟨before, after, hSplit, (h x).1 hx, fun y hy => (hNot y).1 (hBefore y hy)⟩
  · rintro ⟨before, after, hSplit, hx, hBefore⟩
    exact ⟨(h x).2 hx, before, after, hSplit, fun y hy => (hNot y).2 (hBefore y hy)⟩

theorem IsFirst.unique {y : α} (hx : IsFirst P x xs) (hy : IsFirst P y xs) : x = y := by
  classical
  have hDecides : ∀ z, decide (P z) = true ↔ P z := fun _ => decide_eq_true_iff
  have hFound := (find?_eq_some_iff_isFirst hDecides).2 hx
  exact Option.some.inj (hFound.symm.trans ((find?_eq_some_iff_isFirst hDecides).2 hy))

theorem map_find?_eq_some_iff_isFirst {p : α → Bool} (h : ∀ x, p x = true ↔ P x) {f : α → β}
    {y : β} : (xs.find? p).map f = some y ↔ ∃ x, IsFirst P x xs ∧ y = f x := by
  simp only [Option.map_eq_some_iff, find?_eq_some_iff_isFirst h, eq_comm]

end First

/-! ## Accessibility -/

/-- Whether modifiers spell out an accessibility. Pieces without such a word leave it to the other
pieces of their type. -/
def SpellsAccessibility (modifiers : List String) : Prop :=
  ∃ word ∈ ["public", "internal", "protected", "private"], word ∈ modifiers

namespace Accessibility

variable {modifiers : List String}

theorem ofModifiers?_eq_none_iff :
    ofModifiers? modifiers = none ↔ ¬ SpellsAccessibility modifiers := by
  simp only [SpellsAccessibility, List.mem_cons, List.not_mem_nil, or_false, exists_eq_or_imp,
    exists_eq_left, not_or]
  unfold ofModifiers?
  grind

/-- One modifier makes public, whatever stands beside it. -/
theorem ofModifiers?_eq_public_iff :
    ofModifiers? modifiers = some .publicAccess ↔ "public" ∈ modifiers := by
  unfold ofModifiers?
  grind

end Accessibility

/-- Whether a type is public: the first piece that spells out an accessibility says so; or no piece
spells one out, and the type is nested directly in an interface. -/
inductive SymbolTable.EffectivelyPublic (t : SymbolTable) (s : Symbol) : Prop where
  | spelledOut (p : Piece)
      (first : IsFirst (fun q : Piece => SpellsAccessibility q.head.modifiers) p s.pieces)
      (isPublic : "public" ∈ p.head.modifiers)
  | inInterface (outer : Symbol)
      (unspelled : ∀ p ∈ s.pieces, ¬ SpellsAccessibility p.head.modifiers)
      (encloses : t.enclosing? s = some outer)
      (interface : outer.first.head.kind = .interfaceType)

namespace SymbolTable

variable {t : SymbolTable} {s : Symbol}

/-- **The types that count as public.** -/
theorem isPublic_iff : t.isPublic s = true ↔ t.EffectivelyPublic s := by
  have hSpells : ∀ p : Piece, Accessibility.ofModifiers? p.head.modifiers = none ↔
      ¬ SpellsAccessibility p.head.modifiers := fun _ => Accessibility.ofModifiers?_eq_none_iff
  have hPublic : t.isPublic s = true ↔ t.accessibility s = .publicAccess := decide_eq_true_iff
  rw [hPublic, accessibility]
  cases hFound : s.pieces.findSome? fun p => Accessibility.ofModifiers? p.head.modifiers with
  | some access =>
    obtain ⟨p, hFirst, hAccess⟩ := (findSome?_eq_some_iff_isFirst hSpells).1 hFound
    rw [Option.getD_some]
    constructor
    · rintro rfl
      exact .spelledOut p hFirst (Accessibility.ofModifiers?_eq_public_iff.1 hAccess)
    · rintro (⟨q, hq, hWord⟩ | ⟨_, hUnspelled, -, -⟩)
      · -- there is only one first piece that spells out an accessibility
        have hSome := (findSome?_eq_some_iff_isFirst hSpells).2
          ⟨q, hq, Accessibility.ofModifiers?_eq_public_iff.2 hWord⟩
        exact Option.some.inj (hFound.symm.trans hSome)
      · exact absurd hFirst.holds (hUnspelled p hFirst.mem)
  | none =>
    have hUnspelled : ∀ p ∈ s.pieces, ¬ SpellsAccessibility p.head.modifiers :=
      fun p hp => (hSpells p).1 (List.findSome?_eq_none_iff.1 hFound p hp)
    rw [Option.getD_none, defaultAccessibility]
    constructor
    · intro hDefault
      cases hOuter : t.enclosing? s with
      | none =>
        rw [hOuter] at hDefault
        cases hDefault
      | some outer =>
        simp only [hOuter] at hDefault
        split at hDefault
        · next hKind => exact .inInterface outer hUnspelled hOuter hKind
        · cases hDefault
    · rintro (⟨p, hp, -⟩ | ⟨outer, -, hOuter, hKind⟩)
      · exact absurd hp.holds (hUnspelled p hp.mem)
      · simp only [hOuter]
        exact if_pos hKind

end SymbolTable

/-! ## The method and the members -/

/-- Whether a member gets in the way of a method without parameters that has its name: only methods
with parameters do not, since they are overloads of it. Properties, fields and all other sorts of
members do. -/
def Member.Competes (m : Member) : Prop :=
  m.name = "Validate" ∧ ¬ (m.kind = .method ∧ m.parameters ≠ [])

/-- Whether a member declares the method to be completed: a partial method without parameters and
body, public, that returns a truth value. In an interface, members without an accessibility are
public. -/
structure Member.IsCompletable (inInterface : Prop) (m : Member) : Prop where
  method : m.kind = .method
  noParameters : m.parameters = []
  boolean : m.type = some "bool" ∨ m.type = some "System.Boolean" ∨
    m.type = some "global::System.Boolean"
  isPublic : "public" ∈ m.modifiers ∨ inInterface ∧ ¬ SpellsAccessibility m.modifiers
  isPartial : "partial" ∈ m.modifiers
  noBody : m.hasBody = false

namespace Member

variable {m : Member}

theorem competes_iff : (m.name = validateName && !m.isOverload) = true ↔ m.Competes := by
  have hOverload : m.isOverload = true ↔ m.kind = .method ∧ m.parameters ≠ [] := by
    simp [isOverload]
  rw [Bool.and_eq_true, decide_eq_true_eq, Bool.not_eq_true', ← Bool.not_eq_true, hOverload]
  exact Iff.rfl

theorem isPublic_iff {inInterface : Bool} : m.isPublic inInterface = true ↔
    "public" ∈ m.modifiers ∨ inInterface = true ∧ ¬ SpellsAccessibility m.modifiers := by
  unfold isPublic
  cases hAccess : Accessibility.ofModifiers? m.modifiers with
  | none =>
    -- nothing is spelled out, so only the default of interfaces is left
    have hUnspelled := Accessibility.ofModifiers?_eq_none_iff.1 hAccess
    have hNotPublic : "public" ∉ m.modifiers := by
      intro hWord
      rw [Accessibility.ofModifiers?_eq_public_iff.2 hWord] at hAccess
      cases hAccess
    simp [hUnspelled, hNotPublic]
  | some access =>
    -- something is spelled out, so the default does not count
    have hSpelled : SpellsAccessibility m.modifiers := by
      by_contra hNot
      rw [Accessibility.ofModifiers?_eq_none_iff.2 hNot] at hAccess
      cases hAccess
    rw [← Accessibility.ofModifiers?_eq_public_iff, hAccess]
    simp [hSpelled]

theorem isStub_iff {inInterface : Bool} :
    m.isStub inInterface = true ↔ m.IsCompletable (inInterface = true) := by
  simp only [isStub, returnsBool, Bool.and_eq_true, isPublic_iff, decide_eq_true_eq,
    List.isEmpty_iff, List.any_cons, List.any_nil, Bool.or_false, Bool.or_eq_true,
    Bool.not_eq_true', hasModifier, List.contains_eq_mem]
  constructor
  · rintro ⟨⟨⟨⟨⟨hKind, hParameters⟩, hType⟩, hPublic⟩, hPartial⟩, hBody⟩
    exact ⟨hKind, hParameters, hType, hPublic, hPartial, hBody⟩
  · rintro ⟨hKind, hParameters, hType, hPublic, hPartial, hBody⟩
    exact ⟨⟨⟨⟨⟨hKind, hParameters⟩, hType⟩, hPublic⟩, hPartial⟩, hBody⟩

end Member

namespace Symbol

/-- Whether a method without parameters has room beside what is declared in a type, and how it
relates to it: no nested type has its name; and of the members that compete with it there is none,
or a single one that declares it. Members are those of all pieces of the type, so two declarations
of the method in two files leave no room. -/
inductive HasRoom (s : Symbol) : Mode → Prop where
  | fresh (noNamesake : ∀ p ∈ s.pieces, ∀ n ∈ p.nested, n.name ≠ "Validate")
      (none : ∀ pm ∈ s.members, ¬ pm.2.Competes) : HasRoom s .fresh
  | completeStub (noNamesake : ∀ p ∈ s.pieces, ∀ n ∈ p.nested, n.name ≠ "Validate")
      (before after : List (String × Member)) (path : String) (m : Member)
      (split : s.members = before ++ (path, m) :: after) (competes : m.Competes)
      (single : ∀ pm ∈ before ++ after, ¬ pm.2.Competes)
      (completable : m.IsCompletable (s.first.head.kind = .interfaceType)) :
      HasRoom s .completeStub

/-- The file and the span of what the method conflicts with: the first nested type of its name; or,
if there is none, the first member that competes with it. A nested type comes first even where a
member stands before it in the source. -/
inductive ConflictsAt (s : Symbol) : String → Span → Prop where
  | namesake (p : Piece) (n : TypeHead)
      (piece : IsFirst (fun q : Piece => ∃ n ∈ q.nested, n.name = "Validate") p s.pieces)
      (first : IsFirst (fun n : TypeHead => n.name = "Validate") n p.nested) :
      ConflictsAt s p.path n.span
  | member (path : String) (m : Member)
      (noNamesake : ∀ p ∈ s.pieces, ∀ n ∈ p.nested, n.name ≠ "Validate")
      (first : IsFirst (fun pm : String × Member => pm.2.Competes) (path, m) s.members) :
      ConflictsAt s path m.span

variable {s : Symbol}

theorem find?_namesake_eq_none_iff {p : Piece} :
    (p.nested.find? (·.name = validateName)).map (fun n => Location.ofSpan p.path n.span) = none ↔
      ¬ ∃ n ∈ p.nested, n.name = "Validate" := by
  simp only [Option.map_eq_none_iff, List.find?_eq_none, decide_eq_true_eq, not_exists, not_and]
  exact Iff.rfl

/-- What is found as the nested type of the name is the first one. -/
theorem nestedRival?_eq_some_iff {place : Location} :
    s.nestedRival? = some place ↔ ∃ p n,
      IsFirst (fun q : Piece => ∃ n ∈ q.nested, n.name = "Validate") p s.pieces ∧
        IsFirst (fun n : TypeHead => n.name = "Validate") n p.nested ∧
          Location.ofSpan p.path n.span = place := by
  unfold nestedRival?
  rw [findSome?_eq_some_iff_isFirst fun p => find?_namesake_eq_none_iff]
  simp only [Option.map_eq_some_iff, find?_eq_some_iff_isFirst fun n => decide_eq_true_iff]
  constructor
  · rintro ⟨p, hp, n, hn, hPlace⟩
    exact ⟨p, n, hp, hn, hPlace⟩
  · rintro ⟨p, n, hp, hn, hPlace⟩
    exact ⟨p, hp, n, hn, hPlace⟩

theorem nestedRival?_eq_none_iff :
    s.nestedRival? = none ↔ ∀ p ∈ s.pieces, ∀ n ∈ p.nested, n.name ≠ "Validate" := by
  unfold nestedRival?
  simp only [List.findSome?_eq_none_iff, find?_namesake_eq_none_iff, not_exists, not_and, ne_eq]

/-- The members that compete with the method, from the first one on. The first one is told apart
from the others, since it is what a conflict is reported at. -/
theorem rivals_eq_cons_iff {pm : String × Member} {others : List (String × Member)} :
    s.rivals = pm :: others ↔ ∃ before after, s.members = before ++ pm :: after ∧
      (∀ x ∈ before, ¬ x.2.Competes) ∧ pm.2.Competes ∧
        after.filter (fun x => x.2.name = validateName && !x.2.isOverload) = others := by
  unfold rivals
  rw [List.filter_eq_cons_iff]
  simp only [Member.competes_iff]

theorem rivals_eq_nil_iff : s.rivals = [] ↔ ∀ pm ∈ s.members, ¬ pm.2.Competes := by
  unfold rivals
  simp only [List.filter_eq_nil_iff, Member.competes_iff]

/-- A single member competes with the method. -/
theorem rivals_eq_singleton_iff {pm : String × Member} :
    s.rivals = [pm] ↔ ∃ before after, s.members = before ++ pm :: after ∧ pm.2.Competes ∧
      ∀ x ∈ before ++ after, ¬ x.2.Competes := by
  rw [rivals_eq_cons_iff]
  simp only [List.filter_eq_nil_iff, Member.competes_iff, List.mem_append]
  constructor
  · rintro ⟨before, after, hSplit, hBefore, hCompetes, hAfter⟩
    exact ⟨before, after, hSplit, hCompetes, fun x hx => hx.elim (hBefore x) (hAfter x)⟩
  · rintro ⟨before, after, hSplit, hCompetes, hSingle⟩
    exact ⟨before, after, hSplit, fun x hx => hSingle x (.inl hx), hCompetes,
      fun x hx => hSingle x (.inr hx)⟩

/-- The first member that competes with the method. -/
theorem isFirst_of_rivals_eq_cons {pm : String × Member} {others : List (String × Member)}
    (h : s.rivals = pm :: others) :
    IsFirst (fun x : String × Member => x.2.Competes) pm s.members := by
  obtain ⟨before, after, hSplit, hBefore, hCompetes, -⟩ := rivals_eq_cons_iff.1 h
  exact ⟨before, after, hSplit, hCompetes, hBefore⟩

theorem isStub_isInterface_iff {m : Member} :
    m.isStub s.isInterface = true ↔ m.IsCompletable (s.first.head.kind = .interfaceType) := by
  have hInterface : (s.isInterface = true) = (s.first.head.kind = .interfaceType) :=
    decide_eq_true_eq
  rw [Member.isStub_iff, hInterface]

/-- **The method can be given to a type exactly if there is room for it**, and in that mode. Nested
types of the name rule it out at once. Else the members that compete decide: none leaves room for a
new method, and one alone may be the one to be completed. -/
theorem mode_eq_ok_iff {mode : Mode} : s.mode = .ok mode ↔ s.HasRoom mode := by
  unfold Symbol.mode
  cases hNamesake : s.nestedRival? with
  | some place =>
    have hSome : ¬ s.nestedRival? = none := by simp [hNamesake]
    rw [nestedRival?_eq_none_iff] at hSome
    constructor
    · intro h
      cases h
    · rintro (⟨hNone, -⟩ | ⟨hNone, -⟩)
      · exact absurd hNone hSome
      · exact absurd hNone hSome
  | none =>
    have hNone := nestedRival?_eq_none_iff.1 hNamesake
    cases hRivals : s.rivals with
    | nil =>
      have hFree := rivals_eq_nil_iff.1 hRivals
      constructor
      · intro h
        obtain rfl := Except.ok.inj h
        exact .fresh hNone hFree
      · rintro (⟨-, -⟩ | ⟨-, before, after, path, m, hSplit, hCompetes, -, -⟩)
        · rfl
        · exact absurd hCompetes (hFree (path, m) (by rw [hSplit]; simp))
    | cons pm others =>
      obtain ⟨path, m⟩ := pm
      constructor
      · intro h
        dsimp only at h
        split at h
        · next hStub =>
          obtain rfl := Except.ok.inj h
          rw [List.isEmpty_iff.1 hStub.1] at hRivals
          obtain ⟨before, after, hSplit, hCompetes, hSingle⟩ := rivals_eq_singleton_iff.1 hRivals
          exact .completeStub hNone before after path m hSplit hCompetes hSingle
            (isStub_isInterface_iff.1 hStub.2)
        · cases h
      · rintro (⟨-, hFree⟩ | ⟨-, before, after, path', m', hSplit, hCompetes, hSingle, hStub⟩)
        · rw [rivals_eq_nil_iff.2 hFree] at hRivals
          cases hRivals
        · -- the first member that competes is the only one
          have hOne := rivals_eq_singleton_iff.2 ⟨before, after, hSplit, hCompetes, hSingle⟩
          obtain ⟨hSame, rfl⟩ := List.cons.inj (hRivals.symm.trans hOne)
          obtain ⟨rfl, rfl⟩ := Prod.mk.inj hSame
          exact if_pos ⟨rfl, isStub_isInterface_iff.2 hStub⟩

/-- A conflict stands at one place. It is told by two searches for something first, of which the
second one is made only if the first one fails. -/
theorem ConflictsAt.unique {path path' : String} {span span' : Span} (h : s.ConflictsAt path span)
    (h' : s.ConflictsAt path' span') : path = path' ∧ span = span' := by
  -- A member is at fault only where no nested type is, so the two kinds exclude each other, and
  -- within a kind the first one is unique.
  cases h with
  | namesake p n hPiece hFirst =>
    cases h' with
    | namesake p' n' hPiece' hFirst' =>
      obtain rfl := hPiece.unique hPiece'
      obtain rfl := hFirst.unique hFirst'
      exact ⟨rfl, rfl⟩
    | member _ _ hNone _ =>
      obtain ⟨n, hn, hName⟩ := hPiece.holds
      exact absurd hName (hNone p hPiece.mem n hn)
  | member path m hNone hFirst =>
    cases h' with
    | namesake p n hPiece _ =>
      obtain ⟨n, hn, hName⟩ := hPiece.holds
      exact absurd hName (hNone p hPiece.mem n hn)
    | member path' m' _ hFirst' =>
      obtain ⟨rfl, rfl⟩ := Prod.mk.inj (hFirst.unique hFirst')
      exact ⟨rfl, rfl⟩

/-- **A type without room for the method conflicts with it** at the place that is reported. -/
theorem conflictsAt_of_mode {place : Location} (h : s.mode = .error place) :
    ∃ path span, place = .ofSpan path span ∧ s.ConflictsAt path span := by
  unfold Symbol.mode at h
  cases hNamesake : s.nestedRival? with
  | some found =>
    rw [hNamesake] at h
    obtain rfl := Except.error.inj h
    obtain ⟨p, n, hPiece, hFirst, rfl⟩ := nestedRival?_eq_some_iff.1 hNamesake
    exact ⟨p.path, n.span, rfl, .namesake p n hPiece hFirst⟩
  | none =>
    rw [hNamesake] at h
    cases hRivals : s.rivals with
    | nil =>
      rw [hRivals] at h
      cases h
    | cons pm others =>
      -- There is room after all if the one rival is a stub; in any other case the first rival is at
      -- fault.
      obtain ⟨path, m⟩ := pm
      simp only [hRivals] at h
      split at h
      · cases h
      · obtain rfl := Except.error.inj h
        exact ⟨path, m.span, rfl, .member path m (nestedRival?_eq_none_iff.1 hNamesake)
          (isFirst_of_rivals_eq_cons hRivals)⟩

end Symbol

/-! ## The conditions -/

/-- Whether a diagnostic is of this sort, stands at this place and has this message. These are all
fields that a diagnostic has. -/
structure Diagnostic.Says (d : Diagnostic) (id : DiagnosticId) (path : String) (span : Span)
    (message : String) : Prop where
  sort : d.id = id
  file : d.location.path = path
  line : d.location.line = span.line
  column : d.location.column = span.column
  wording : d.message = message

/-- A diagnostic is given by what it says. Where a message template gives a text with its arguments
filled in, reporting it says this text at this place and nothing else does. -/
theorem Diagnostic.eq_report_iff {d : Diagnostic} {id : DiagnosticId} {path message : String}
    {span : Span} {arguments : MessageArguments}
    (h : id.descriptor.template.fill arguments = message) :
    d = .report id (.ofSpan path span) arguments ↔ d.Says id path span message := by
  constructor
  · rintro rfl
    exact ⟨rfl, rfl, rfl, rfl, h⟩
  · rintro ⟨rfl, rfl, hLine, hColumn, rfl⟩
    obtain ⟨id, message, path, line, column⟩ := d
    dsimp only at hLine hColumn h
    rw [report, h, Location.ofSpan, ← hLine, ← hColumn]

/-- The conditions for a validator. A type has to be of a supported kind, to be resolved by the
compiler, not to be static, to be visible and extensible together with all types around it, and to
leave room for the method. -/
inductive Condition where
  | supported
  | resolved
  | nonStatic
  | visible
  | visibleAround
  | extensible
  | extensibleAround
  | roomForMethod
  deriving Repr, DecidableEq

/-- The order in which the conditions are looked at. It decides which one a type is refused for that
fails several of them. -/
def Condition.inOrder : List Condition :=
  [.supported, .resolved, .nonStatic, .visible, .visibleAround, .extensible, .extensibleAround,
    .roomForMethod]

/-- The diagnostic that belongs to a condition. No two conditions have the same. -/
def Condition.diagnosticId : Condition → DiagnosticId
  | .supported => .unsupportedTypeDeclaration
  | .resolved => .unknown
  | .nonStatic => .staticType
  | .visible => .notPublic
  | .visibleAround => .notPublicContainingType
  | .extensible => .notPartial
  | .extensibleAround => .notPartialContainingType
  | .roomForMethod => .validateConflict

theorem Condition.mem_inOrder (c : Condition) : c ∈ inOrder := by
  cases c <;> decide

theorem TypeKind.isSupported_iff {kind : TypeKind} : kind.isSupported = true ↔
    kind ∈ [.classType, .structType, .interfaceType, .recordClass, .recordStruct] := by
  cases kind <;> decide

namespace Piece

/-- Whether a piece can be continued by other pieces. -/
def IsPartial (p : Piece) : Prop :=
  "partial" ∈ p.head.modifiers

theorem unresolved_iff (p : Piece) :
    (!p.head.isNamedType) = true ↔ p.head.symbol ≠ "named_type" := by
  simp [TypeHead.isNamedType, TypeHead.namedType]

theorem static_iff (p : Piece) :
    p.head.hasModifier "static" = true ↔ "static" ∈ p.head.modifiers := by
  simp [TypeHead.hasModifier]

theorem nonPartial_iff (p : Piece) :
    (!p.head.hasModifier "partial") = true ↔ ¬ p.IsPartial := by
  simp [TypeHead.hasModifier, IsPartial]

end Piece

/-- There is no first piece that is not partial if all pieces are. -/
theorem Symbol.nonPartialPiece?_eq_none_iff {s : Symbol} :
    s.nonPartialPiece? = none ↔ ¬ ∃ p ∈ s.pieces, ¬ p.IsPartial := by
  unfold nonPartialPiece?
  simp only [List.find?_eq_none, Piece.nonPartial_iff, not_exists, not_and]

namespace SymbolTable

/-- What each condition asks of a type. What is asked of pieces is asked of all pieces of the type,
save for its kind, which the first one tells. -/
def Meets (t : SymbolTable) (s : Symbol) : Condition → Prop
  | .supported => s.first.head.kind ∈
      [.classType, .structType, .interfaceType, .recordClass, .recordStruct]
  | .resolved => ∀ p ∈ s.pieces, p.head.symbol = "named_type"
  | .nonStatic => ∀ p ∈ s.pieces, "static" ∉ p.head.modifiers
  | .visible => t.EffectivelyPublic s
  | .visibleAround => ∀ outer ∈ t.ancestors s, t.EffectivelyPublic outer
  | .extensible => ∀ p ∈ s.pieces, p.IsPartial
  | .extensibleAround => ∀ outer ∈ t.ancestors s, ∀ p ∈ outer.pieces, p.IsPartial
  | .roomForMethod => ∃ mode, s.HasRoom mode

/-- How messages write the namespace of a type. It is the one declared on the first piece of the
outermost type around it. A declaration without a namespace, or with an empty one, is in the global
namespace. -/
def writtenNamespace (t : SymbolTable) (s : Symbol) : String :=
  match ((t.ancestors s).headD s).first.head.inNamespace with
  | none | some "" => "<global>"
  | some name => name

/-- How messages write the name of a type: after the names of the types around it. -/
def writtenName (t : SymbolTable) (s : Symbol) : String :=
  ".".intercalate ((t.ancestors s ++ [s]).map fun link => link.first.head.name)

/-- The diagnostic that goes with a condition which a type does not meet. Each condition has its own
identifier. The place is the first piece of the type, or the first one that fails the condition;
only what stands inside the type can be in the way of the method. The message names the type with
its namespace, and the type around it that is at fault. -/
def Blames (t : SymbolTable) (s : Symbol) (d : Diagnostic) (c : Condition) : Prop :=
  let full := t.writtenNamespace s ++ "." ++ t.writtenName s
  let around (outer : Symbol) := t.writtenNamespace s ++ "." ++ t.writtenName outer
  match c with
  | .supported =>
    d.Says .unsupportedTypeDeclaration s.first.path s.first.head.span
      ("unsupported type of declaration, FastValidate currently only supports class, struct, " ++
        "interface, record, and record struct types")
  | .resolved => ∃ p, IsFirst (fun p : Piece => p.head.symbol ≠ "named_type") p s.pieces ∧
    d.Says .unknown p.path p.head.span
      ("unknown error occurred while generating. symbol type '" ++ p.head.symbol ++ "'")
  | .nonStatic => ∃ p, IsFirst (fun p : Piece => "static" ∈ p.head.modifiers) p s.pieces ∧
    d.Says .staticType p.path p.head.span
      ("cannot generate validations for static type " ++ full)
  | .visible =>
    d.Says .notPublic s.first.path s.first.head.span
      ("type '" ++ full ++ "' must be declared as public")
  | .visibleAround => ∃ outer,
    IsFirst (fun outer => ¬ t.EffectivelyPublic outer) outer (t.ancestors s) ∧
      d.Says .notPublicContainingType outer.first.path outer.first.head.span
        ("containing type '" ++ around outer ++ "' of type '" ++ full ++
          "' must be declared as public")
  | .extensible => ∃ p, IsFirst (fun p : Piece => ¬ p.IsPartial) p s.pieces ∧
    d.Says .notPartial p.path p.head.span
      ("type '" ++ full ++ "' must be declared as partial")
  | .extensibleAround => ∃ outer p,
    IsFirst (fun outer => ∃ p ∈ Symbol.pieces outer, ¬ p.IsPartial) outer (t.ancestors s) ∧
    IsFirst (fun p : Piece => ¬ p.IsPartial) p outer.pieces ∧
      d.Says .notPartialContainingType p.path p.head.span
        ("containing type '" ++ around outer ++ "' of type '" ++ full ++
          "' must be declared as partial")
  | .roomForMethod => ∃ path span, s.ConflictsAt path span ∧
    d.Says .validateConflict path span
      ("type '" ++ full ++
        "' already declares a member 'Validate' that is not a compatible partial stub")

/-- The complaint that the check makes about a condition, if it makes one. The check goes through
these in the order of the conditions. -/
def complaint? (t : SymbolTable) (s : Symbol) : Condition → Option Diagnostic
  | .supported =>
    if s.kind.isSupported then none
    else some (.report .unsupportedTypeDeclaration s.first.location (t.messageArguments s))
  | .resolved =>
    (s.pieces.find? (!·.head.isNamedType)).map fun p =>
      .report .unknown p.location ((t.messageArguments s).withDetail p.head.symbol)
  | .nonStatic =>
    (s.pieces.find? (·.head.hasModifier "static")).map fun p =>
      .report .staticType p.location (t.messageArguments s)
  | .visible =>
    if t.isPublic s then none
    else some (.report .notPublic s.first.location (t.messageArguments s))
  | .visibleAround =>
    ((t.ancestors s).find? (!t.isPublic ·)).map fun outer =>
      .report .notPublicContainingType outer.first.location
        ((t.messageArguments s).withContaining (t.nestedName outer))
  | .extensible =>
    s.nonPartialPiece?.map fun p => .report .notPartial p.location (t.messageArguments s)
  | .extensibleAround =>
    (t.ancestors s).findSome? fun outer =>
      outer.nonPartialPiece?.map fun p =>
        .report .notPartialContainingType p.location
          ((t.messageArguments s).withContaining (t.nestedName outer))
  | .roomForMethod =>
    match s.mode with
    | .ok _ => none
    | .error place => some (.report .validateConflict place (t.messageArguments s))

variable {t : SymbolTable} {s : Symbol} {d : Diagnostic} {mode : Mode}

/-- A diagnostic tells which condition it is about. -/
theorem Blames.id_eq {c : Condition} (h : t.Blames s d c) : d.id = c.diagnosticId := by
  cases c with
  | supported => exact h.sort
  | resolved =>
    obtain ⟨p, -, hSays⟩ := h
    exact hSays.sort
  | nonStatic =>
    obtain ⟨p, -, hSays⟩ := h
    exact hSays.sort
  | visible => exact h.sort
  | visibleAround =>
    obtain ⟨outer, -, hSays⟩ := h
    exact hSays.sort
  | extensible =>
    obtain ⟨p, -, hSays⟩ := h
    exact hSays.sort
  | extensibleAround =>
    obtain ⟨outer, p, -, -, hSays⟩ := h
    exact hSays.sort
  | roomForMethod =>
    obtain ⟨path, span, -, hSays⟩ := h
    exact hSays.sort

theorem hidden_iff (outer : Symbol) :
    (!t.isPublic outer) = true ↔ ¬ t.EffectivelyPublic outer := by
  rw [← isPublic_iff, Bool.not_eq_true', Bool.not_eq_true]

/-- **A part of the check makes no complaint exactly if its condition is met.** Each part is a
search, and the condition says that it finds nothing. -/
theorem complaint?_eq_none_iff (c : Condition) : t.complaint? s c = none ↔ t.Meets s c := by
  cases c with
  | supported =>
    have hKind : t.Meets s .supported ↔ s.kind.isSupported = true := TypeKind.isSupported_iff.symm
    simp only [complaint?, hKind, ite_eq_left_iff, reduceCtorEq, imp_false, Decidable.not_not]
  | resolved =>
    simp only [complaint?, Meets, Option.map_eq_none_iff, List.find?_eq_none, Piece.unresolved_iff,
      Decidable.not_not]
  | nonStatic =>
    simp only [complaint?, Meets, Option.map_eq_none_iff, List.find?_eq_none, Piece.static_iff]
  | visible =>
    simp only [complaint?, Meets, ← isPublic_iff, ite_eq_left_iff, reduceCtorEq, imp_false,
      Decidable.not_not]
  | visibleAround =>
    simp only [complaint?, Meets, Option.map_eq_none_iff, List.find?_eq_none, hidden_iff, not_not]
  | extensible =>
    simp only [complaint?, Meets, Option.map_eq_none_iff, Symbol.nonPartialPiece?_eq_none_iff,
      not_exists, not_and, not_not]
  | extensibleAround =>
    simp only [complaint?, Meets, List.findSome?_eq_none_iff, Option.map_eq_none_iff,
      Symbol.nonPartialPiece?_eq_none_iff, not_exists, not_and, not_not]
  | roomForMethod =>
    simp only [complaint?, Meets, ← Symbol.mode_eq_ok_iff]
    cases s.mode with
    | ok mode => simp
    | error place => simp

/-- What messages are filled in with are the names of the type, written out from the declarations
around it. -/
theorem messageArguments_eq :
    t.messageArguments s = ⟨t.writtenNamespace s, t.writtenName s, "", ""⟩ := by
  have hNamespace : (t.namespace? s).getD globalNamespace = t.writtenNamespace s := by
    unfold namespace? outermost TypeHead.ownNamespace? writtenNamespace
    cases ((t.ancestors s).headD s).first.head.inNamespace with
    | none => rfl
    | some name =>
      by_cases hName : name = ""
      · subst hName
        rfl
      · have hNamed : decide (name ≠ "") = true := decide_eq_true hName
        simp only [Option.filter_some, hNamed, if_true, Option.getD_some]
  rw [messageArguments, MessageArguments.ofType, hNamespace]
  rfl

theorem nestedName_eq (outer : Symbol) : t.nestedName outer = t.writtenName outer := rfl

/-- **What the complaint about a condition blames**, where the condition is not met. -/
theorem complaint?_eq_some_iff {c : Condition} (h : ¬ t.Meets s c) :
    t.complaint? s c = some d ↔ t.Blames s d c := by
  -- the place is found by the searches of the check; what is left is to write the message out
  cases c with
  | supported =>
    have hKind : ¬ s.kind.isSupported = true := mt TypeKind.isSupported_iff.1 h
    rw [complaint?, if_neg hKind, Option.some.injEq, eq_comm]
    refine Diagnostic.eq_report_iff ?_
    simp [DiagnosticId.descriptor]
  | resolved =>
    refine (map_find?_eq_some_iff_isFirst Piece.unresolved_iff).trans
      (exists_congr fun p => and_congr_right fun _ => Diagnostic.eq_report_iff ?_)
    simp [DiagnosticId.descriptor, String.append_assoc]
  | nonStatic =>
    refine (map_find?_eq_some_iff_isFirst Piece.static_iff).trans
      (exists_congr fun p => and_congr_right fun _ => Diagnostic.eq_report_iff ?_)
    simp [DiagnosticId.descriptor, messageArguments_eq, String.append_assoc]
  | visible =>
    have hPublic : ¬ t.isPublic s = true := mt isPublic_iff.1 h
    rw [complaint?, if_neg hPublic, Option.some.injEq, eq_comm]
    refine Diagnostic.eq_report_iff ?_
    simp [DiagnosticId.descriptor, messageArguments_eq, String.append_assoc]
  | visibleAround =>
    refine (map_find?_eq_some_iff_isFirst hidden_iff).trans
      (exists_congr fun outer => and_congr_right fun _ => Diagnostic.eq_report_iff ?_)
    simp [DiagnosticId.descriptor, messageArguments_eq, nestedName_eq, String.append_assoc]
  | extensible =>
    refine (map_find?_eq_some_iff_isFirst Piece.nonPartial_iff).trans
      (exists_congr fun p => and_congr_right fun _ => Diagnostic.eq_report_iff ?_)
    simp [DiagnosticId.descriptor, messageArguments_eq, String.append_assoc]
  | extensibleAround =>
    have hNone : ∀ outer : Symbol, (outer.nonPartialPiece?.map fun p =>
        Diagnostic.report .notPartialContainingType p.location
          ((t.messageArguments s).withContaining (t.nestedName outer))) = none ↔
        ¬ ∃ p ∈ outer.pieces, ¬ p.IsPartial := by
      intro outer
      rw [Option.map_eq_none_iff, Symbol.nonPartialPiece?_eq_none_iff]
    refine (findSome?_eq_some_iff_isFirst hNone).trans (exists_congr fun outer => ?_)
    rw [exists_and_left]
    refine and_congr_right fun _ => (map_find?_eq_some_iff_isFirst Piece.nonPartial_iff).trans
      (exists_congr fun p => and_congr_right fun _ => Diagnostic.eq_report_iff ?_)
    simp [DiagnosticId.descriptor, messageArguments_eq, nestedName_eq, String.append_assoc]
  | roomForMethod =>
    unfold complaint?
    cases hMode : s.mode with
    | ok mode => exact absurd ⟨mode, Symbol.mode_eq_ok_iff.1 hMode⟩ h
    | error place =>
      obtain ⟨path, span, rfl, hPlace⟩ := Symbol.conflictsAt_of_mode hMode
      dsimp only
      rw [Option.some.injEq, eq_comm]
      refine (Diagnostic.eq_report_iff ?_).trans ⟨fun hSays => ⟨path, span, hPlace, hSays⟩, ?_⟩
      · simp [DiagnosticId.descriptor, messageArguments_eq, String.append_assoc]
      · rintro ⟨path', span', hPlace', hSays⟩
        obtain ⟨rfl, rfl⟩ := hPlace.unique hPlace'
        simpa [String.append_assoc] using hSays

/-- The parts of the check in their order. The seven conditions on declarations are looked at before
the room for the method. -/
theorem findSome?_inOrder : Condition.inOrder.findSome? (t.complaint? s) =
    (t.violation? s).or (t.complaint? s .roomForMethod) := by
  have hStructural : t.violation? s = [.supported, .resolved, .nonStatic, .visible, .visibleAround,
      .extensible, .extensibleAround].findSome? (t.complaint? s) := rfl
  have hRoom : t.complaint? s .roomForMethod =
      [Condition.roomForMethod].findSome? (t.complaint? s) := by
    rw [List.findSome?_singleton]
  rw [hStructural, hRoom, ← List.findSome?_append]
  rfl

/-- **The check refuses a type with its first complaint.** -/
theorem eligible_eq_error_iff :
    t.eligible s = .error d ↔ Condition.inOrder.findSome? (t.complaint? s) = some d := by
  rw [findSome?_inOrder, eligible, complaint?]
  cases t.violation? s with
  | some other => simp
  | none => cases s.mode <;> simp [Except.mapError]

/-- **The check accepts a type about which it has no complaint**, in the mode there is room for. -/
theorem eligible_eq_ok_iff :
    t.eligible s = .ok mode ↔
      Condition.inOrder.findSome? (t.complaint? s) = none ∧ s.mode = .ok mode := by
  rw [findSome?_inOrder, eligible, complaint?]
  cases t.violation? s with
  | some other => simp
  | none => cases s.mode <;> simp [Except.mapError]

/-- **The check decides the conditions.** It accepts a type, in the mode there is room for, exactly
if the type meets all conditions; and it refuses any other type with the one diagnostic that goes
with the first condition that the type does not meet. -/
theorem eligible_decides_conditions (t : SymbolTable) (s : Symbol) :
    (∀ mode, t.eligible s = .ok mode ↔ (∀ c, t.Meets s c) ∧ s.HasRoom mode) ∧
      ∀ d, t.eligible s = .error d ↔
        ∃ c, IsFirst (fun c => ¬ t.Meets s c) c Condition.inOrder ∧ t.Blames s d c := by
  constructor
  · intro mode
    rw [eligible_eq_ok_iff, Symbol.mode_eq_ok_iff, List.findSome?_eq_none_iff]
    simp only [complaint?_eq_none_iff, Condition.mem_inOrder, forall_const]
  · intro d
    have hComplains : ∀ c, t.complaint? s c = none ↔ ¬ ¬ t.Meets s c := by
      intro c
      rw [not_not, complaint?_eq_none_iff]
    rw [eligible_eq_error_iff, findSome?_eq_some_iff_isFirst hComplains]
    exact exists_congr fun c => and_congr_right fun hFirst => complaint?_eq_some_iff hFirst.holds

end SymbolTable

/-- A public class in two files, of which only the first piece is partial, with a class inside; and
a class that declares the method without its body. -/
def Compilation.yard : Compilation :=
  let publicClass (name : String) (span : Span) : TypeHead := { (default : TypeHead) with
    kind := .classType
    name
    modifiers := ["public", "partial"]
    symbol := TypeHead.namedType
    span }
  let yard (span : Span) : TypeHead := { publicClass "Yard" span with inNamespace := some "Depot" }
  let stub : Member := { (default : Member) with
    kind := .method
    name := "Validate"
    type := some "bool"
    modifiers := ["public", "partial"] }
  let crane : TypeHead := { publicClass "Crane" ⟨9, 1⟩ with members := [stub] }
  ⟨[⟨"Yard.cs", [⟨yard ⟨2, 1⟩, [⟨publicClass "Gate" ⟨3, 5⟩, []⟩]⟩, ⟨crane, []⟩]⟩,
    ⟨"Rest.cs", [⟨{ yard ⟨7, 1⟩ with modifiers := ["public"] }, []⟩]⟩]⟩

/-- The class with the stub is accepted. The one inside is refused for the piece around it that is
not partial. -/
theorem SymbolTable.eligible_decides_conditions_yard :
    let t : SymbolTable := .ofCompilation .yard
    (∃ crane, t.symbol? "::Crane`0" = some crane ∧ t.eligible crane = .ok .completeStub ∧
      (∀ c, t.Meets crane c) ∧ crane.HasRoom .completeStub) ∧
    ∃ gate d, t.symbol? "Depot::Yard`0+Gate`0" = some gate ∧ t.eligible gate = .error d ∧
      d.text = "Rest.cs:7:1: error[ERR-FV-002b]: containing type 'Depot.Yard' of type " ++
        "'Depot.Yard.Gate' must be declared as partial" ∧
      IsFirst (fun c => ¬ t.Meets gate c) .extensibleAround Condition.inOrder ∧
      t.Blames gate d .extensibleAround := by
  intro t
  have hCrane : (t.symbol? "::Crane`0").map (fun s => (t.eligible s).mapError Diagnostic.text) =
      some (.ok .completeStub) := by decide +kernel
  have hGate : (t.symbol? "Depot::Yard`0+Gate`0").map (fun s =>
      (t.eligible s).mapError fun d => (d.id, d.text)) =
      some (.error (.notPartialContainingType,
        "Rest.cs:7:1: error[ERR-FV-002b]: containing type 'Depot.Yard' of type " ++
          "'Depot.Yard.Gate' must be declared as partial")) := by decide +kernel
  obtain ⟨crane, hCraneSymbol, hAccepted⟩ := Option.map_eq_some_iff.1 hCrane
  obtain ⟨gate, hGateSymbol, hRefused⟩ := Option.map_eq_some_iff.1 hGate
  constructor
  · have hOk := mapError_eq_ok_iff.1 hAccepted
    obtain ⟨hMeets, hRoom⟩ := ((eligible_decides_conditions t crane).1 _).1 hOk
    exact ⟨crane, hCraneSymbol, hOk, hMeets, hRoom⟩
  · obtain ⟨d, hError, hSame⟩ := mapError_eq_error_iff.1 hRefused
    obtain ⟨hId, hText⟩ := Prod.mk.inj hSame
    obtain ⟨c, hFirst, hBlames⟩ := ((eligible_decides_conditions t gate).2 d).1 hError
    -- the diagnostic tells which condition it is
    have hCondition : c = .extensibleAround := by
      have hOwn := hBlames.id_eq.symm.trans hId
      cases c <;> first | rfl | cases hOwn
    subst hCondition
    exact ⟨gate, d, hGateSymbol, hError, hText, hFirst, hBlames⟩

end ValidatorGen
