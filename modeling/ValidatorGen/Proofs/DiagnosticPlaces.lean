import ValidatorGen.Proofs.Nesting
import ValidatorGen.Proofs.Outcome
import ValidatorGen.Proofs.Preconditions

/-!
# What diagnostics point to

A diagnostic is put together from a path, a span and the arguments of its message, which reach the
place where it is reported on different ways: paths and spans through the pieces of the table, names
through the chain of a type. Here it is proved that they belong together. Every diagnostic points to
a declaration of the program, in the file in which this declaration stands, and its message names
the candidate; where it speaks of a type around the candidate, it points to a piece of that type.

`Concerns` lists what a diagnostic can be about, one constructor for each way of reporting, and
gives with each the span and the arguments that belong to it. What is then proved of a diagnostic is
that its path, line, column and message are those of some concern; nothing in it mentions the
function by which diagnostics are made.

Main results:

* `Piece.exists_declaration` — a piece of a table is the piece of a declaration in a file;
* `SymbolTable.exists_pointsInto_of_complaint?` — a complaint about a type points to one of its
  pieces, to what stands directly in one, or to a piece of a type around it;
* `generate_pointsToDeclarations` — the same for everything that a pass reports.
-/

namespace ValidatorGen

open Number (Arithmetic)

/-! ## Pieces and declarations -/

/-- Whether a declaration is one of several, or stands inside one of them at any depth. -/
inductive TypeDeclaration.StandsIn (d : TypeDeclaration) : List TypeDeclaration → Prop
  | here {ds : List TypeDeclaration} (mem : d ∈ ds) : StandsIn d ds
  | inside {ds : List TypeDeclaration} (outer : TypeDeclaration) (mem : outer ∈ ds)
      (nested : StandsIn d outer.nested) : StandsIn d ds

theorem TypeDeclaration.StandsIn.mono {d : TypeDeclaration} {ds es : List TypeDeclaration}
    (h : d.StandsIn ds) (hSub : ds ⊆ es) : d.StandsIn es := by
  cases h with
  | here mem => exact .here (hSub mem)
  | inside outer mem nested => exact .inside outer (hSub mem) nested

namespace Piece

/-- Whether a piece is that of a declaration in a file with a path. -/
structure IsOf (p : Piece) (path : String) (d : TypeDeclaration) : Prop where
  path_eq : p.path = path
  head_eq : p.head = d.head
  nested_eq : p.nested = d.nested.map TypeDeclaration.head

mutual

theorem exists_standsIn_of_mem_ofDeclaration (path : String) (parent : Option String) :
    ∀ d : TypeDeclaration, ∀ p ∈ ofDeclaration path parent d,
      ∃ e : TypeDeclaration, e.StandsIn [d] ∧ p.IsOf path e
  | ⟨head, nested⟩ => by
    intro p hp
    rw [ofDeclaration] at hp
    rcases List.mem_cons.1 hp with rfl | hp
    · exact ⟨⟨head, nested⟩, .here List.mem_cons_self, rfl, rfl, rfl⟩
    · obtain ⟨e, hStands, hOf⟩ := exists_standsIn_of_mem_ofDeclarations path _ nested p hp
      exact ⟨e, .inside _ List.mem_cons_self hStands, hOf⟩

/-- The pieces of declarations come from these and from what is nested in them. -/
theorem exists_standsIn_of_mem_ofDeclarations (path : String) (parent : Option String) :
    ∀ ds : List TypeDeclaration, ∀ p ∈ ofDeclarations path parent ds,
      ∃ e : TypeDeclaration, e.StandsIn ds ∧ p.IsOf path e
  | [] => by
    intro p hp
    rw [ofDeclarations] at hp
    exact absurd hp List.not_mem_nil
  | d :: rest => by
    intro p hp
    rw [ofDeclarations] at hp
    rcases List.mem_append.1 hp with hp | hp
    · obtain ⟨e, hStands, hOf⟩ := exists_standsIn_of_mem_ofDeclaration path parent d p hp
      exact ⟨e, hStands.mono (List.cons_subset_cons d (List.nil_subset rest)), hOf⟩
    · obtain ⟨e, hStands, hOf⟩ := exists_standsIn_of_mem_ofDeclarations path parent rest p hp
      exact ⟨e, hStands.mono (List.subset_cons_self d rest), hOf⟩

end

/-- **A piece of a program is that of a declaration in one of its files.** -/
theorem exists_declaration {c : Compilation} {p : Piece}
    (hp : p ∈ (SymbolTable.ofCompilation c).pieces) :
    ∃ file ∈ c.files, ∃ d : TypeDeclaration, d.StandsIn file.types ∧ p.IsOf file.path d := by
  obtain ⟨file, hFile, hp⟩ := List.mem_flatMap.1 hp
  obtain ⟨d, hStands, hOf⟩ := exists_standsIn_of_mem_ofDeclarations file.path none file.types p hp
  exact ⟨file, hFile, d, hStands, hOf⟩

end Piece

namespace SymbolTable

variable {t : SymbolTable} {s outer : Symbol} {p : Piece} {d : Diagnostic}

theorem mem_pieces_of_symbol? {key : String} (h : t.symbol? key = some s) (hp : p ∈ s.pieces) :
    p ∈ t.pieces := by
  have hMem : p ∈ t.piecesOf key := by
    rw [symbol?_eq_some_iff.1 h]
    exact hp
  exact List.mem_of_mem_filter hMem

/-- The types around a type are types of the table, with all of their pieces. -/
theorem mem_pieces_of_mem_ancestors (hOuter : outer ∈ t.ancestors s) (hp : p ∈ outer.pieces) :
    p ∈ t.pieces := by
  -- from the inside out, as the types around a type are found
  induction s using ancestors.induct t with
  | case1 s hNone =>
    rw [ancestors_of_enclosing?_eq_none hNone] at hOuter
    exact absurd hOuter List.not_mem_nil
  | case2 s next hNext ih =>
    rw [ancestors_of_enclosing? hNext] at hOuter
    rcases List.mem_append.1 hOuter with hOuter | hOuter
    · exact ih hOuter
    · obtain ⟨key, -, hSymbol⟩ := Option.bind_eq_some_iff.1 hNext
      rw [List.mem_singleton.1 hOuter] at hp
      exact mem_pieces_of_symbol? hSymbol hp

/-! ## What a diagnostic is about -/

/-- What a diagnostic about a type says of a piece: at which span it points, and what its message is
filled with. The piece is one of the type itself, but for the two diagnostics on the types around
it. -/
inductive Concerns (t : SymbolTable) (s : Symbol) (p : Piece) :
    DiagnosticId → Span → MessageArguments → Prop
  /-- The declaration itself is meant. -/
  | piece (id : DiagnosticId) (mem : p ∈ s.pieces)
      (plain : id ∈
        [.unsupportedTypeDeclaration, .staticType, .notPublic, .notPartial, .noEffect]) :
      Concerns t s p id p.head.span (t.messageArguments s)
  /-- What the declaration was resolved to is named. -/
  | unresolved (mem : p ∈ s.pieces) :
      Concerns t s p .unknown p.head.span ((t.messageArguments s).withDetail p.head.symbol)
  /-- The declaration is a piece of a type around the candidate, which is named. -/
  | around (id : DiagnosticId) (outer : Symbol) (encloses : outer ∈ t.ancestors s)
      (mem : p ∈ outer.pieces)
      (containing : id ∈ [.notPublicContainingType, .notPartialContainingType]) :
      Concerns t s p id p.head.span ((t.messageArguments s).withContaining (t.nestedName outer))
  /-- A type that is declared directly in the piece is meant. -/
  | nestedType (n : TypeHead) (mem : p ∈ s.pieces) (inside : n ∈ p.nested) :
      Concerns t s p .validateConflict n.span (t.messageArguments s)
  /-- A member of the piece is meant. -/
  | member (m : Member) (mem : p ∈ s.pieces) (inside : m ∈ p.head.members) :
      Concerns t s p .validateConflict m.span (t.messageArguments s)
  /-- A member of the piece is meant, and named. -/
  | constraint (m : Member) (mem : p ∈ s.pieces) (inside : m ∈ p.head.members) :
      Concerns t s p .unsupportedConstraintOperand m.span
        ((t.messageArguments s).withDetail m.name)

/-- Whether a diagnostic about a type points into a piece, with a message that fits. The path is
that of the piece, so span and path come from one place. -/
def PointsInto (t : SymbolTable) (s : Symbol) (p : Piece) (d : Diagnostic) : Prop :=
  ∃ span arguments, t.Concerns s p d.id span arguments ∧ d.location = .ofSpan p.path span ∧
    d.message = d.id.descriptor.template.fill arguments

/-- What is reported at a span that a piece is concerned by points into it. -/
theorem Concerns.pointsInto {id : DiagnosticId} {span : Span} {arguments : MessageArguments}
    (h : t.Concerns s p id span arguments) :
    t.PointsInto s p (.report id (.ofSpan p.path span) arguments) :=
  ⟨span, arguments, h, rfl, rfl⟩

/-- The place of a conflict is that of a member, or of a nested type, of some piece. -/
theorem exists_pointsInto_of_conflictsAt {path : String} {span : Span}
    (h : s.ConflictsAt path span) :
    ∃ p, t.PointsInto s p
      (.report .validateConflict (.ofSpan path span) (t.messageArguments s)) := by
  cases h with
  | namesake p n piece first => exact ⟨p, (Concerns.nestedType n piece.mem first.mem).pointsInto⟩
  | member path m _ first =>
    -- members of a type carry the path of the piece they are declared in
    obtain ⟨p, hp, hMember⟩ := List.mem_flatMap.1 first.mem
    obtain ⟨m', hInside, hSame⟩ := List.mem_map.1 hMember
    obtain ⟨rfl, rfl⟩ := Prod.mk.inj hSame
    exact ⟨p, (Concerns.member m' hp hInside).pointsInto⟩

/-- **A complaint about a type points into a piece** of the type, or of a type around it. -/
theorem exists_pointsInto_of_complaint? {condition : Condition}
    (h : t.complaint? s condition = some d) : ∃ p, t.PointsInto s p d := by
  cases condition with
  | supported =>
    obtain ⟨-, hReport⟩ := Option.ite_none_left_eq_some.1 h
    obtain rfl := Option.some.inj hReport
    exact ⟨s.first, (Concerns.piece _ List.mem_cons_self (by decide)).pointsInto⟩
  | resolved =>
    obtain ⟨p, hFound, rfl⟩ := Option.map_eq_some_iff.1 h
    exact ⟨p, (Concerns.unresolved (List.mem_of_find?_eq_some hFound)).pointsInto⟩
  | nonStatic =>
    obtain ⟨p, hFound, rfl⟩ := Option.map_eq_some_iff.1 h
    exact ⟨p, (Concerns.piece _ (List.mem_of_find?_eq_some hFound) (by decide)).pointsInto⟩
  | visible =>
    obtain ⟨-, hReport⟩ := Option.ite_none_left_eq_some.1 h
    obtain rfl := Option.some.inj hReport
    exact ⟨s.first, (Concerns.piece _ List.mem_cons_self (by decide)).pointsInto⟩
  | visibleAround =>
    obtain ⟨outer, hFound, rfl⟩ := Option.map_eq_some_iff.1 h
    have hOuter := List.mem_of_find?_eq_some hFound
    exact ⟨outer.first,
      (Concerns.around _ outer hOuter List.mem_cons_self (by decide)).pointsInto⟩
  | extensible =>
    obtain ⟨p, hFound, rfl⟩ := Option.map_eq_some_iff.1 h
    exact ⟨p, (Concerns.piece _ (List.mem_of_find?_eq_some hFound) (by decide)).pointsInto⟩
  -- two searches follow each other here, for a type around the candidate and for a piece of it
  | extensibleAround =>
    obtain ⟨outer, hOuter, hReport⟩ := List.exists_of_findSome?_eq_some h
    obtain ⟨p, hFound, rfl⟩ := Option.map_eq_some_iff.1 hReport
    have hPiece := List.mem_of_find?_eq_some hFound
    exact ⟨p, (Concerns.around _ outer hOuter hPiece (by decide)).pointsInto⟩
  | roomForMethod =>
    unfold complaint? at h
    cases hMode : s.mode with
    | ok mode =>
      rw [hMode] at h
      cases h
    | error place =>
      rw [hMode] at h
      obtain rfl := Option.some.inj h
      obtain ⟨path, span, rfl, hConflict⟩ := Symbol.conflictsAt_of_mode hMode
      exact exists_pointsInto_of_conflictsAt hConflict

/-- The reason for which a type is refused points into a piece. -/
theorem exists_pointsInto_of_eligible (h : t.eligible s = .error d) :
    ∃ p, t.PointsInto s p d := by
  have hFirst := eligible_eq_error_iff.1 h
  obtain ⟨condition, -, hComplaint⟩ := List.exists_of_findSome?_eq_some hFirst
  exact exists_pointsInto_of_complaint? hComplaint

/-- Diagnostics about a candidate are concerned with pieces of the table only. -/
theorem Concerns.mem_pieces {known : KnownSymbols} {id : DiagnosticId} {span : Span}
    {arguments : MessageArguments} (h : t.Concerns s p id span arguments)
    (hs : s ∈ t.candidates known) : p ∈ t.pieces := by
  obtain ⟨key, -, hSymbol⟩ := List.mem_filterMap.1 (List.mem_filter.1 hs).1
  have hOwn : p ∈ s.pieces → p ∈ t.pieces := mem_pieces_of_symbol? hSymbol
  cases h with
  | piece _ mem => exact hOwn mem
  | unresolved mem => exact hOwn mem
  | around _ outer encloses mem => exact mem_pieces_of_mem_ancestors encloses mem
  | nestedType _ mem => exact hOwn mem
  | member _ mem => exact hOwn mem
  | constraint _ mem => exact hOwn mem

end SymbolTable

/-! ## What a pass reports -/

/-- A finding stands on a member of a piece, in the file of this piece. -/
theorem Finding.exists_piece_of_mem_ofSymbol {known : KnownSymbols} {s : Symbol} {f : Finding}
    (hf : f ∈ ofSymbol known s) :
    ∃ p ∈ s.pieces, f.path = p.path ∧ f.member ∈ p.head.members := by
  obtain ⟨p, hp, hf⟩ := List.mem_flatMap.1 hf
  obtain ⟨m, hm, hf⟩ := List.mem_flatMap.1 hf
  obtain ⟨applied, -, hKind⟩ := List.mem_filterMap.1 hf
  obtain ⟨kind, -, rfl⟩ := Option.map_eq_some_iff.1 hKind
  exact ⟨p, hp, rfl, List.mem_of_mem_filter hm⟩

namespace CandidateResult

variable {config : Config} {t : SymbolTable} {s : Symbol} {d : Diagnostic}

/-- A warning about a dropped finding points to the member on which it stands. -/
theorem exists_pointsInto_of_mem_droppedWarnings [Arithmetic] {known : KnownSymbols}
    (h : d ∈ droppedWarnings (t.messageArguments s) (Extraction.outcome known s)) :
    ∃ p, t.PointsInto s p d := by
  obtain ⟨r, hr, rfl⟩ := List.mem_map.1 h
  rw [Extraction.dropped_outcome] at hr
  obtain ⟨f, hf, rfl⟩ := List.mem_map.1 hr
  obtain ⟨p, hp, hPath, hMember⟩ := Finding.exists_piece_of_mem_ofSymbol (List.mem_filter.1 hf).1
  refine ⟨p, f.member.span, _, .constraint f.member hp hMember, ?_, rfl⟩
  show Location.ofSpan f.path f.member.span = Location.ofSpan p.path f.member.span
  rw [hPath]

/-- **What is reported about a candidate points into a piece** of it, or of a type around it. -/
theorem exists_pointsInto_of_mem_diagnostics [Arithmetic]
    (h : d ∈ (outcome config t s).diagnostics) :
    ∃ p, t.PointsInto s p d := by
  unfold outcome at h
  cases hEligible : t.eligible s with
  | error reason =>
    rw [hEligible] at h
    obtain rfl := List.mem_singleton.1 h
    exact SymbolTable.exists_pointsInto_of_eligible hEligible
  | ok mode =>
    rw [hEligible] at h
    -- warnings on dropped findings come first, and perhaps one that nothing is left
    have hWarnings : ∀ w ∈ (if config.reportDropped then
        droppedWarnings (t.messageArguments s) (Extraction.outcome config.symbols s) else []),
        ∃ p, t.PointsInto s p w := by
      intro w hw
      split at hw
      · exact exists_pointsInto_of_mem_droppedWarnings hw
      · exact absurd hw List.not_mem_nil
    -- what is generated is of no account here, only what is said besides
    dsimp only [ofExtraction] at h
    split at h
    · rcases List.mem_append.1 h with h | h
      · exact hWarnings d h
      · obtain rfl := List.mem_singleton.1 h
        exact ⟨s.first, (SymbolTable.Concerns.piece _ List.mem_cons_self (by decide)).pointsInto⟩
    · exact hWarnings d h

end CandidateResult

/-- **Every diagnostic points to a declaration of the program.** For each diagnostic of a pass there
are a candidate, a file of the program and a declaration in this file such that the diagnostic has
the path of the file, and the span of the declaration or of what is declared directly in it. The
declaration is a piece of the candidate, or, for the two diagnostics on containing types, of a type
around it. The message is that of the catalog, filled with the namespace and the nested name of the
candidate, and with the nested name of the very type around it. -/
theorem generate_pointsToDeclarations [Arithmetic] {config : Config} {c : Compilation}
    {out : PassOutput} (h : generate config c = .ok out) :
    ∀ d ∈ out.diagnostics, ∃ s ∈ (SymbolTable.ofCompilation c).candidates config.symbols,
      ∃ file ∈ c.files, ∃ declaration : TypeDeclaration, declaration.StandsIn file.types ∧
        ∃ p : Piece, p.IsOf file.path declaration ∧
          (SymbolTable.ofCompilation c).PointsInto s p d := by
  intro d hd
  obtain ⟨-, rfl⟩ := generate_eq_ok_iff.1 h
  obtain ⟨r, hr, hd⟩ := List.mem_flatMap.1 hd
  obtain ⟨s, hs, rfl⟩ := List.mem_map.1 hr
  obtain ⟨p, hPoints⟩ := CandidateResult.exists_pointsInto_of_mem_diagnostics hd
  -- the piece is in the table, so that it has been made from a declaration in a file
  have hPiece : p ∈ (SymbolTable.ofCompilation c).pieces := by
    obtain ⟨_, _, hConcerns, -, -⟩ := hPoints
    exact hConcerns.mem_pieces hs
  obtain ⟨file, hFile, declaration, hStands, hOf⟩ := Piece.exists_declaration hPiece
  exact ⟨s, hs, file, hFile, declaration, hStands, p, hOf, hPoints⟩

/-- A public class in two files, of which the second piece is not partial. Inside the first one is a
class that asks for a validator. -/
def Compilation.closedShed : Compilation :=
  let publicClass (name : String) (span : Span) : TypeHead := { (default : TypeHead) with
    kind := .classType
    name
    modifiers := ["public", "partial"]
    symbol := TypeHead.namedType
    span }
  let shed (span : Span) : TypeHead := { publicClass "Shed" span with inNamespace := some "Depot" }
  let box : TypeHead := { publicClass "Box" ⟨3, 5⟩ with
    attributes := [⟨KnownSymbols.standard.marker, [], []⟩] }
  ⟨[⟨"Shed.cs", [⟨shed ⟨2, 1⟩, [⟨box, []⟩]⟩]⟩,
    ⟨"Rest.cs", [⟨{ shed ⟨7, 1⟩ with modifiers := ["public"] }, []⟩]⟩]⟩

/-- The diagnostic on the nested class points to the other file, at the piece that is not
partial. -/
theorem generate_closedShed_pointsToDeclarations :
    ∃ out, generate .standard .closedShed = .ok out ∧
      out.diagnostics.map Diagnostic.text =
        ["Rest.cs:7:1: error[ERR-FV-002b]: containing type 'Depot.Shed' of type " ++
          "'Depot.Shed.Box' must be declared as partial"] ∧
      ∀ d ∈ out.diagnostics,
        ∃ s ∈ (SymbolTable.ofCompilation .closedShed).candidates Config.standard.symbols,
          ∃ file ∈ Compilation.closedShed.files, ∃ declaration : TypeDeclaration,
            declaration.StandsIn file.types ∧ ∃ p : Piece, p.IsOf file.path declaration ∧
              (SymbolTable.ofCompilation .closedShed).PointsInto s p d := by
  have hTexts : (generate .standard .closedShed).map (fun o => o.diagnostics.map Diagnostic.text) =
      .ok ["Rest.cs:7:1: error[ERR-FV-002b]: containing type 'Depot.Shed' of type " ++
        "'Depot.Shed.Box' must be declared as partial"] := by decide +kernel
  obtain ⟨out, hPass, hText⟩ := except_map_eq_ok_iff.1 hTexts
  exact ⟨out, hPass, hText.symm, generate_pointsToDeclarations hPass⟩

end ValidatorGen
