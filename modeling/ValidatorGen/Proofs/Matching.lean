import ValidatorGen.Proofs.Outcome
import ValidatorGen.Proofs.Shape

/-!
# Programs that are declared in the same way

Two programs *match* when they have the same files, with declarations nested in the same way, where
the heads at the same places are in a given relation. If heads in this relation have one shape, the
pieces and the types of the programs correspond one by one, and their tables mirror each other. If
moreover they ask for a validator alike and the same is asked for by the annotations on their
members, a pass gives the same output for both programs, also under two configurations.

What two such programs share is what a pass can see of them. The shape of a piece says all that the
table and the conditions read (names, modifiers, parameters, places), so related heads with one
shape lead through the same conditions to the same candidates. What is read of annotations is the
constraint that each one gives on its member, with the place to report it at; the name of the
attribute is not among these, which is why annotations are compared without it.

The relation on heads is left open, since the results that build on this module each have their own:
heads with the same annotations under other names, heads with members that nothing reads, heads
before and after an aliasing.

Main results:

* `Compilation.Matches.forall₂_pieces` — the pieces of programs that match, match;
* `SymbolTable.mirrors_of_forall₂` — tables of pieces that match mirror each other;
* `generate_eq_of_matches` — what is asked for and the shape decide the output.
-/

namespace ValidatorGen

open Number (Abort Arithmetic)

/-! ## Declarations that match -/

section Matches

variable (H : TypeHead → TypeHead → Prop)

mutual

/-- Declarations with related heads, at any depth. The nesting is the same on both sides, so what is
made of declarations from the outside in corresponds place by place. -/
inductive TypeDeclaration.Matches : TypeDeclaration → TypeDeclaration → Prop
  | mk {a b : TypeHead} {as bs : List TypeDeclaration} :
    H a b → TypeDeclaration.AllMatch as bs → TypeDeclaration.Matches ⟨a, as⟩ ⟨b, bs⟩

/-- Declarations side by side with related heads. -/
inductive TypeDeclaration.AllMatch : List TypeDeclaration → List TypeDeclaration → Prop
  | nil : TypeDeclaration.AllMatch [] []
  | cons {d e : TypeDeclaration} {ds es : List TypeDeclaration} :
    TypeDeclaration.Matches d e → TypeDeclaration.AllMatch ds es →
      TypeDeclaration.AllMatch (d :: ds) (e :: es)

end

/-- Programs with the same files, in the same order and with the same paths, whose declarations
match. -/
def Compilation.Matches (c d : Compilation) : Prop :=
  List.Forall₂ (fun f g => f.path = g.path ∧ TypeDeclaration.AllMatch H f.types g.types)
    c.files d.files

/-- Pieces of one shape with related heads. The shape has the key of the piece and the key of the
type around it, so pieces that match belong to the same types. -/
def Piece.Matches (p q : Piece) : Prop :=
  p.shape = q.shape ∧ H p.head q.head

/-- Types with pieces that match. -/
def Symbol.Matches (s r : Symbol) : Prop :=
  List.Forall₂ (Piece.Matches H) s.pieces r.pieces

end Matches

variable {H : TypeHead → TypeHead → Prop}

/-! ## The pieces of declarations that match -/

/-- The key that a head has in a type is decided by its shape. -/
theorem TypeHead.keyIn_eq_of_shape_eq {a b : TypeHead} (h : a.shape = b.shape)
    (parent : Option String) : a.keyIn parent = b.keyIn parent := by
  have hKey := congrArg (keyIn parent) h
  exact hKey

namespace TypeDeclaration

theorem AllMatch.map_shape_head_eq (hShape : ∀ a b, H a b → a.shape = b.shape) :
    ∀ {ds es : List TypeDeclaration}, AllMatch H ds es →
      (ds.map head).map TypeHead.shape = (es.map head).map TypeHead.shape
  | [], [], .nil => rfl
  | ⟨a, _⟩ :: _, ⟨b, _⟩ :: _, .cons (.mk hHead _) hRest => by
    rw [List.map_cons, List.map_cons, List.map_cons, List.map_cons, hShape a b hHead,
      hRest.map_shape_head_eq hShape]

mutual

theorem Matches.forall₂_pieces (hShape : ∀ a b, H a b → a.shape = b.shape) (path : String) :
    ∀ {d e : TypeDeclaration} (parent : Option String), Matches H d e →
      List.Forall₂ (Piece.Matches H) (Piece.ofDeclaration path parent d)
        (Piece.ofDeclaration path parent e)
  | ⟨a, _⟩, ⟨b, _⟩, parent, .mk hHead hNested => by
    have hKey : a.keyIn parent = b.keyIn parent :=
      TypeHead.keyIn_eq_of_shape_eq (hShape a b hHead) parent
    rw [Piece.ofDeclaration, Piece.ofDeclaration]
    refine .cons ⟨?_, hHead⟩ ?_
    · simp only [Piece.shape, Piece.ofHead, Piece.mk.injEq, true_and]
      exact ⟨hKey, hShape a b hHead, hNested.map_shape_head_eq hShape⟩
    · -- what is nested in the declarations has the same key around it
      simp only [Piece.ofHead, hKey]
      exact AllMatch.forall₂_pieces hShape path _ hNested

theorem AllMatch.forall₂_pieces (hShape : ∀ a b, H a b → a.shape = b.shape) (path : String) :
    ∀ {ds es : List TypeDeclaration} (parent : Option String), AllMatch H ds es →
      List.Forall₂ (Piece.Matches H) (Piece.ofDeclarations path parent ds)
        (Piece.ofDeclarations path parent es)
  | [], [], _, .nil => .nil
  | _ :: _, _ :: _, parent, .cons hFirst hRest => by
    rw [Piece.ofDeclarations, Piece.ofDeclarations]
    exact List.rel_append (Matches.forall₂_pieces hShape path parent hFirst)
      (AllMatch.forall₂_pieces hShape path parent hRest)

end

end TypeDeclaration

/-- **The pieces of programs that match, match.** They are made file by file and from the outside
in, and the key of an outer declaration is decided by its shape. -/
theorem Compilation.Matches.forall₂_pieces (hShape : ∀ a b, H a b → a.shape = b.shape)
    {c d : Compilation} (h : c.Matches H d) :
    List.Forall₂ (Piece.Matches H) (SymbolTable.ofCompilation c).pieces
      (SymbolTable.ofCompilation d).pieces := by
  refine List.rel_flatMap h fun f g hfg => ?_
  rw [hfg.1]
  exact hfg.2.forall₂_pieces hShape g.path none

/-! ## Tables of pieces that match -/

theorem Piece.Matches.key_eq {p q : Piece} (h : p.Matches H q) : p.key = q.key := by
  have hKey := congrArg Piece.key h.1
  exact hKey

theorem Piece.Matches.path_eq {p q : Piece} (h : p.Matches H q) : p.path = q.path := by
  have hPath := congrArg Piece.path h.1
  exact hPath

namespace Symbol

theorem Matches.shape_eq {s r : Symbol} (h : s.Matches H r) : s.shape = r.shape := by
  obtain ⟨first, rest⟩ := s
  obtain ⟨first', rest'⟩ := r
  cases h with
  | cons hFirst hRest =>
    simp only [shape, hFirst.1, map_eq_map_of_forall₂ hRest fun _ _ hpq => hpq.1]

/-- Types that match have one form. -/
theorem Matches.sameForm {s r : Symbol} (h : s.Matches H r) : s.SameForm r := by
  have hForm : s.SameForm r.shape := h.shape_eq ▸ s.sameForm_shape
  exact hForm.trans r.sameForm_shape.symm

end Symbol

namespace SymbolTable

variable {t u : SymbolTable}

/-- The types of one key in tables of pieces that match. -/
theorem rel_symbol? (h : List.Forall₂ (Piece.Matches H) t.pieces u.pieces)
    (key : String) : Option.Rel (Symbol.Matches H) (t.symbol? key) (u.symbol? key) := by
  have hPieces : List.Forall₂ (Piece.Matches H) (t.piecesOf key) (u.piecesOf key) :=
    forall₂_filter h fun p q hpq => by rw [hpq.key_eq]
  rw [symbol?, symbol?]
  generalize t.piecesOf key = ps at hPieces
  generalize u.piecesOf key = qs at hPieces
  cases hPieces with
  | nil => exact .none
  | cons hFirst hRest => exact .some (.cons hFirst hRest)

theorem forall₂_symbols (h : List.Forall₂ (Piece.Matches H) t.pieces u.pieces) :
    List.Forall₂ (Symbol.Matches H) t.symbols u.symbols := by
  have hKeys : t.keys = u.keys :=
    congrArg List.eraseDups (map_eq_map_of_forall₂ h fun _ _ hpq => hpq.key_eq)
  rw [symbols, symbols, ← hKeys]
  refine List.rel_filterMap (R := Eq) ?_ (List.forall₂_refl _)
  rintro key _ rfl
  exact rel_symbol? h key

/-- **Tables of pieces that match mirror each other.** Types of one key match, and they name the
same key around them, so what is nested corresponds too. -/
theorem mirrors_of_forall₂ (h : List.Forall₂ (Piece.Matches H) t.pieces u.pieces) :
    Mirrors (Symbol.Matches H) t u where
  nests := by
    intro s r hsr
    have hParent : s.first.parent = r.first.parent := by
      have hSame := congrArg (fun q : Symbol => q.first.parent) hsr.shape_eq
      exact hSame
    -- types that match are nested in the types of one key
    rw [enclosing?, enclosing?, hParent]
    cases r.first.parent with
    | none => exact .none
    | some key => exact rel_symbol? h key
  form := fun _ _ hsr => hsr.sameForm

end SymbolTable

/-! ## What a pass reads of annotations and of a configuration -/

/-- An annotation that has been read, without the name of its attribute, which nothing depends
on. -/
def ReadFinding.anonymous (r : ReadFinding) : ReadFinding :=
  { r with attributeName := "" }

/-- Whether two annotations ask for the same on the same member. They may differ in the name of the
attribute and in how it is written, as long as the constraint that is read of them is the same, with
the same outcome where it cannot be read. -/
structure Finding.SameSense [Arithmetic] (f g : Finding) : Prop where
  path : f.path = g.path
  member : f.member.name = g.member.name
  span : f.member.span = g.member.span
  constraint :
    f.applied.constraint? f.kind f.member.name = g.applied.constraint? g.kind g.member.name

theorem Finding.SameSense.read_anonymous_eq [Arithmetic] {f g : Finding} (h : f.SameSense g) :
    f.read.map ReadFinding.anonymous = g.read.map ReadFinding.anonymous := by
  -- all fields that are left come from the fields that agree
  unfold read
  rw [h.constraint, h.path, h.member, h.span]
  cases g.applied.constraint? g.kind g.member.name <;> rfl

namespace Extraction

/-- The annotations without the names of their attributes. -/
def anonymous (e : Extraction) : Extraction :=
  ⟨e.findings.map ReadFinding.anonymous⟩

theorem constraints_anonymous (e : Extraction) : e.anonymous.constraints = e.constraints := by
  unfold constraints anonymous
  rw [List.filterMap_map]
  rfl

theorem droppedWarnings_anonymous (arguments : MessageArguments) (e : Extraction) :
    CandidateResult.droppedWarnings arguments e.anonymous =
      CandidateResult.droppedWarnings arguments e := by
  unfold CandidateResult.droppedWarnings dropped anonymous
  rw [List.filter_map, List.map_map]
  rfl

/-- Annotations that ask for the same are read alike, or abort alike: the first one that aborts is
at the same place on both sides. -/
theorem map_anonymous_eq [Arithmetic] {known known' : KnownSymbols} {s r : Symbol}
    (h : List.Forall₂ Finding.SameSense (Finding.ofSymbol known s) (Finding.ofSymbol known' r)) :
    (ofSymbol known s).map anonymous = (ofSymbol known' r).map anonymous := by
  have hFindings : ∀ x : Except Abort (List ReadFinding),
      (x.map mk).map anonymous = (x.map (List.map ReadFinding.anonymous)).map mk := by
    intro x
    cases x <;> rfl
  rw [ofSymbol, ofSymbol, hFindings, hFindings, mapM_map_right, mapM_map_right]
  exact congrArg (Except.map mk) (mapM_eq_mapM_of_forall₂ h fun f g hfg => hfg.read_anonymous_eq)

end Extraction

/-- Whether two configurations agree on all but the names that are looked for. The capability counts
by its bare name, as it stands in the sources that are written. -/
structure Config.SameOutput (k l : Config) : Prop where
  capability : bareName k.symbols.capability = bareName l.symbols.capability
  reportDropped : k.reportDropped = l.reportDropped
  indent : k.indent = l.indent

namespace CandidateResult

theorem ofExtraction_anonymous (config : Config) (t : SymbolTable) (s : Symbol) (mode : Mode)
    (e : Extraction) :
    ofExtraction config t s mode e.anonymous = ofExtraction config t s mode e := by
  have hPlaced : e.anonymous.placed = e.placed := by
    unfold Extraction.placed Extraction.members
    rw [e.constraints_anonymous]
  simp only [ofExtraction, e.droppedWarnings_anonymous, e.constraints_anonymous, hPlaced]

theorem ofExtraction_eq_of_sameOutput {config config' : Config} (h : config.SameOutput config')
    (t : SymbolTable) (s : Symbol) (mode : Mode) :
    ofExtraction config t s mode = ofExtraction config' t s mode := by
  funext e
  simp only [ofExtraction, Plan.ofSymbol, h.capability, h.reportDropped, h.indent]

end CandidateResult

/-- Types that correspond in tables that mirror each other give the same, also under two
configurations, if their annotations ask for the same. -/
theorem SymbolTable.Mirrors.ofCandidate_eq_of_sameSense [Arithmetic] {S : Symbol → Symbol → Prop}
    {t u : SymbolTable} (h : Mirrors S t u) {s r : Symbol} (hsr : S s r) {config config' : Config}
    (hConfig : config.SameOutput config')
    (hFound : List.Forall₂ Finding.SameSense (Finding.ofSymbol config.symbols s)
      (Finding.ofSymbol config'.symbols r)) :
    CandidateResult.ofCandidate config t s = CandidateResult.ofCandidate config' u r := by
  rw [CandidateResult.ofCandidate, CandidateResult.ofCandidate, h.eligible_eq hsr]
  cases u.eligible r with
  | error diagnostic => rfl
  | ok mode =>
    -- annotations are compared without their names, which the result does not depend on
    have hAnonymous : CandidateResult.ofExtraction config' u r mode ∘ Extraction.anonymous =
        CandidateResult.ofExtraction config' u r mode :=
      funext (CandidateResult.ofExtraction_anonymous config' u r mode)
    show (Extraction.ofSymbol config.symbols s).map (CandidateResult.ofExtraction config t s mode) =
      (Extraction.ofSymbol config'.symbols r).map (CandidateResult.ofExtraction config' u r mode)
    rw [h.ofExtraction_eq hsr, CandidateResult.ofExtraction_eq_of_sameOutput hConfig, ← hAnonymous,
      ← except_map_map, ← except_map_map, Extraction.map_anonymous_eq hFound]

/-! ## Passes over programs that match -/

/-- The annotations on the members of a head. -/
def TypeHead.findings (known : KnownSymbols) (path : String) (a : TypeHead) : List Finding :=
  a.dataMembers.flatMap (Finding.ofMember known path)

/-- Whether related heads have one shape and ask for the same, of which the second ones are read
under a configuration of their own. These are the four things that a result about matching programs
has to show. -/
structure Config.Preserves [Arithmetic] (config config' : Config) (H : TypeHead → TypeHead → Prop) :
    Prop where
  sameOutput : config.SameOutput config'
  shape : ∀ a b, H a b → a.shape = b.shape
  asks : ∀ a b, H a b →
    a.asksForValidator config.symbols = b.asksForValidator config'.symbols
  findings : ∀ a b, H a b → ∀ path, List.Forall₂ Finding.SameSense
    (a.findings config.symbols path) (b.findings config'.symbols path)

namespace Config.Preserves

variable {config config' : Config} {s r : Symbol}

theorem isCandidate_eq [Arithmetic] (h : config.Preserves config' H) (hsr : s.Matches H r) :
    s.isCandidate config.symbols = r.isCandidate config'.symbols :=
  any_eq_any_of_forall₂ hsr fun p q hpq => h.asks p.head q.head hpq.2

theorem forall₂_findings [Arithmetic] (h : config.Preserves config' H) (hsr : s.Matches H r) :
    List.Forall₂ Finding.SameSense (Finding.ofSymbol config.symbols s)
      (Finding.ofSymbol config'.symbols r) := by
  refine List.rel_flatMap hsr fun p q hpq => ?_
  have hFindings := h.findings p.head q.head hpq.2 p.path
  rw [hpq.path_eq] at hFindings ⊢
  exact hFindings

end Config.Preserves

/-- **What is asked for and the shape decide the output**: programs that match give the same output,
each under its configuration, if related heads have one shape and ask for the same. The equation is
one of whole outcomes, so a pass that aborts for one of the programs aborts for the other. -/
theorem generate_eq_of_matches [Arithmetic] {config config' : Config}
    (h : config.Preserves config' H)
    {c d : Compilation} (hcd : c.Matches H d) : generate config c = generate config' d := by
  have hPieces := hcd.forall₂_pieces h.shape
  have hMirrors := SymbolTable.mirrors_of_forall₂ hPieces
  -- the candidates correspond one by one, each under its own configuration
  have hCandidates : List.Forall₂ (Symbol.Matches H)
      ((SymbolTable.ofCompilation c).candidates config.symbols)
      ((SymbolTable.ofCompilation d).candidates config'.symbols) :=
    forall₂_filter (SymbolTable.forall₂_symbols hPieces) fun _ _ hsr =>
      h.isCandidate_eq hsr
  rw [generate, generate]
  exact congrArg (Except.map PassOutput.ofResults) (mapM_eq_mapM_of_forall₂ hCandidates
    fun s r hsr => hMirrors.ofCandidate_eq_of_sameSense hsr h.sameOutput (h.forall₂_findings hsr))

end ValidatorGen
