import ValidatorGen.Config
import ValidatorGen.Symbol.Name
import ValidatorGen.Symbol.Table

/-!
# Candidates

A type asks for a validator when one of its pieces has the marker attribute, or lists the
capability interface among its bases. Any piece will do, and it does not matter whether the type can
be given a validator: a candidate that cannot is reported.

Only bases that are written down count. A type that inherits the interface from another type, or
gets it by way of another interface, is no candidate.
-/

namespace ValidatorGen

/-- Whether a piece has the marker or lists the capability. -/
def TypeHead.asksForValidator (known : KnownSymbols) (t : TypeHead) : Bool :=
  t.attributes.any (fun a => sameSymbol known.marker a.name) ||
    t.baseList.any (sameSymbol known.capability)

/-- Whether some piece asks for a validator. -/
def Symbol.isCandidate (known : KnownSymbols) (s : Symbol) : Bool :=
  s.pieces.any fun p => p.head.asksForValidator known

/-- The types that ask for a validator, in the order of their first pieces. -/
def SymbolTable.candidates (t : SymbolTable) (known : KnownSymbols) : List Symbol :=
  t.symbols.filter (·.isCandidate known)

end ValidatorGen
