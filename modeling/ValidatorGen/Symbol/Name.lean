/-!
# Resolved names

Full names of types as a host compiler prints them, with or without the alias of the global
namespace in front. The two spellings mean the same type, so names are only ever compared without
the alias. Apart from that they are compared letter by letter.
-/

namespace ValidatorGen

/-- The alias of the global namespace. -/
def globalAlias : List Char := "global::".toList

/-- The name without the alias of the global namespace; at most one alias is taken away. -/
def bareName (name : String) : String :=
  if globalAlias.isPrefixOf name.toList then
    String.ofList (name.toList.drop globalAlias.length)
  else name

/-- Whether two names are the same apart from the alias of the global namespace. -/
def sameSymbol (expected actual : String) : Bool :=
  bareName expected == bareName actual

end ValidatorGen
