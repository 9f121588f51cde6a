import ValidatorGen.Symbol.Table

/-!
# Accessibility

How far a type or a member can be seen, from its modifiers or from where it is declared. The pieces
of a type need not all say it, and should not contradict each other; the first one that does say it
is believed. If none does, a type that is not nested is internal, and a nested one is private unless
it is nested in an interface, where everything is public.
-/

namespace ValidatorGen

inductive Accessibility where
  | publicAccess
  | internalAccess
  | protectedAccess
  | protectedInternal
  | privateProtected
  | privateAccess
  deriving Repr, DecidableEq

namespace Accessibility

/-- The accessibility that modifiers spell out. The widest reading wins, so modifiers that exclude
each other are not an error here. Two pairs of modifiers have a meaning of their own. -/
def ofModifiers? (modifiers : List String) : Option Accessibility :=
  let has := modifiers.contains
  if has "public" then some .publicAccess
  else if has "internal" && has "protected" then some .protectedInternal
  else if has "protected" && has "private" then some .privateProtected
  else if has "internal" then some .internalAccess
  else if has "protected" then some .protectedAccess
  else if has "private" then some .privateAccess
  else none

end Accessibility

namespace SymbolTable

/-- The accessibility of a type for which no piece spells one out. -/
def defaultAccessibility (t : SymbolTable) (s : Symbol) : Accessibility :=
  match t.enclosing? s with
  | none => .internalAccess
  | some outer => if outer.kind = .interfaceType then .publicAccess else .privateAccess

/-- The accessibility of a type: from the first piece that spells one out. -/
def accessibility (t : SymbolTable) (s : Symbol) : Accessibility :=
  (s.pieces.findSome? fun p => Accessibility.ofModifiers? p.head.modifiers).getD
    (t.defaultAccessibility s)

def isPublic (t : SymbolTable) (s : Symbol) : Bool :=
  t.accessibility s = .publicAccess

end SymbolTable

end ValidatorGen
