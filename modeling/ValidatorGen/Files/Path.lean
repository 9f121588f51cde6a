import ValidatorGen.Text.Lines

/-!
# Paths

Paths are texts whose parts stand between slashes. Empty parts and parts that name the current
directory do not count, except at the front. Nothing is looked up: a path that leads up with two
points is not shortened, since what lies there may be a link.
-/

namespace ValidatorGen.Files

/-- The parts of a path that count. The root stands for itself. -/
inductive PathPart where
  | root
  | current
  | parent
  | name (name : String)
  deriving Repr, DecidableEq

namespace Path

/-- The texts between the slashes of a path. -/
def split (path : String) : List (List Char) :=
  Text.splitOn '/' path.toList

def isAbsolute (path : String) : Bool :=
  path.toList.head? = some '/'

/-- The part that a text between slashes is, unless it does not count. -/
def part? (text : List Char) : Option PathPart :=
  match text with
  | [] | ['.'] => none
  | ['.', '.'] => some .parent
  | name => some (.name (String.ofList name))

/-- The parts of a path. -/
def parts (path : String) : List PathPart :=
  let texts := split path
  -- Only in front does a point count, and a slash there makes the path absolute.
  let front : List PathPart :=
    if isAbsolute path then [.root]
    else if texts.head? = some ['.'] then [.current]
    else []
  front ++ texts.filterMap part?

/-- A path inside another; an absolute one stands for itself. -/
def join (base name : String) : String :=
  if isAbsolute name ∨ base.isEmpty then name
  else if base.toList.getLast? = some '/' then base ++ name
  else base ++ "/" ++ name

/-- Whether the last parts of a path are the parts of another. Parts are compared whole, so
`Box.g.cs` does not end in `x.g.cs`. -/
def endsWith (path suffix : String) : Bool :=
  (parts suffix).isSuffixOf (parts path)

/-- The path without its last part and what follows the part before. The root and the empty path
have none. -/
def parent? (path : String) : Option String :=
  match (parts path).getLast? with
  | none | some .root => none
  | some _ => some (ofParts (parts path).dropLast)
where
  ofParts (ps : List PathPart) : String :=
    ps.foldl (fun path p => join path (text p)) ""
  text : PathPart → String
    | .root => "/"
    | .current => "."
    | .parent => ".."
    | .name name => name

end Path

end ValidatorGen.Files
