import ValidatorGen.Files.Pattern
import ValidatorGen.Files.Volume

/-!
# Files that match a pattern

A pattern of a path is matched part by part, from the working directory or from the root downwards.
A part without wildcards is looked up by its name; another is compared with the names in the
directory, in their order. A directory that two stars match comes before what it holds.

The order of the paths is part of the behaviour: snapshots are merged in it, so it decides the
order of the emitted sources and which of several errors is met first.
-/

namespace ValidatorGen.Files

/-- Why the files that match a pattern cannot be given. -/
inductive GlobError where
  | pattern (error : PatternError)
  | unreadable (path : String) (error : FileError)
  deriving Repr, DecidableEq

def GlobError.message : GlobError → String
  | .pattern error => error.message
  | .unreadable path error =>
    "attempting to read `" ++ path ++ "` resulted in an error: " ++ error.message

namespace Glob

/-- A path that has been found. -/
structure Found where
  path : String
  isDirectory : Bool

/-- Whether a path stands for the working directory itself. -/
def isCurrent (path : String) : Bool :=
  Path.parts path = [.current]

/-- A name inside a directory; the working directory is not spelled out. -/
def inside (directory name : String) : String :=
  if isCurrent directory then name else Path.join directory name

/-- The pattern without two-star parts at its front. -/
def dropRecursive (patterns : List Pattern) : List Pattern :=
  patterns.dropWhile Pattern.isRecursive

section

variable {m : Type → Type} [Monad m] [Volume m]

/-- A found path, with whether it is a directory. -/
def look (path : String) : m Found := do
  return ⟨path, ← Volume.isDirectory path⟩

/-- Joins the results of several searches, up to the first that fails. -/
def gather {α : Type} (search : α → m (Except GlobError (List String))) :
    List α → m (Except GlobError (List String))
  | [] => return .ok []
  | a :: rest => do
    match ← search a with
    | .error e => return .error e
    | .ok found => return (← gather search rest).map (found ++ ·)

/-- The found path itself, as a last match. -/
def accept (directoryOnly : Bool) (found : Found) : List String :=
  if directoryOnly && !found.isDirectory then [] else [found.path]

/-- The paths below a directory that match the parts of a pattern. Each round either goes past a
part of the pattern or one level down, and `levels` is at least the number of both. -/
def search (directoryOnly : Bool) (levels : Nat) (patterns : List Pattern) (directory : Found) :
    m (Except GlobError (List String)) :=
  match levels, patterns with
  | 0, _ | _, [] => return .ok []
  | levels + 1, pattern :: rest =>
    let continueAt (found : Found) : m (Except GlobError (List String)) :=
      if rest.isEmpty then return .ok (accept directoryOnly found)
      else search directoryOnly levels rest found
    let special (name : String) : m (Except GlobError (List String)) := do
      continueAt (← look (Path.join directory.path name))
    -- Two stars stand for no directory, so the part after them is tried on the name itself, and
    -- for one more, so the search also goes on inside with the stars kept.
    let visit (name : String) : m (Except GlobError (List String)) := do
      let found ← look (inside directory.path name)
      let after := if pattern.isRecursive then dropRecursive rest else pattern :: rest
      let here ← match after with
        | [] => pure (.ok (if found.isDirectory then [found.path] else []))
        | head :: tail =>
          if head.admits name.toList then
            if tail.isEmpty then pure (.ok (accept directoryOnly found))
            else search directoryOnly levels tail found
          else pure (.ok [])
      match here with
      | .error e => return .error e
      | .ok here =>
        if pattern.isRecursive && found.isDirectory then
          return (← search directoryOnly levels (pattern :: after) found).map (here ++ ·)
        else return .ok here
    match pattern.literal? with
    | some name => do
      let path := inside directory.path name
      let there ←
        if name = "." ∨ name = ".." then pure directory.isDirectory
        else pure (← Volume.kind? path).isSome
      if there then continueAt (← look path) else return .ok []
    | none => do
      if !directory.isDirectory then return .ok []
      match ← Volume.sortedNames directory.path with
      | .error e => return .error (.unreadable directory.path e)
      | .ok names =>
        -- A directory does not list itself and the one above; they match a written point only.
        let dots :=
          if pattern.head? = some (.character '.') then
            ["..", "."].filter fun name => pattern.admits name.toList
          else []
        match ← gather special dots with
        | .error e => return .error e
        | .ok found => return (← gather visit names).map (found ++ ·)

/-- The parts of a pattern after its root; a slash at the end makes no part. -/
def patternParts (pattern : String) : List (List Char) :=
  let texts := Path.split pattern
  let texts := if texts.getLast? = some [] then texts.dropLast else texts
  if Path.isAbsolute pattern then texts.drop 1 else texts

/-- No path that can be opened has more levels, so the search never ends for want of them. -/
def maxLevels : Nat := 4096

/-- The paths that match a pattern, in order. The pattern is read as a whole before its parts
are. -/
def paths (pattern : String) : m (Except GlobError (List String)) := do
  match Pattern.parse pattern.toList, (patternParts pattern).mapM Pattern.parse with
  | .error e, _ | .ok _, .error e => return .error (.pattern e)
  | .ok _, .ok parts =>
    let directoryOnly := pattern.toList.getLast? = some '/'
    let top ← look (if Path.isAbsolute pattern then "/" else ".")
    search directoryOnly (parts.length + maxLevels) parts top

end

end Glob

end ValidatorGen.Files
