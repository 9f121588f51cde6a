import ValidatorGen.Files.Path

/-!
# Files

What a program needs of a file system, and why an operation on it can fail. Two instances are in
use: the files of the operating system, in the program, and trees of files in memory, in the
theory. Everything above the five operations of the class is defined once, here and in the modules
that load, write and compare.
-/

namespace ValidatorGen

/-- Why an operation on files fails. -/
inductive FileError where
  | notFound
  | alreadyThere
  | notDirectory
  | isDirectory
  | nameTooLong
  | zeroInName
  | notText
  | other (message : String)
  deriving Repr, DecidableEq

def FileError.message : FileError → String
  | .notFound => "No such file or directory (os error 2)"
  | .alreadyThere => "File exists (os error 17)"
  | .notDirectory => "Not a directory (os error 20)"
  | .isDirectory => "Is a directory (os error 21)"
  | .nameTooLong => "File name too long (os error 36)"
  | .zeroInName => "file name contained an unexpected NUL byte"
  | .notText => "stream did not contain valid UTF-8"
  | .other message => message

inductive FileKind where
  | file
  | directory
  deriving Repr, DecidableEq

/-- A file system that is used from `m`. Paths are relative to a working directory. -/
class Volume (m : Type → Type) where
  readBytes : String → m (Except FileError ByteArray)
  /-- Sets the content of a file, which is made if it is not there. -/
  writeText : String → String → m (Except FileError Unit)
  makeDirectory : String → m (Except FileError Unit)
  /-- What is found at a path, if anything is. -/
  kind? : String → m (Option FileKind)
  /-- The names in a directory. -/
  names : String → m (Except FileError (List String))

namespace Volume

variable {m : Type → Type} [Monad m] [Volume m]

/-- The text of a file. -/
def readText (path : String) : m (Except FileError String) := do
  match ← readBytes path with
  | .error e => return .error e
  | .ok bytes =>
    match String.fromUTF8? bytes with
    | none => return .error .notText
    | some text => return .ok text

def isFile (path : String) : m Bool := do
  return (← kind? path) = some .file

def isDirectory (path : String) : m Bool := do
  return (← kind? path) = some .directory

/-- Names in the order of their characters. -/
def sortedNames (path : String) : m (Except FileError (List String)) := do
  return (← names path).map fun ns => ns.mergeSort (· ≤ ·)

/-- Makes a directory, which may be there already. -/
def makeOne (path : String) : m (Except FileError Unit) := do
  match ← makeDirectory path with
  | .ok () => return .ok ()
  | .error e => return if ← isDirectory path then .ok () else .error e

/-- Makes a directory and the ones around it, as far as they are not there. The path has no more
levels than characters. -/
def makeDirectories (path : String) : m (Except FileError Unit) :=
  go path.length path
where
  go (levels : Nat) (path : String) : m (Except FileError Unit) := do
    if path.isEmpty then return .ok ()
    match ← makeDirectory path with
    | .ok () => return .ok ()
    | .error .notFound =>
      -- The one above is missing: it is made first, and then this one once more.
      match levels, Files.Path.parent? path with
      | levels + 1, some parent =>
        match ← go levels parent with
        | .error e => return .error e
        | .ok () => makeOne path
      | _, _ => return .error (.other "failed to create whole tree")
    | .error e => return if ← isDirectory path then .ok () else .error e

end Volume

end ValidatorGen
