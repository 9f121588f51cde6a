import ValidatorGen.Files.Volume

/-!
# Files in memory

A tree of files that is a value. A place in it is the list of names that leads to it from the top,
which is the working directory; there is nothing outside the tree.

What uses files is written over any `Volume`. With a tree in its place the same functions can be
run and reasoned about without an operating system: reading a file is then a lookup
(`run_readText`), and what follows it starts from the same tree (`run_bind_of_run`).
-/

namespace ValidatorGen.Files

/-- What stands at a place. -/
inductive Entry where
  | directory
  | file (content : ByteArray)

/-- A place in a tree. -/
abbrev Place := List String

/-- A tree of files, as the list of its places other than the top. -/
structure Tree where
  entries : List (Place × Entry)

namespace Tree

def empty : Tree := ⟨[]⟩

/-- What stands at a place. The top is a directory. -/
def entry? (t : Tree) (place : Place) : Option Entry :=
  if place = [] then some .directory else t.entries.lookup place

/-- Puts an entry at a place. -/
def put (t : Tree) (place : Place) (entry : Entry) : Tree :=
  ⟨(place, entry) :: t.entries.filter (·.1 ≠ place)⟩

/-- The names in the directory at a place. -/
def namesAt (t : Tree) (place : Place) : List String :=
  t.entries.filterMap fun (p, _) =>
    if p.dropLast = place then p.getLast? else none

/-- The longest name, in bytes. -/
def maxName : Nat := 255

/-- One step from a place, which has to be a directory. -/
def step (t : Tree) (place : Place) (part : String) : Except FileError Place :=
  match t.entry? place with
  | none => .error .notFound
  | some (.file _) => .error .notDirectory
  | some .directory =>
    if part = "." then .ok place
    else if part = ".." then (if place = [] then .error .notFound else .ok place.dropLast)
    else if part.utf8ByteSize > maxName then .error .nameTooLong
    else .ok (place ++ [part])

/-- The place a path leads to. All but the last part have to be there; a slash at the end asks for
a directory. -/
def find (t : Tree) (path : String) : Except FileError Place :=
  let texts := Path.split path
  let named := (texts.filter (· ≠ [])).map String.ofList
  let tail := if texts.getLast? = some [] then ["."] else []
  if path.isEmpty then .error .notFound
  else if path.toList.contains '\x00' then .error .zeroInName
  else if Path.isAbsolute path ∧ named ≠ [] then .error .notFound
  else (named ++ tail).foldlM t.step []

/-- The entry a path leads to. -/
def get (t : Tree) (path : String) : Except FileError Entry := do
  match t.entry? (← t.find path) with
  | some entry => .ok entry
  | none => .error .notFound

/-- The content of the file at a path. -/
def readBytes (t : Tree) (path : String) : Except FileError ByteArray := do
  match ← t.get path with
  | .directory => .error .isDirectory
  | .file content => .ok content

/-- The tree with the text of a file set; the file is made if its directory is there. -/
def writeText (t : Tree) (path content : String) : Except FileError Tree := do
  let place ← t.find path
  match t.entry? place with
  | some .directory => .error .isDirectory
  | _ => .ok (t.put place (.file content.toUTF8))

/-- The path without the slashes at its end. -/
def trimSlashes (path : String) : String :=
  String.ofList ((path.toList.reverse.dropWhile (· = '/')).reverse)

/-- The tree with one more directory. Slashes at the end of the path do not count. -/
def makeDirectory (t : Tree) (path : String) : Except FileError Tree := do
  let place ← t.find (if trimSlashes path = "" then path else trimSlashes path)
  match t.entry? place with
  | some _ => .error .alreadyThere
  | none => .ok (t.put place .directory)

def kind? (t : Tree) (path : String) : Option FileKind :=
  match t.get path with
  | .error _ => none
  | .ok .directory => some .directory
  | .ok (.file _) => some .file

def names (t : Tree) (path : String) : Except FileError (List String) := do
  let place ← t.find path
  match t.entry? place with
  | none => .error .notFound
  | some (.file _) => .error .notDirectory
  | some .directory => .ok (t.namesAt place)

/-- The files with their paths. -/
def files (t : Tree) : List (String × ByteArray) :=
  t.entries.filterMap fun
    | (place, .file content) => some ("/".intercalate place, content)
    | (_, .directory) => none

/-- Puts a file at a place and directories above it. -/
def addFile (t : Tree) (place : Place) (content : ByteArray) : Tree :=
  let above := (List.range' 1 (place.length - 1)).map place.take
  (above.foldl (fun t p => t.put p .directory) t).put place (.file content)

end Tree

/-- An operation that changes a tree, or fails and leaves it as it is. -/
def change (operation : Tree → Except FileError Tree) : StateM Tree (Except FileError Unit) :=
  fun t =>
    match operation t with
    | .ok t => (.ok (), t)
    | .error e => (.error e, t)

/-- A tree as a file system. -/
instance : Volume (StateM Tree) where
  readBytes path := fun t => (t.readBytes path, t)
  writeText path content := change (·.writeText path content)
  makeDirectory path := change (·.makeDirectory path)
  kind? path := fun t => (t.kind? path, t)
  names path := fun t => (t.names path, t)

/-- The text of a file, which has to be well-formed UTF-8. -/
def Tree.readText (t : Tree) (path : String) : Except FileError String := do
  match String.fromUTF8? (← t.readBytes path) with
  | none => .error .notText
  | some text => .ok text

/-- What follows an operation starts with what that operation gave and left. -/
theorem run_bind_of_run {α β : Type} {x : StateM Tree α} {f : α → StateM Tree β} {t t' : Tree}
    {a : α} (h : x.run t = (a, t')) : (x >>= f).run t = (f a).run t' := by
  rw [StateT.run_bind, h]
  rfl

/-- Reading a text leaves the tree as it is. -/
theorem run_readText (t : Tree) (path : String) :
    (Volume.readText path : StateM Tree _).run t = (t.readText path, t) := by
  have hRead : (Volume.readBytes path : StateM Tree _).run t = (t.readBytes path, t) := rfl
  rw [Volume.readText, StateT.run_bind, hRead, Tree.readText]
  cases t.readBytes path with
  | error e => rfl
  | ok bytes =>
    simp only [StateT.run, bind, Except.bind]
    cases String.fromUTF8? bytes <;> rfl

theorem Tree.readText_of_readBytes {t : Tree} {path text : String}
    (h : t.readBytes path = .ok text.toUTF8) : t.readText path = .ok text := by
  have hDecoded : String.fromUTF8? text.toUTF8 = some text := dif_pos text.isValidUTF8
  rw [readText, h]
  show (match String.fromUTF8? text.toUTF8 with
    | none => (.error .notText : Except FileError String)
    | some text => .ok text) = _
  rw [hDecoded]

end ValidatorGen.Files
