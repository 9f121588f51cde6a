import ValidatorGen.Json.Fault

/-!
# Places in a JSON text

A cursor is what is left of a text together with the position reached. Positions count bytes, so
a step over a character moves the column by as many bytes as the character takes. The messages of
faults quote positions, hence the care: a fault at a character names the byte after its first one,
a fault at the end of the text the position reached.
-/

namespace ValidatorGen.Json

/-- The position one byte further, the byte being the first of a character. -/
def Position.intoChar (p : Position) (c : Char) : Position :=
  if c = '\n' then ⟨p.line + 1, 0⟩ else ⟨p.line, p.column + 1⟩

/-- The position after a character. -/
def Position.overChar (p : Position) (c : Char) : Position :=
  if c = '\n' then ⟨p.line + 1, 0⟩ else ⟨p.line, p.column + c.utf8Size⟩

/-- What is left of a text, and the position it starts at. -/
structure Cursor where
  rest : List Char
  position : Position

/-- White space between the tokens of JSON. -/
def isSpace (c : Char) : Bool :=
  c = ' ' || c = '\n' || c = '\t' || c = '\r'

namespace Cursor

/-- The start of a text. -/
def start (text : String) : Cursor :=
  ⟨text.toList, ⟨1, 0⟩⟩

/-- The position that names the next character: one byte into it, or the end of the text. -/
def ahead (c : Cursor) : Position :=
  match c.rest with
  | [] => c.position
  | x :: _ => c.position.intoChar x

/-- The cursor after some characters, which are the first ones of the rest. The caller gives the
rest as well, since it has split the text already. -/
def past (c : Cursor) (taken : List Char) (rest : List Char) : Cursor :=
  ⟨rest, taken.foldl Position.overChar c.position⟩

/-- The characters up to the first that does not satisfy `p`, and the cursor after them. -/
def takeWhile (p : Char → Bool) (c : Cursor) : List Char × Cursor :=
  let (taken, rest) := c.rest.span p
  (taken, c.past taken rest)

/-- The cursor after white space. -/
def skipSpace (c : Cursor) : Cursor :=
  (c.takeWhile isSpace).2

/-- The cursor after the next character, if that is the one given. -/
def accept? (expected : Char) (c : Cursor) : Option Cursor :=
  match c.rest with
  | [] => none
  | x :: rest => if x = expected then some ⟨rest, c.position.overChar x⟩ else none

/-- Only white space is left. -/
def isBlank (c : Cursor) : Bool :=
  c.rest.all isSpace

/-- The text breaks here: one cause if it has ended, another if something else follows. Nearly
every fault of JSON comes in such a pair. -/
def breach (c : Cursor) (atEnd otherwise : SyntaxCause) : Breach :=
  ⟨if c.rest.isEmpty then atEnd else otherwise, c.ahead⟩

end Cursor

end ValidatorGen.Json
