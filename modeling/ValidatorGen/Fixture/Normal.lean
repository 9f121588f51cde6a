import ValidatorGen.Text.Blank

/-!
# Normal form of sources

Sources are compared without regard to the kind of their line ends, to blanks before line ends, and
to what is blank at their end.

The normal form is reached in three passes, each over the result of the one before: `unixEnds`,
`dropGaps` and `Text.trimEnd`. A pass does not look at what a later one makes, so a carriage return
that a pass brings in front of a line feed stays there. Whether a second normalization changes
anything is settled in the theory, by exactly these texts.
-/

namespace ValidatorGen.Fixture

/-- The text with every carriage return left out that stands before a line feed. -/
def unixEnds : List Char → List Char
  | '\r' :: '\n' :: rest => '\n' :: unixEnds rest
  | c :: rest => c :: unixEnds rest
  | [] => []

/-- Blanks that are taken away before a line end. -/
def isGap (c : Char) : Bool :=
  c = ' ' || c = '\t'

/-- The text with a line feed in place of every run of blanks and the line end after it; the end of
the text is such a line end too. `gap` holds the blanks that have just been passed, last one
first. -/
def dropGaps (gap : List Char) : List Char → List Char
  | [] => if gap = [] then [] else ['\n']
  | c :: rest =>
    if isGap c then dropGaps (c :: gap) rest
    else if gap ≠ [] ∧ c = '\n' then '\n' :: dropGaps [] rest
    else
      -- A gap is also closed before a carriage return and a line feed, and both become one line
      -- feed. Without a gap the return stays, and the line feed is looked at on its own.
      match c, rest with
      | '\r', '\n' :: after =>
        if gap = [] then '\r' :: dropGaps [] ('\n' :: after) else '\n' :: dropGaps [] after
      | c, rest => gap.reverse ++ c :: dropGaps [] rest

/-- The normal form of a source. -/
def normalize (source : String) : String :=
  String.ofList (Text.trimEnd (dropGaps [] (unixEnds source.toList)))

end ValidatorGen.Fixture
