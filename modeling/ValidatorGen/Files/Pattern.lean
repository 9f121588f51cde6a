/-!
# Patterns of file names

A pattern stands for names: `?` for any character, `*` for any characters, brackets for one of
some characters or, after an exclamation mark, for one of all others. Two stars that are a whole
part of a path stand for any number of directories.

A pattern is read twice: as a whole, which finds the faults with their positions, and part by part,
which is what names are compared with.

* `Pattern.parse` — the pattern that a text is, or where and why it is none;
* `Pattern.admits` — whether a name is one the pattern stands for.
-/

namespace ValidatorGen.Files

/-- Characters inside brackets. -/
inductive CharRange where
  | single (c : Char)
  | between (first last : Char)
  deriving Repr, DecidableEq

namespace CharRange

def contains (r : CharRange) (c : Char) : Bool :=
  match r with
  | .single x => c = x
  | .between first last => first ≤ c && c ≤ last

/-- The ranges that the text inside brackets lists. -/
def parse : List Char → List CharRange
  | first :: '-' :: last :: rest => .between first last :: parse rest
  | c :: rest => .single c :: parse rest
  | [] => []

end CharRange

/-- What a pattern is made of. -/
inductive PatternToken where
  | character (c : Char)
  | anyCharacter
  | anyText
  /-- Any number of directories. -/
  | anyDirectories
  | oneOf (ranges : List CharRange)
  | noneOf (ranges : List CharRange)
  deriving Repr, DecidableEq

/-- What is wrong with a pattern. -/
inductive PatternFault where
  | tooManyStars
  | starsInsidePart
  | badRange
  deriving Repr, DecidableEq

def PatternFault.message : PatternFault → String
  | .tooManyStars => "wildcards are either regular `*` or recursive `**`"
  | .starsInsidePart => "recursive wildcards must form a single path component"
  | .badRange => "invalid range pattern"

/-- Why a text is no pattern, and at which of its characters. -/
structure PatternError where
  position : Nat
  fault : PatternFault
  deriving Repr, DecidableEq

def PatternError.message (e : PatternError) : String :=
  "Pattern syntax error near position " ++ e.position.repr ++ ": " ++ e.fault.message

abbrev Pattern := List PatternToken

namespace Pattern

/-- The text inside brackets, of at least one character, and what follows the closing bracket. The
first character is never the closing one, which is how a bracket itself is listed. -/
def brackets? : List Char → Option (List Char × List Char)
  | [] => none
  | first :: rest =>
    match rest.span (· ≠ ']') with
    | (_, []) => none
    | (inside, _ :: rest) => some (first :: inside, rest)

/-- The token that stands after an opening bracket. -/
def class? : List Char → Option (PatternToken × List Char)
  | '!' :: rest =>
    (brackets? rest).map fun (inside, rest) => (.noneOf (CharRange.parse inside), rest)
  | rest => (brackets? rest).map fun (inside, rest) => (.oneOf (CharRange.parse inside), rest)

/-- A run of stars, given what stands before it and what follows. Two stars have to be a whole part
of a path; the slash after them is theirs. -/
def stars (start count : Nat) (before : Option Char) (rest : List Char) :
    Except PatternError (PatternToken × List Char) :=
  if count = 1 then .ok (.anyText, rest)
  else if count > 2 then .error ⟨start + 2, .tooManyStars⟩
  else if before ≠ none ∧ before ≠ some '/' then .error ⟨start - 1, .starsInsidePart⟩
  else match rest with
    | [] => .ok (.anyDirectories, [])
    | '/' :: rest => .ok (.anyDirectories, rest)
    | _ :: _ => .error ⟨start + 2, .starsInsidePart⟩

/-- The tokens of what is left of a pattern, which starts at a position after a character. Each
round takes at least one character, so a `bound` as long as the rest is enough. -/
def tokens (bound : List Char) (position : Nat) (before : Option Char) (cs : List Char) :
    Except PatternError (List PatternToken) :=
  match bound, cs with
  | [], _ | _, [] => .ok []
  | _ :: bound, c :: rest => do
    let (token, after) ←
      match c with
      | '?' => pure (.anyCharacter, rest)
      | '*' =>
        let (more, after) := rest.span (· = '*')
        stars position (more.length + 1) before after
      | '[' =>
        match class? rest with
        | some found => pure found
        | none => throw ⟨position, .badRange⟩
      | c => pure (.character c, rest)
    -- A token may be longer than one character; the last of its characters stands before the next
    -- one.
    let taken := cs.length - after.length
    let tokens ← tokens bound (position + taken) (cs[taken - 1]?) after
    return token :: tokens

/-- The pattern that a text is. -/
def parse (text : List Char) : Except PatternError Pattern :=
  tokens text 0 none text

/-- The only name a pattern stands for, if it has no wildcards. -/
def literal? (p : Pattern) : Option String :=
  (p.mapM character?).map String.ofList
where
  character? : PatternToken → Option Char
    | .character c => some c
    | _ => none

/-- Whether some rest of a text, itself included, has a property. -/
def anySuffix (holds : List Char → Bool) : List Char → Bool
  | [] => holds []
  | c :: rest => holds (c :: rest) || anySuffix holds rest

/-- Whether a text starts with a character that has a property and goes on with a text that has
another. -/
def oneThen (holds : Char → Bool) (rest : List Char → Bool) : List Char → Bool
  | [] => false
  | c :: cs => holds c && rest cs

/-- Whether a name, which has no slashes, is one the pattern stands for. The recursion is on the
pattern; a star tries the rest of the pattern on every rest of the name. -/
def admits : Pattern → List Char → Bool
  | [], cs => cs.isEmpty
  | token :: rest, cs =>
    match token with
    | .character c => oneThen (· = c) (admits rest) cs
    | .anyCharacter => oneThen (fun _ => true) (admits rest) cs
    | .anyText | .anyDirectories => anySuffix (admits rest) cs
    | .oneOf ranges => oneThen (fun c => ranges.any (·.contains c)) (admits rest) cs
    | .noneOf ranges => oneThen (fun c => !ranges.any (·.contains c)) (admits rest) cs

/-- Whether the pattern stands for any number of directories. -/
def isRecursive (p : Pattern) : Bool :=
  p.contains .anyDirectories

end Pattern

end ValidatorGen.Files
