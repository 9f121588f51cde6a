import ValidatorGen.Json.Token
import ValidatorGen.Text.Blank

/-!
# The words of filters

Operators are as long as possible, so a minus directly after another operator is a part of it.
Which operators there are is not decided here; the parser takes an unknown one for a fault.
-/

namespace ValidatorGen.Filter

/-- A word of a filter. -/
inductive Token where
  | word (name : String)
  | variable (name : String)
  /-- A dot with a name right after it. -/
  | field (name : String)
  | number (text : List Char)
  | string (value : String)
  /-- Operators, brackets and marks. -/
  | symbol (text : String)
  deriving Repr, DecidableEq

/-- Why a text is not a filter. -/
inductive SyntaxFault where
  | badCharacter (c : Char)
  | badNumber
  | badString
  | unexpected (token : Token)
  | unexpectedEnd
  | undefined (name : String)

namespace Token

def describe : Token → String
  | .word name => name
  | .variable name => "$" ++ name
  | .field name => "." ++ name
  | .number text => String.ofList text
  | .string value => Json.stringText value
  | .symbol text => text

end Token

def SyntaxFault.message : SyntaxFault → String
  | .badCharacter c => "unexpected character " ++ c.toString
  | .badNumber => "expected digit"
  | .badString => "malformed string"
  | .unexpected token => "unexpected " ++ token.describe
  | .unexpectedEnd => "unexpected end of input"
  | .undefined name => "undefined " ++ name

namespace Token

/-- Characters that a name can start with. -/
def startsName (c : Char) : Bool :=
  c.isAlpha || c = '_'

def continuesName (c : Char) : Bool :=
  c.isAlphanum || c = '_'

def isOperator (c : Char) : Bool :=
  "|=!<>+-*/%".contains c

/-- Characters that are words of their own. -/
def isMark (c : Char) : Bool :=
  ":;,?()[]\x7b\x7d".contains c

/-- A name, and what is left after it. -/
def readName (text : List Char) : String × List Char :=
  let (name, rest) := text.span continuesName
  (String.ofList name, rest)

/-- At least one digit, and what is left after them. -/
def readDigits (text : List Char) : Except SyntaxFault (List Char × List Char) :=
  match text.span Char.isDigit with
  | ([], _) => .error .badNumber
  | found => .ok found

/-- A number without sign. -/
def readNumber (text : List Char) : Except SyntaxFault (List Char × List Char) := do
  let (whole, rest) ← readDigits text
  let (fraction, rest) ← match rest with
    | '.' :: rest => do
      let (digits, rest) ← readDigits rest
      pure ('.' :: digits, rest)
    | rest => pure ([], rest)
  let (exponent, rest) ← match rest with
    | mark :: rest =>
      if mark = 'e' ∨ mark = 'E' then do
        let (sign, rest) := match rest with
          | '+' :: rest => (['+'], rest)
          | '-' :: rest => (['-'], rest)
          | rest => ([], rest)
        let (digits, rest) ← readDigits rest
        pure (mark :: sign ++ digits, rest)
      else pure ([], mark :: rest)
    | [] => pure ([], [])
  return (whole ++ fraction ++ exponent, rest)

/-- A character by four digits. -/
def readCodePoint (text : List Char) : Except SyntaxFault (Char × List Char) :=
  match Json.hexValue? (text.take 4) with
  | none => .error .badString
  | some n =>
    if 4 ≤ text.length ∧ n.isValidChar then .ok (Char.ofNat n, text.drop 4)
    else .error .badString

/-- What is left of a string, up to its closing quote. Each round takes at least one character, so
a `bound` as long as the rest is enough. -/
def readString (bound : List Char) (done : List Char) (text : List Char) :
    Except SyntaxFault (String × List Char) :=
  match bound, text with
  | _ :: _, '"' :: rest => .ok (String.ofList done.reverse, rest)
  | _ :: bound, '\\' :: 'u' :: rest => do
    let (c, rest) ← readCodePoint rest
    readString bound (c :: done) rest
  | _ :: bound, '\\' :: c :: rest =>
    match Json.shortEscape? c with
    | some meant => readString bound (meant :: done) rest
    | none => .error .badString
  | _ :: bound, c :: rest => readString bound (c :: done) rest
  | _, _ => .error .badString

/-- What follows the blanks and comments in front. -/
def skipSpace : List Char → List Char
  | [] => []
  | c :: rest =>
    if Text.isBlank c then skipSpace rest
    else if c = '#' then skipComment rest
    else c :: rest
where
  /-- Within a comment, which ends with the line. -/
  skipComment : List Char → List Char
    | [] => []
    | c :: rest => if c = '\n' then skipSpace rest else skipComment rest

/-- One word, which the text starts with, and what is left after it. -/
def read (c : Char) (rest : List Char) : Except SyntaxFault (Token × List Char) :=
  if startsName c then
    let (name, rest) := readName (c :: rest)
    .ok (.word name, rest)
  else if c.isDigit then do
    let (text, rest) ← readNumber (c :: rest)
    return (.number text, rest)
  else if c = '"' then do
    let (value, rest) ← readString rest [] rest
    return (.string value, rest)
  else if c = '$' then
    let (name, rest) := readName rest
    .ok (.variable name, rest)
  else if isOperator c then
    let (text, rest) := (c :: rest).span isOperator
    .ok (.symbol (String.ofList text), rest)
  else if isMark c then .ok (.symbol c.toString, rest)
  -- A point is recursion, a lookup by name, or stands alone before a string or a bracket.
  else if c = '.' then
    match rest with
    | '.' :: rest => .ok (.symbol "..", rest)
    | next :: _ =>
      if startsName next then
        let (name, rest) := readName rest
        .ok (.field name, rest)
      else .ok (.symbol ".", rest)
    | [] => .ok (.symbol ".", [])
  else .error (.badCharacter c)

/-- All words of a text. Each takes at least one character, so a `bound` as long as the text is
enough. -/
def readAll (bound : List Char) (text : List Char) : Except SyntaxFault (List Token) :=
  match bound, skipSpace text with
  | _, [] => .ok []
  | [], c :: _ => .error (.badCharacter c)
  | _ :: bound, c :: rest => do
    let (token, rest) ← read c rest
    return token :: (← readAll bound rest)

/-- The words of a filter. -/
def ofText (text : String) : Except SyntaxFault (List Token) :=
  readAll text.toList text.toList

end Token

end ValidatorGen.Filter
