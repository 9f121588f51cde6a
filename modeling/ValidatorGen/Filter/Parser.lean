import ValidatorGen.Filter.Syntax
import ValidatorGen.Filter.Token

/-!
# Reading filters

Operators are read by climbing: an expression of a level takes the operators of that level and
above. The functions below call each other with one round less, and take a word in every few
calls, so that rounds in proportion to the number of words are enough. Running out of rounds
is answered like an unexpected word.
-/

namespace ValidatorGen.Filter

/-- What stands between two filters. -/
inductive Connective where
  | pipe
  | comma
  | assign
  | otherwise
  | either
  | both
  | compare (comparison : Comparison)
  | calculate (operation : Operation)
  deriving Repr, DecidableEq

namespace Connective

def ofSymbol? : String → Option Connective
  | "|" => some .pipe
  | "," => some .comma
  | "=" => some .assign
  | "//" => some .otherwise
  | "==" => some (.compare .equal)
  | "!=" => some (.compare .notEqual)
  | "<" => some (.compare .less)
  | "<=" => some (.compare .lessOrEqual)
  | ">" => some (.compare .greater)
  | ">=" => some (.compare .greaterOrEqual)
  | "+" => some (.calculate .add)
  | "-" => some (.calculate .subtract)
  | "*" => some (.calculate .multiply)
  | _ => none

def ofToken? : Token → Option Connective
  | .symbol text => ofSymbol? text
  | .word "or" => some .either
  | .word "and" => some .both
  | _ => none

/-- How tightly a connective binds. -/
def level : Connective → Nat
  | .pipe => 0
  | .comma => 1
  | .assign => 2
  | .otherwise => 3
  | .either => 4
  | .both => 5
  | .compare .equal | .compare .notEqual => 6
  | .compare _ => 7
  | .calculate .multiply => 9
  | .calculate _ => 8

/-- The least level of connectives on the right side: one more than its own where a connective
groups to the left, its own where it groups to the right. -/
def rightLevel : Connective → Nat
  | .pipe => 0
  | .assign => 2
  | c => c.level + 1

/-- The filter of a connective between two. -/
def join : Connective → Filter → Filter → Filter
  | .pipe => .pipe
  | .comma => .comma
  | .assign => .assign
  | .otherwise => .otherwise
  | .either => .either
  | .both => .both
  | .compare comparison => .compare comparison
  | .calculate operation => .calculate operation

end Connective

/-- The filter that a name stands for. -/
def named (name : String) (arguments : List Filter) : Except SyntaxFault Filter :=
  match name, arguments with
  | "null", [] => .ok (.literal .null)
  | "true", [] => .ok (.literal (.bool true))
  | "false", [] => .ok (.literal (.bool false))
  | "empty", [] => .ok .empty
  | "error", [] => .ok .raise
  | "error", [reason] => .ok (.pipe reason .raise)
  | "not", [] => .ok not
  | "length", [] => .ok (.property .length)
  | "keys", [] => .ok (.property .keys)
  | "type", [] => .ok (.property .type)
  | "add", [] => .ok (.property .total)
  | "add", [f] => .ok (.pipe (.array f) (.property .total))
  | "nulls", [] => .ok (ofType "null")
  | "booleans", [] => .ok (ofType "boolean")
  | "numbers", [] => .ok (ofType "number")
  | "strings", [] => .ok (ofType "string")
  | "arrays", [] => .ok (ofType "array")
  | "objects", [] => .ok (ofType "object")
  | "select", [condition] => .ok (select condition)
  | "map", [f] => .ok (map f)
  | "has", [key] => .ok (.has key)
  | "del", [path] => .ok (.delete path)
  | _, _ => .error (.undefined name)

/-- The number that digits stand for: exact if it is a whole number that fits. -/
def numeral (text : List Char) : Value :=
  let n := Number.Literal.valueOf text
  if text.all Char.isDigit && Value.fitsWord n then .integer n else .numeral text

/-- The fault of having these words where others are expected. -/
def unexpected {α : Type} : List Token → Except SyntaxFault α
  | [] => .error .unexpectedEnd
  | token :: _ => .error (.unexpected token)

/-- Takes a word that has to be there. -/
def expect (token : Token) : List Token → Except SyntaxFault (List Token)
  | [] => .error .unexpectedEnd
  | found :: rest => if found = token then .ok rest else .error (.unexpected found)

/-- Takes all question marks; tells whether there was one. -/
def readLenient (ts : List Token) : Bool × List Token :=
  match ts.dropWhile (· = .symbol "?") with
  | rest => (rest.length < ts.length, rest)

mutual

/-- An expression of connectives of at least a level. -/
def readExpression (rounds : Nat) (least : Nat) (commas : Bool) (ts : List Token) :
    Except SyntaxFault (Filter × List Token) :=
  match rounds with
  | 0 => unexpected ts
  | rounds + 1 => do
    let (left, ts) ← readTerm rounds ts
    readConnected rounds least commas left ts

/-- The connectives after the left side of an expression, with their right sides. -/
def readConnected (rounds : Nat) (least : Nat) (commas : Bool) (left : Filter)
    (ts : List Token) : Except SyntaxFault (Filter × List Token) :=
  match rounds with
  | 0 => unexpected ts
  | rounds + 1 =>
    match ts with
    | [] => .ok (left, [])
    | token :: rest =>
      match Connective.ofToken? token with
      | none => .ok (left, token :: rest)
      | some connective =>
        if connective.level < least ∨ (connective = .comma ∧ !commas) then
          .ok (left, token :: rest)
        else do
          let (right, ts) ← readExpression rounds connective.rightLevel commas rest
          readConnected rounds least commas (connective.join left right) ts

/-- A filter without connectives. -/
def readTerm (rounds : Nat) (ts : List Token) : Except SyntaxFault (Filter × List Token) :=
  match rounds with
  | 0 => unexpected ts
  | rounds + 1 =>
    match ts with
    | .symbol "-" :: rest => do
      let (f, ts) ← readTerm rounds rest
      return (.negate f, ts)
    | .symbol "." :: .string name :: rest => do
      let (lenient, rest) := readLenient rest
      readSteps rounds (.index .identity (.literal (.string name)) lenient) rest
    | .symbol "." :: rest => readEnding rounds .identity rest
    | .field name :: rest =>
      let (lenient, rest) := readLenient rest
      readSteps rounds (.index .identity (.literal (.string name)) lenient) rest
    | .number text :: rest => readEnding rounds (.literal (numeral text)) rest
    | .string value :: rest => readEnding rounds (.literal (.string value)) rest
    | .variable name :: _ => .error (.undefined ("$" ++ name))
    | .symbol "(" :: rest => do
      let (f, ts) ← readExpression rounds 0 true rest
      readEnding rounds f (← expect (.symbol ")") ts)
    -- An empty list or object has no expression between its brackets, so it is told before one is
    -- read.
    | .symbol "[" :: .symbol "]" :: rest => readEnding rounds (.literal (.array [])) rest
    | .symbol "[" :: rest => do
      let (f, ts) ← readExpression rounds 0 true rest
      readEnding rounds (.array f) (← expect (.symbol "]") ts)
    | .symbol "\x7b" :: .symbol "\x7d" :: rest => readEnding rounds (record []) rest
    | .symbol "\x7b" :: rest => do
      let (members, ts) ← readMembers rounds rest
      readEnding rounds (record members) ts
    | .word "if" :: rest => do
      let (f, ts) ← readChoice rounds rest
      readEnding rounds f ts
    -- All other words are names of filters, with or without arguments.
    | .word name :: .symbol "(" :: rest => do
      let (arguments, ts) ← readArguments rounds rest
      readEnding rounds (← named name arguments) ts
    | .word name :: rest => do readEnding rounds (← named name []) rest
    | ts => unexpected ts

/-- What follows a term that is not a lookup: question marks, and then lookups. -/
def readEnding (rounds : Nat) (f : Filter) (ts : List Token) :
    Except SyntaxFault (Filter × List Token) :=
  match rounds with
  | 0 => unexpected ts
  | rounds + 1 =>
    match readLenient ts with
    | (true, ts) => readSteps rounds (.attempt f) ts
    | (false, ts) => readSteps rounds f ts

/-- The lookups after a term. -/
def readSteps (rounds : Nat) (base : Filter) (ts : List Token) :
    Except SyntaxFault (Filter × List Token) :=
  match rounds with
  | 0 => unexpected ts
  | rounds + 1 =>
    match ts with
    | .field name :: rest | .symbol "." :: .string name :: rest =>
      let (lenient, rest) := readLenient rest
      readSteps rounds (.index base (.literal (.string name)) lenient) rest
    | .symbol "[" :: rest | .symbol "." :: .symbol "[" :: rest => do
      let (step, ts) ← readBracket rounds rest
      let (lenient, ts) := readLenient ts
      readSteps rounds (step base lenient) ts
    | .symbol "." :: rest => unexpected rest
    | ts => .ok (base, ts)

/-- A lookup in brackets, after the opening one. -/
def readBracket (rounds : Nat) (ts : List Token) :
    Except SyntaxFault ((Filter → Bool → Filter) × List Token) :=
  match rounds with
  | 0 => unexpected ts
  | rounds + 1 =>
    match ts with
    | .symbol "]" :: rest => .ok (.every, rest)
    | .symbol ":" :: rest => do
      let (upper, ts) ← readExpression rounds 0 true rest
      return (fun base => .slice base .unset (.placed upper), ← expect (.symbol "]") ts)
    | ts => do
      let (key, ts) ← readExpression rounds 0 true ts
      match ts with
      | .symbol ":" :: .symbol "]" :: rest =>
        return (fun base => .slice base (.placed key) .unset, rest)
      | .symbol ":" :: rest => do
        let (upper, ts) ← readExpression rounds 0 true rest
        return (fun base => .slice base (.placed key) (.placed upper), ← expect (.symbol "]") ts)
      | ts => return (fun base => .index base key, ← expect (.symbol "]") ts)

/-- The members of an object, up to its closing brace. -/
def readMembers (rounds : Nat) (ts : List Token) :
    Except SyntaxFault (List (Filter × Filter) × List Token) :=
  match rounds with
  | 0 => unexpected ts
  | rounds + 1 => do
    let (member, ts) ← readMember rounds ts
    match ts with
    | .symbol "\x7d" :: rest => return ([member], rest)
    | .symbol "," :: rest => do
      let (members, ts) ← readMembers rounds rest
      return (member :: members, ts)
    | ts => unexpected ts

/-- One member. A name without a value stands for the member of that name. -/
def readMember (rounds : Nat) (ts : List Token) :
    Except SyntaxFault ((Filter × Filter) × List Token) :=
  match rounds with
  | 0 => unexpected ts
  | rounds + 1 =>
    match ts with
    | .word name :: rest | .string name :: rest =>
      let key := Filter.literal (.string name)
      match rest with
      | .symbol ":" :: rest => do
        -- A comma ends the value, so it is not read as a connective here.
        let (value, ts) ← readExpression rounds 0 false rest
        return ((key, value), ts)
      | rest => .ok ((key, .index .identity key false), rest)
    | .symbol "(" :: rest => do
      let (key, ts) ← readExpression rounds 0 true rest
      let ts ← expect (.symbol ")") ts
      let ts ← expect (.symbol ":") ts
      let (value, ts) ← readExpression rounds 0 false ts
      return ((key, value), ts)
    | .variable name :: _ => .error (.undefined ("$" ++ name))
    | ts => unexpected ts

/-- A choice, from its condition on; without an alternative, the value itself is one. -/
def readChoice (rounds : Nat) (ts : List Token) : Except SyntaxFault (Filter × List Token) :=
  match rounds with
  | 0 => unexpected ts
  | rounds + 1 => do
    let (condition, ts) ← readExpression rounds 0 true ts
    let ts ← expect (.word "then") ts
    let (yes, ts) ← readExpression rounds 0 true ts
    match ts with
    | .word "end" :: rest => return (.choose condition yes .identity, rest)
    | .word "elif" :: rest => do
      let (no, ts) ← readChoice rounds rest
      return (.choose condition yes no, ts)
    | .word "else" :: rest => do
      let (no, ts) ← readExpression rounds 0 true rest
      return (.choose condition yes no, ← expect (.word "end") ts)
    | ts => unexpected ts

/-- The arguments of a function, up to the closing bracket. -/
def readArguments (rounds : Nat) (ts : List Token) :
    Except SyntaxFault (List Filter × List Token) :=
  match rounds with
  | 0 => unexpected ts
  | rounds + 1 => do
    let (argument, ts) ← readExpression rounds 0 true ts
    match ts with
    | .symbol ")" :: rest => return ([argument], rest)
    | .symbol ";" :: rest => do
      let (arguments, ts) ← readArguments rounds rest
      return (argument :: arguments, ts)
    | ts => unexpected ts

end

/-- The filter that a text stands for. -/
def ofText (text : String) : Except SyntaxFault Filter := do
  let ts ← Token.ofText text
  let (f, ts) ← readExpression (8 * ts.length + 8) 0 true ts
  match ts with
  | [] => return f
  | ts => unexpected ts

end ValidatorGen.Filter
