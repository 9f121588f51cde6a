import ValidatorGen.Json.Token

/-!
# Values as they stand in a text

`Written` is a JSON value with the positions of its parts. A text that stops being JSON somewhere
still has a written value: the part in which it breaks says where and why, and what stands before
the break is there. So a document can be checked against a shape in the order of its text, and
whichever fault comes first is the one that is reported.

A list that breaks in its third item is one with two whole items, a third one that says where and
why it breaks, and an ending that says the same. The reader of shapes walks such a value exactly
as far as the shape allows: a field that is unknown stands before a bracket that is missing, and
so it is the one that is complained about.

Objects and lists are read by functions that take the reader of the values in them as an argument.
`readAt` gives them itself with one level less, so it is structural in the depth that is left, and
each of them is structural in a bound no shorter than the text.

* `Written.read` — the first value of a text, and the cursor after it unless the text breaks in it;
* `Written.toJson` — the value read as any JSON at all;
* `parse` — a text that is one value and nothing else.
-/

namespace ValidatorGen.Json

/-- A member of an object: its name, the position after the name, that of the colon, the value,
and the position of what follows the value. -/
structure Member (α : Type) where
  name : String
  nameEnd : Position
  colon : Position
  value : α
  next : Position

/-- How a list ends: at a closing bracket, before which a position stands, or by breaking. The items
before the end are there in either case. -/
inductive ListEnd where
  | closed (bracket : Position)
  | breaks (breach : Breach)

/-- What kind of scalar a text breaks in, told by its first character. -/
inductive Fragment where
  | word
  | string
  | number
  /-- No value starts here. -/
  | none
  deriving Repr, DecidableEq

mutual

/-- A value as it stands in a text. -/
inductive Written where
  | scalar (start : Position) (value : Scalar) (finish : Position)
  | list (start : Position) (items : List Written) (ending : ListEnd)
  | object (start : Position) (members : List (Member Written)) (ending : ObjectEnd)
  | broken (start : Position) (fragment : Fragment) (breach : Breach)

/-- How an object ends. -/
inductive ObjectEnd where
  | closed (brace : Position)
  /-- It is nested too deeply to be read. -/
  | tooDeep (breach : Breach)
  /-- Where a name, a comma or the closing brace is due. -/
  | breaks (breach : Breach)
  /-- Something else than a name stands where a name is due. -/
  | notName (breach : Breach) (found : Written)
  /-- After a name. `next` is the position of what follows it, `closes` whether that is a brace. -/
  | noColon (name : String) (nameEnd next : Position) (closes : Bool) (breach : Breach)

end

/-- Where the value starts. -/
def Written.start : Written → Position
  | .scalar start .. | .list start .. | .object start .. | .broken start .. => start

/-- What reading gives: the value, and either the cursor after it or where the text breaks. -/
abbrev Reading (α : Type) := α × Except Breach Cursor

namespace Written

/-- A written scalar. -/
def ofScalar {α : Type} (start : Position) (fragment : Fragment) (wrap : α → Scalar) :
    Except Breach (α × Cursor) → Reading Written
  | .ok (value, c) => (.scalar start (wrap value) c.position, .ok c)
  | .error breach => (.broken start fragment breach, .error breach)

/-- A written word, from its second letter on. -/
def ofWord (start : Position) (letters : String) (value : Scalar) (c : Cursor) : Reading Written :=
  ofScalar start .word id ((readWord letters.toList c).map (value, ·))

/-- What is left of a list, at a place where an item is due. Each round takes at least one
character, so a `bound` as long as the rest is enough. -/
def readItems (readItem : Cursor → Reading Written) (bound : List Char) (c : Cursor) :
    Reading (List Written × ListEnd) :=
  match bound with
  | [] => (([], .breaks ⟨.endInList, c.position⟩), .error ⟨.endInList, c.position⟩)
  | _ :: bound =>
    match readItem c with
    | (item, .error breach) => (([item], .breaks breach), .error breach)
    | (item, .ok c) =>
      let c := c.skipSpace
      match c.accept? ']', c.accept? ',' with
      | some after, _ => (([item], .closed c.position), .ok after)
      | none, none =>
        let breach := c.breach .endInList .expectedListEnd
        (([item], .breaks breach), .error breach)
      | none, some c =>
        let c := c.skipSpace
        -- A bracket straight after a comma is reported as the comma's fault, not as a missing
        -- value.
        if c.rest.isEmpty ∨ (c.accept? ']').isSome then
          let breach := c.breach .endInValue .trailingComma
          (([item], .breaks breach), .error breach)
        else
          let ((items, ending), outcome) := readItems readItem bound c
          ((item :: items, ending), outcome)

/-- A list, after its opening bracket. -/
def readList (readItem : Cursor → Reading Written) (start : Position) (c : Cursor) :
    Reading Written :=
  let c := c.skipSpace
  match c.accept? ']' with
  | some after => (.list start [] (.closed c.position), .ok after)
  | none =>
    if c.rest.isEmpty then
      let breach := c.breach .endInList .endInList
      (.list start [] (.breaks breach), .error breach)
    else
      let ((items, ending), outcome) := readItems readItem c.rest c
      (.list start items ending, outcome)

/-- What is left of an object, at a place where a name is due. -/
def readMembers (readValue : Cursor → Reading Written) (bound : List Char) (c : Cursor) :
    Reading (List (Member Written) × ObjectEnd) :=
  match bound with
  | [] => (([], .breaks ⟨.endInObject, c.position⟩), .error ⟨.endInObject, c.position⟩)
  | _ :: bound =>
    match c.accept? '"' with
    | none =>
      let breach := c.breach .endInValue .keyNotString
      -- A choice that is given as an object reads its only name as a value, so the value that
      -- stands where a name is due is kept.
      (([], .notName breach (readValue c).1), .error breach)
    | some c =>
      match readString c with
      | .error breach => (([], .breaks breach), .error breach)
      | .ok (name, c) =>
        let nameEnd := c.position
        let c := c.skipSpace
        match c.accept? ':' with
        | none =>
          let breach := c.breach .endInObject .expectedColon
          (([], .noColon name nameEnd c.position (c.accept? '\x7d').isSome breach), .error breach)
        | some afterColon =>
          match readValue afterColon with
          | (value, .error breach) =>
            (([⟨name, nameEnd, c.position, value, breach.position⟩], .breaks breach),
              .error breach)
          | (value, .ok afterValue) =>
            let next := afterValue.skipSpace
            let member : Member Written := ⟨name, nameEnd, c.position, value, next.position⟩
            match next.accept? '\x7d', next.accept? ',' with
            | some after, _ => (([member], .closed next.position), .ok after)
            | none, none =>
              let breach := next.breach .endInObject .expectedObjectEnd
              (([member], .breaks breach), .error breach)
            | none, some c =>
              let c := c.skipSpace
              if (c.accept? '\x7d').isSome then
                let breach := c.breach .endInValue .trailingComma
                (([member], .breaks breach), .error breach)
              else
                let ((members, ending), outcome) := readMembers readValue bound c
                ((member :: members, ending), outcome)

/-- An object, after its opening brace. -/
def readObject (readValue : Cursor → Reading Written) (start : Position) (c : Cursor) :
    Reading Written :=
  let c := c.skipSpace
  match c.accept? '\x7d' with
  | some after => (.object start [] (.closed c.position), .ok after)
  | none =>
    if c.rest.isEmpty then
      let breach := c.breach .endInObject .endInObject
      (.object start [] (.breaks breach), .error breach)
    else
      let ((members, ending), outcome) := readMembers readValue c.rest c
      (.object start members ending, outcome)

/-- The first value from here on. Lists and objects may be nested to the given depth; what is nested
deeper is not looked at, and the fault names the bracket that opens it. -/
def readAt (depth : Nat) (c : Cursor) : Reading Written :=
  let c := c.skipSpace
  let start := c.position
  match c.rest with
  | [] => (.broken start .none ⟨.endInValue, start⟩, .error ⟨.endInValue, start⟩)
  | x :: rest =>
    let next : Cursor := ⟨rest, start.overChar x⟩
    match x with
    | 'n' => ofWord start "ull" .null next
    | 't' => ofWord start "rue" (.bool true) next
    | 'f' => ofWord start "alse" (.bool false) next
    | '"' => ofScalar start .string .string (readString next)
    | '[' =>
      match depth with
      -- The fault names the bracket itself, so it is placed where the bracket has not been taken.
      | 0 => (.list start [] (.breaks ⟨.tooDeep, c.ahead⟩), .error ⟨.tooDeep, c.ahead⟩)
      | depth + 1 => readList (readAt depth) start next
    | '\x7b' =>
      match depth with
      | 0 => (.object start [] (.tooDeep ⟨.tooDeep, c.ahead⟩), .error ⟨.tooDeep, c.ahead⟩)
      | depth + 1 => readObject (readAt depth) start next
    | x =>
      if x = '-' ∨ x.isDigit then ofScalar start .number .number (readNumber c)
      else (.broken start .none ⟨.expectedValue, c.ahead⟩, .error ⟨.expectedValue, c.ahead⟩)

/-- How deeply lists and objects may be nested in a document. One level more is refused. -/
def maxDepth : Nat := 127

/-- The first value of a text. What follows it is not looked at. -/
def read (text : String) : Reading Written :=
  readAt maxDepth (.start text)

end Written

/-! ## The value itself -/

mutual

/-- The value, or the first fault in it. A name that is repeated keeps its first place and takes
its last value. Parts are taken before the ending is looked at, so of two faults the one that
stands first in the text is given. -/
def Written.toJson : Written → Except Fault Json
  | .scalar _ value _ => .ok (.ofScalar value)
  | .broken _ _ breach => .error (.ofBreach breach)
  | .list _ items ending =>
    match itemsToJson 0 items with
    | .error fault => .error fault
    | .ok items =>
      match ending with
      | .closed _ => .ok (.array items)
      | .breaks breach => .error (.ofBreach breach)
  | .object _ members ending =>
    match membersToJson [] members with
    | .error fault => .error fault
    | .ok members =>
      match ending with
      | .closed _ => .ok (.object members)
      | .tooDeep breach | .noColon _ _ _ _ breach => .error (.ofBreach breach)
      | .breaks breach | .notName breach _ => .error ((Fault.ofBreach breach).under .unnamed)

/-- The values of items, counted from an index. -/
def itemsToJson (index : Nat) : List Written → Except Fault (List Json)
  | [] => .ok []
  | item :: rest =>
    match item.toJson with
    | .error fault => .error (fault.under (.index index))
    | .ok item => (itemsToJson (index + 1) rest).map (item :: ·)

/-- The values of members, set one after the other. -/
def membersToJson (done : List (String × Json)) :
    List (Member Written) → Except Fault (List (String × Json))
  | [] => .ok done
  | member :: rest =>
    match member.value.toJson with
    | .error fault => .error (fault.under (.key member.name))
    | .ok value => membersToJson (insert member.name value done) rest

end

/-- The value of a text that is one value with nothing but white space around it. -/
def parse (text : String) : Except Fault Json :=
  match Written.read text with
  | (_, .error breach) => .error (.ofBreach breach)
  | (value, .ok after) =>
    match value.toJson with
    -- Read as any JSON at all, a value has no path: only the position is reported.
    | .error fault => .error { fault with path := [] }
    | .ok value =>
      let after := after.skipSpace
      if after.rest.isEmpty then .ok value
      else .error (.ofBreach ⟨.trailingCharacters, after.ahead⟩)

end ValidatorGen.Json
