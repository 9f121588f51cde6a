/-!
# Lines

A text split at a mark, and split into lines. Only line feeds end lines. A carriage return belongs
to the end of its line if a line feed follows it at once, and to the line itself otherwise. So a
text can have carriage returns in the middle of lines, and lines that end in several lose one.
-/

namespace ValidatorGen.Text

/-- The texts between the marks of a text; there is one more than there are marks. -/
def splitOn (mark : Char) (text : List Char) : List (List Char) :=
  go [] text
where
  go (part : List Char) : List Char → List (List Char)
    | [] => [part.reverse]
    | c :: rest => if c = mark then part.reverse :: go [] rest else go (c :: part) rest

/-- A line without the carriage return at its end. -/
def dropReturn (line : List Char) : List Char :=
  if line.getLast? = some '\r' then line.dropLast else line

/-! One carriage return is dropped, and no more than one. What is left of the line may end in
another one. -/

theorem dropReturn_append_return (line : List Char) : dropReturn (line ++ ['\r']) = line := by
  rw [dropReturn, if_pos List.getLast?_concat, List.dropLast_concat]

theorem dropReturn_of_getLast? {line : List Char} (h : line.getLast? ≠ some '\r') :
    dropReturn line = line := if_neg h

/-- A line ends in the carriage return that is dropped, or none is dropped. -/
theorem dropReturn_cases (line : List Char) :
    line = dropReturn line ++ ['\r'] ∨ dropReturn line = line ∧ line.getLast? ≠ some '\r' := by
  by_cases h : line.getLast? = some '\r'
  · obtain ⟨body, rfl⟩ := List.getLast?_eq_some_iff.1 h
    exact .inl (by rw [dropReturn_append_return])
  · exact .inr ⟨dropReturn_of_getLast? h, h⟩

theorem dropReturn_isPrefix (line : List Char) : dropReturn line <+: line := by
  obtain h | ⟨h, -⟩ := dropReturn_cases line
  · exact ⟨['\r'], h.symm⟩
  · exact ⟨[], (List.append_nil _).trans h⟩

theorem dropReturn_append (xs : List Char) {ys : List Char} (h : ys ≠ []) :
    dropReturn (xs ++ ys) = xs ++ dropReturn ys := by
  obtain hReturn | ⟨hSame, hLast⟩ := dropReturn_cases ys
  · rw [hReturn, ← List.append_assoc, dropReturn_append_return, dropReturn_append_return]
  · rw [hSame]
    refine dropReturn_of_getLast? ?_
    rwa [List.getLast?_append, List.getLast?_eq_some_getLast h, Option.some_or,
      ← List.getLast?_eq_some_getLast h]

/-- The lines of a text. A line feed ends a line, together with a carriage return right before it.
What follows the last line feed is a line if it is not empty, and keeps its carriage return. -/
def lines (text : List Char) : List (List Char) :=
  let parts := splitOn '\n' text
  let ended := parts.dropLast.map dropReturn
  match parts.getLast? with
  | none | some [] => ended
  | some last => ended ++ [last]

end ValidatorGen.Text
