/-!
# Padded text

Text filled up with spaces to a width. Text that is wider stays as it is. Width is counted in
characters, whether they are shown as wide as others or not at all.
-/

namespace ValidatorGen.Text

/-- The text with spaces after it. -/
def padRight (width : Nat) (s : String) : String :=
  s ++ "".pushn ' ' (width - s.length)

/-- The text with spaces before it. -/
def padLeft (width : Nat) (s : String) : String :=
  "".pushn ' ' (width - s.length) ++ s

end ValidatorGen.Text
