import ValidatorGen.Diagnostic.Basic

/-!
# Diagnostics on a terminal

Styled text starts with the codes of its style and ends by resetting it. Where the text resets the
style itself, the style is set again. Only places and headlines are styled; messages stand as they
are, and a name in a message is not looked at for control sequences.
-/

namespace ValidatorGen

/-- A style by its codes. -/
structure Style where
  codes : String
  deriving Repr, DecidableEq

namespace Style

def bold : Style := ⟨"1"⟩

def boldRed : Style := ⟨"1;31"⟩

def boldYellow : Style := ⟨"1;33"⟩

/-- The sequence that sets the style. -/
def opening (s : Style) : List Char :=
  '\x1b' :: '[' :: (s.codes.toList ++ ['m'])

/-- The sequence that resets all styles. -/
def reset : List Char :=
  ['\x1b', '[', '0', 'm']

/-- The text with the style set again after each reset in it. -/
def resume (s : Style) : List Char → List Char
  | '\x1b' :: '[' :: '0' :: 'm' :: rest => reset ++ s.opening ++ resume s rest
  | c :: rest => c :: resume s rest
  | [] => []

/-- The text in the style, if styles are in use. -/
def apply (s : Style) (colored : Bool) (text : String) : String :=
  if colored then String.ofList (s.opening ++ s.resume text.toList ++ reset) else text

end Style

namespace Diagnostic

/-- Errors are red and warnings yellow. -/
def style (d : Diagnostic) : Style :=
  match d.severity with
  | .error => .boldRed
  | .warning => .boldYellow

/-- The diagnostic on one line, in colors or without. -/
def render (d : Diagnostic) (colored : Bool) : String :=
  Style.bold.apply colored d.location.text ++ ": " ++ d.style.apply colored d.headline ++ ": " ++
    d.message

end Diagnostic

end ValidatorGen
