import ValidatorGen.Generation.Pass

/-!
# Sessions

A session keeps a program, a configuration and a cancellation flag between passes. The flag stays
set until a new one is taken.

Nothing is ever taken out of the program of a session; snapshots are added to it, and a pass is
about all of them. A pass leaves the session as it is, so it can be repeated, and repeated with
another configuration. Cancelling is known before a pass starts. That it may also happen while a
pass goes on is outside of this library: what is given then depends on time.
-/

namespace ValidatorGen

structure Session where
  compilation : Compilation
  config : Config
  cancelled : Bool

namespace Session

def start : Session :=
  ⟨.empty, .standard, false⟩

/-- Adds the files of a snapshot. -/
def merge (s : Session) (c : Compilation) : Session :=
  { s with compilation := s.compilation.merge c }

def configure (s : Session) (config : Config) : Session :=
  { s with config }

/-- Sets the flag. -/
def cancel (s : Session) : Session :=
  { s with cancelled := true }

/-- Takes a new flag, which is not set. -/
def renew (s : Session) : Session :=
  { s with cancelled := false }

/-- A pass over all that was merged. If the flag is set the pass gives nothing, and the flag stays
set. -/
def run [Number.Arithmetic] (s : Session) : Except Number.Abort PassOutput :=
  generateUnless s.cancelled s.config s.compilation

end Session

end ValidatorGen
