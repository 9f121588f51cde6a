import ValidatorGen.Config
import ValidatorGen.Files.Volume

/-!
# Configuration files

A configuration that is read from a file. Two things can go wrong, and they are told apart: the file
cannot be read, or there is no configuration in its text. The message names the file in either case.
A message may be followed by that of a cause. A fault in the text has no cause of its own, since its
message says all there is to say.
-/

namespace ValidatorGen

/-- Why a configuration cannot be read from a file. -/
inductive ConfigFileError where
  | unreadable (path : String) (error : FileError)
  | invalid (path : String) (fault : Json.Fault)
  deriving Repr, DecidableEq

namespace ConfigFileError

def message : ConfigFileError → String
  | .unreadable path error => "failed to read config " ++ path ++ ": " ++ error.message
  | .invalid path fault => "invalid config " ++ path ++ ": " ++ fault.message

/-- The message, and the one of what caused it if that is an error of its own. -/
def chain (e : ConfigFileError) : List String :=
  match e with
  | .unreadable _ error => [e.message, error.message]
  | .invalid .. => [e.message]

end ConfigFileError

/-- The configuration in a file. -/
def Config.fromFile {m : Type → Type} [Monad m] [Volume m] (path : String) :
    m (Except ConfigFileError Config) := do
  match ← Volume.readText path with
  | .error e => return .error (.unreadable path e)
  | .ok text => return (Config.ofText text).mapError (.invalid path)

end ValidatorGen
