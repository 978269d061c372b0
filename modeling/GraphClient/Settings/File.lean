import GraphClient.FileTree
import GraphClient.Settings.Wire

/-!
# Settings in files

Settings are read from the file at a path. How a path is looked up is a parameter, so that loading
is a function.
-/

namespace GraphClient

/-- Why settings could not be loaded. -/
inductive LoadError where
  | unreadable (path : String) (problem : FileProblem)
  | misfit (mismatch : Json.Mismatch)
deriving Repr, DecidableEq, Inhabited

/-- What is told about settings that cannot be read. -/
def LoadError.message : LoadError → String
  | .unreadable path problem => "could not read " ++ path ++ ": " ++ problem.message
  | .misfit _ => "invalid configuration"

/-- Loads the settings at a path. -/
def Settings.load (view : FileView) (path : String) : Except LoadError Settings :=
  match view path with
  | .error problem => .error (.unreadable path problem)
  | .ok text => (Settings.ofText text).mapError .misfit

end GraphClient
