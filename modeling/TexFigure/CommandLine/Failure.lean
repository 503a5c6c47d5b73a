import TexFigure.Chart.Read
import TexFigure.CommandLine.Surroundings
import TexFigure.Vocabulary
/-!
# Failures

Why a command has no result, and what is said about it.
-/

namespace TexFigure.CommandLine

/-- Why a command has no result. -/
inductive Failure
  | unknownName (unknown : UnknownName)
  | noChart (missing : Chart.Missing)
  /-- A series was asked for without an expression and without rows. -/
  | noSource
  /-- A table is given by a name and a file, with an equals sign between them. -/
  | noTable (entry : Text)
  /-- A file of settings is malformed, or a setting has a value of another type. -/
  | settings (name : Text)
  /-- A JSON document is malformed, or is not of the kind that is read. -/
  | document
  /-- A file cannot be read or written. -/
  | unusable (fault : FileFault)

/-- What is said about a failure. -/
def Failure.message : Failure → Text
  | unknownName unknown => unknown.message
  | noChart missing => missing.message
  | noSource => "Invalid input: plot add needs --expression or --data"
  | noTable entry => "Invalid input: expected NAME=FILE, got '" ++ entry ++ "'"
  | settings name => "Invalid input: " ++ name ++ ": TOML parse error"
  | document => "JSON error: not a document of the kind that is read here"
  | unusable fault => "IO error: " ++ fault.message

end TexFigure.CommandLine
