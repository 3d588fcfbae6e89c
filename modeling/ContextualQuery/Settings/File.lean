import ContextualQuery.Settings.Loader

/-! Settings in files. -/

namespace ContextualQuery

/-- Why a file cannot be read. -/
inductive ReadError where
  | notFound
  | isDirectory
  | notText
  | other (reason : String)
  deriving DecidableEq

/-- The reason in words. -/
def ReadError.message : ReadError → String
  | .notFound => "No such file or directory (os error 2)"
  | .isDirectory => "Is a directory (os error 21)"
  | .notText => "stream did not contain valid UTF-8"
  | .other reason => reason

/-- A directory without subdirectories: its files by name, with their texts. -/
structure Directory where
  files : Dictionary := .empty

/-- The text of the file at a path from inside the directory. -/
def Directory.read (d : Directory) (path : String) : Except ReadError String :=
  let parts := (path.toList.splitOnP (· == '/')).map String.ofList
  match parts.filter fun part => !part.isEmpty && part != "." with
  | [] => if path.isEmpty then .error .notFound else .error .isDirectory
  | [name] =>
    if name == ".." then .error .isDirectory
    else if path.startsWith "/" then .error .notFound
    else (d.files.get? name).elim (.error .notFound) .ok
  | _ => .error .notFound

namespace Settings

/-- Why a file gives no settings. -/
inductive FileProblem where
  | unreadable (path : String) (error : ReadError)
  | invalid (problem : Problem)

/-- The reason in words. -/
def FileProblem.message : FileProblem → String
  | .unreadable path error => "cannot read " ++ path ++ ": " ++ error.message
  | .invalid problem => problem.message

/-- The settings in a file, given its path and what reading it gave. -/
def ofFile (path : String) : Except ReadError String → Except FileProblem Settings
  | .error e => .error (.unreadable path e)
  | .ok text => (ofText text).mapError .invalid

end Settings

end ContextualQuery
